import DebugAdapter.Proofs.ArmedTables
import DebugAdapter.Proofs.SessionRuns
import DebugAdapter.Engine.Traced

/-!
# Small kernels

A kernel with one process of one thread, which runs as it is told, has a memory that can be read and
written, and reports the statuses that it was given. It makes sure that what is assumed of kernels
can be met, and shows runs of sessions on it. A `Stage` does everything that it is asked for, and also
has registers, statuses for those who wait, and a new image for its process.
-/

namespace DebugAdapter

open Linux

/-- A kernel with the memory of its process and the statuses that it is going to report. -/
structure Puppet where
  bytes : AddressSpace
  statuses : List WaitStatus

namespace Puppet

instance : Kernel Puppet where
  perform c k :=
    match c with
    | .peek _ a => (.ok (k.bytes.word a), k)
    | .poke _ a w => (.ok (), { k with bytes := k.bytes.overwrite a (Bytes.ofWord w) })
    | .poll =>
      match k.statuses with
      | [] => (.ok none, k)
      | status :: r => (.ok (some status), { k with statuses := r })
    | .spawn .. => (.ok 1, k)
    | .wait _ => (.ok (.stopped 1 .trap), k)
    | .getRegisters _ => (.ok .zero, k)
    | .setOptions .. => (.ok (), k)
    | .resume .. => (.ok (), k)
    | _ => (.error .noProcess, k)
  file _ path := if path = "/app" then .ok [] else .error .noEntry
  linkTarget? _ _ := none
  process? _ _ := none
  lookUp? _ _ := none
  outstanding k := k.statuses.length

instance : WordMemory Puppet where
  memory := Puppet.bytes
  peek_answer _ _ _ := rfl
  memory_peek _ _ _ := rfl
  poke_answer _ _ _ _ := rfl
  memory_poke _ _ _ _ := rfl

instance : Resumes Puppet where
  noProcess_of_error _ _ _ _ h := nomatch h

/-- A fresh session over the kernel, which counts the images that are announced. Nobody reads what it
writes. -/
def session (statuses : List WaitStatus) : Session (Engine.Traced.Engine (Counted Puppet)) :=
  .start ⟨⟨⟨fun _ => 0, statuses⟩, 0⟩, []⟩ .standard
    ⟨.binary, ⟨[], 0, fun _ offered => offered, some 0⟩, none⟩

/-- The session after a program was staged and launched. -/
def launched (statuses : List WaitStatus) : Session (Engine.Traced.Engine (Counted Puppet)) :=
  (Session.replies [] (session statuses) [.prepare ⟨"/app", true, none, []⟩, .launch]).2

theorem run_launched (statuses : List WaitStatus) :
    ∃ log, Session.Run (session statuses) log (launched statuses) :=
  ⟨_, Session.run_replies _ .start⟩

end Puppet

/-- A kernel that lets every call succeed. -/
structure Stage where
  bytes : AddressSpace
  /-- The memory of the process after an exec. -/
  image : AddressSpace
  registers : Nat → Machine.RegisterFile
  /-- The statuses that are reported to those who wait. -/
  waits : List WaitStatus
  /-- The statuses that are there for those who look. -/
  polls : List WaitStatus

namespace Stage

/-- The kernel after a status was reported. -/
def reporting (k : Stage) : WaitStatus → Stage
  | .event _ n => if n = WaitStatus.execEvent then { k with bytes := k.image } else k
  | _ => k

instance : Kernel Stage where
  perform c k :=
    match c with
    | .peek _ a => (.ok (k.bytes.word a), k)
    | .poke _ a w => (.ok (), { k with bytes := k.bytes.overwrite a (Bytes.ofWord w) })
    | .getRegisters tid => (.ok (k.registers tid), k)
    | .setRegisters tid regs =>
      (.ok (), { k with registers := fun u => if u = tid then regs else k.registers u })
    | .signalCode _ => (.ok 1, k)
    | .eventMessage _ => (.ok 2, k)
    | .spawn .. => (.ok 1, k)
    | .wait _ =>
      match k.waits with
      | [] => (.error .noChild, k)
      | status :: r => (.ok status, { k with waits := r }.reporting status)
    | .poll =>
      match k.polls with
      | [] => (.ok none, k)
      | status :: r => (.ok (some status), { k with polls := r }.reporting status)
    | .resume .. | .step .. | .detach .. | .setOptions .. | .attach _ | .kill .. | .killThread .. =>
      (.ok (), k)
  file _ path := if path = "/app" then .ok [] else .error .noEntry
  linkTarget? _ _ := none
  process? _ _ := some ⟨none, []⟩
  lookUp? _ _ := none
  outstanding k := k.waits.length + k.polls.length

/-- A kernel whose memory is zero and whose threads stand at zero. -/
def bare (waits polls : List WaitStatus) : Stage :=
  ⟨fun _ => 0, fun _ => 0, fun _ => .zero, waits, polls⟩

theorem outstanding_reporting (k : Stage) (status : WaitStatus) :
    Kernel.outstanding (k.reporting status) = Kernel.outstanding k := by
  unfold reporting
  split
  · split
    · rfl
    · rfl
  · rfl

/-- A status that is there for those who wait is reported. -/
theorem outstanding_wait (tid : Option Nat) (k : Stage) :
    (Kernel.perform (.wait tid) k = (.error .noChild, k)) ∨
      Kernel.outstanding (Kernel.perform (.wait tid) k).2 + 1 = Kernel.outstanding k := by
  obtain ⟨bytes, image, registers, waits, polls⟩ := k
  cases waits with
  | nil => exact Or.inl rfl
  | cons status r =>
    refine Or.inr ?_
    show Kernel.outstanding (reporting _ status) + 1 = _
    rw [outstanding_reporting]
    show r.length + polls.length + 1 = r.length + 1 + polls.length
    omega

theorem outstanding_poll (k : Stage) :
    (Kernel.perform .poll k = (.ok none, k)) ∨
      Kernel.outstanding (Kernel.perform .poll k).2 + 1 = Kernel.outstanding k := by
  obtain ⟨bytes, image, registers, waits, polls⟩ := k
  cases polls with
  | nil => exact Or.inl rfl
  | cons status r =>
    refine Or.inr ?_
    show Kernel.outstanding (reporting _ status) + 1 = _
    rw [outstanding_reporting]
    rfl

/-- Every status that is reported was given. -/
instance : Kernel.Lawful Stage where
  outstanding_perform_le c k := by
    cases c with
    | wait tid =>
      rcases outstanding_wait tid k with h | h
      · exact Nat.le_of_eq (congrArg (Kernel.outstanding ·.2) h)
      · exact Nat.le_of_add_right_le (Nat.le_of_eq h)
    | poll =>
      rcases outstanding_poll k with h | h
      · exact Nat.le_of_eq (congrArg (Kernel.outstanding ·.2) h)
      · exact Nat.le_of_add_right_le (Nat.le_of_eq h)
    | _ => exact Nat.le_refl _
  outstanding_wait_lt tid k status h := by
    refine (outstanding_wait tid k).elim (fun hnone => ?_) fun h => Nat.lt_of_succ_le (Nat.le_of_eq h)
    rw [hnone] at h
    cases h
  outstanding_poll_lt k status h := by
    refine (outstanding_poll k).elim (fun hnone => ?_) fun h => Nat.lt_of_succ_le (Nat.le_of_eq h)
    rw [hnone] at h
    cases h

end Stage

end DebugAdapter
