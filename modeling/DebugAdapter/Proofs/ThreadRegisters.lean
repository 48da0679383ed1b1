import DebugAdapter.Proofs.StepLogs
import DebugAdapter.Proofs.StopReports

/-!
# Registers of threads that stand still

A thread stands still from the report of its stop until it is let go on. Only a call that lets it go on,
waits for it or writes its registers may change them (`KeepsRegisters`). While the other threads of its
process are stopped there is no such call, so the stop of the thread is published with the program
counter that it has when the report begins.

Main statement: `serves_reportStop`.
-/

namespace DebugAdapter

open Debuggee
open Linux
open Machine (RegisterFile)
open Operation

namespace Linux

/-- A call that may move a thread, or change its registers. -/
def SystemCall.moves (tid : Nat) : SystemCall → Bool
  | resume u _ | step u _ | detach u _ | setRegisters u _ | killThread _ u _ | wait (some u) => u == tid
  | wait none | poll | spawn .. | attach _ | kill .. => true
  | _ => false

/-- A kernel that keeps the registers of a thread that stands still. -/
class KeepsRegisters (κ : Type) [Kernel κ] where
  /-- The registers of a thread that stands still. -/
  standing : κ → Nat → Option RegisterFile
  getRegisters_answer : ∀ (k : κ) (tid : Nat) (regs regs' : RegisterFile),
    standing k tid = some regs → (Kernel.perform (.getRegisters tid) k).1 = .ok regs' → regs' = regs
  standing_setRegisters : ∀ (k : κ) (tid : Nat) (old regs : RegisterFile),
    standing k tid = some old → (Kernel.perform (.setRegisters tid regs) k).1 = .ok () →
      standing (Kernel.perform (.setRegisters tid regs) k).2 tid = some regs
  standing_perform : ∀ (c : SystemCall) (k : κ) (tid : Nat) (regs : RegisterFile),
    standing k tid = some regs → c.moves tid = false →
      standing (Kernel.perform c k).2 tid = some regs

variable {κ : Type} [Kernel κ]

instance [KeepsRegisters κ] : KeepsRegisters (Logged κ) where
  standing k := KeepsRegisters.standing k.kernel
  getRegisters_answer k := KeepsRegisters.getRegisters_answer k.kernel
  standing_setRegisters k := KeepsRegisters.standing_setRegisters k.kernel
  standing_perform c k := KeepsRegisters.standing_perform c k.kernel

end Linux

theorem Stage.registers_reporting (k : Stage) (status : WaitStatus) :
    (k.reporting status).registers = k.registers := by
  unfold reporting
  split
  · split
    · rfl
    · rfl
  · rfl

/-- On a stage all threads stand still. -/
instance : KeepsRegisters Stage where
  standing k tid := some (k.registers tid)
  getRegisters_answer k tid regs regs' hregs hanswer := by
    cases hregs
    cases hanswer
    rfl
  standing_setRegisters k tid old regs _ _ := congrArg some (if_pos rfl)
  standing_perform c k tid regs hregs hmoves := by
    cases c with
    | setRegisters u regs' =>
      have hne : tid ≠ u := fun heq => ne_of_beq_false hmoves heq.symm
      exact (congrArg some (if_neg hne)).trans hregs
    | wait who =>
      refine Eq.trans (congrArg some (congrFun ?_ tid)) hregs
      obtain ⟨bytes, image, _, waits, polls⟩ := k
      cases waits with
      | nil => rfl
      | cons status r => exact Stage.registers_reporting _ status
    | poll => cases hmoves
    | _ => exact hregs

namespace Tracer

open KeepsRegisters (standing)
open Tracing (Awaits)

/-- Calls that move no thread but others. -/
def Apart (tid : Nat) (calls : List Answered) : Prop := ∀ x ∈ calls, x.call.moves tid = false

theorem Apart.nil (tid : Nat) : Apart tid [] := List.forall_mem_nil _

theorem Apart.cons {tid : Nat} {x : Answered} {calls : List Answered} (hx : x.call.moves tid = false)
    (h : Apart tid calls) : Apart tid (x :: calls) :=
  List.forall_mem_cons.mpr ⟨hx, h⟩

theorem Apart.append {tid : Nat} {calls more : List Answered} (h : Apart tid calls)
    (h' : Apart tid more) : Apart tid (calls ++ more) :=
  List.forall_mem_append.mpr ⟨h, h'⟩

variable {κ : Type} [Kernel κ] [KeepsRegisters κ]

/-- What calls leave of the registers of threads that they do not move. -/
structure Traces (s s' : System (Logged κ)) : Prop where
  calls : ∃ new, s'.kernel.log = s.kernel.log ++ new ∧ ∀ tid regs,
    Apart tid new → standing s.kernel tid = some regs →
      standing s'.kernel tid = some regs

instance : StepRelation (Traces : System (Logged κ) → System (Logged κ) → Prop) where
  refl s := ⟨[], (List.append_nil _).symm, fun _ _ _ => id⟩
  trans {s t u} h h' := by
    obtain ⟨new, hlog, hkept⟩ := h.calls
    obtain ⟨more, hlog', hkept'⟩ := h'.calls
    refine ⟨new ++ more, by rw [hlog', hlog, List.append_assoc], fun tid regs hapart hregs => ?_⟩
    obtain ⟨hnew, hmore⟩ := List.forall_mem_append.mp hapart
    exact hkept' tid regs hmore (hkept tid regs hnew hregs)

instance : ThreadRelation (Traces : System (Logged κ) → System (Logged κ) → Prop) where
  call c s _ := ⟨[⟨c, (Kernel.perform c s.kernel).1⟩], rfl, fun tid regs hapart hregs =>
    KeepsRegisters.standing_perform c s.kernel tid regs hregs (hapart _ List.mem_cons_self)⟩
  tracer _ _ _ _ _ := ⟨[], (List.append_nil _).symm, fun _ _ _ => id⟩
  exit _ _ _ _ _ := ⟨[], (List.append_nil _).symm, fun _ _ _ => id⟩

/-- What operations leave of a thread that stands still, by the calls that they make. -/
theorem Traces.stands {s t : System (Logged κ)} (h : Traces s t) {new : List Answered} {tid : Nat}
    {regs : RegisterFile} (hlog : t.kernel.log = s.kernel.log ++ new)
    (hapart : Apart tid new) (hregs : standing s.kernel tid = some regs) :
    standing t.kernel tid = some regs := by
  obtain ⟨new', hlog', hkept⟩ := h.calls
  cases List.append_cancel_left (hlog'.symm.trans hlog)
  exact hkept tid regs hapart hregs

/-! ### Stops of other threads -/

section Beside

variable {tid u : Nat} {plan : Option StepPlan} {p p' : Process} {new : List Answered}

theorem Diagnosis.apart {t : BreakpointTable} {trap : Tracing.Trap} (h : Diagnosis t u trap new) :
    Apart tid new := by
  cases h with
  | breakpoint => exact .cons rfl (.cons rfl (.nil tid))
  | programTrap => exact .cons rfl (.cons rfl (.nil tid))
  | step => exact .cons rfl (.nil tid)
  | signal => exact .cons rfl (.nil tid)

theorem apart_of_firstHalts (hu : u ≠ tid) {a : Unit} (h : Awaits (some u) FirstHalt p new a p') :
    Apart tid new := by
  induction h with
  | last h =>
    rw [h.2.1]
    exact .cons (beq_false_of_ne hu) (.nil tid)
  | next h _ ih =>
    rw [h.2.1]
    exact .cons (beq_false_of_ne hu) ih

/-- A new thread is another one. -/
theorem Announces.apart {v : Nat} (h : Announces u p new v p') (hp : Poised tid plan p) :
    Apart tid new := by
  cases h with
  | known hknown => exact .cons rfl (.nil tid)
  | unknown hunknown hwaits =>
    refine .cons rfl (apart_of_firstHalts ?_ hwaits)
    rintro rfl
    cases hunknown.symm.trans hp.known

theorem Verdict.beside {t : BreakpointTable} {status : WaitStatus} {v : Option Bool}
    (h : Verdict t u status v new p p') (hu : u ≠ tid) (hp : Poised tid plan p) :
    Poised tid plan p' ∧ Apart tid new := by
  cases h with
  | stop => exact ⟨hp.seeStop u, .nil tid⟩
  | rewound _ _ hfound regs =>
    exact ⟨hp, hfound.apart.append (.cons rfl (.cons (beq_false_of_ne hu) (.nil tid)))⟩
  | trapped _ _ hfound htrap => exact ⟨hp, hfound.apart⟩
  | trapSignal _ _ hfound => exact ⟨hp.modifyThread u (fun _ => rfl) fun _ => id, hfound.apart⟩
  | signal => exact ⟨hp.modifyThread u (fun _ => rfl) fun _ => id, .nil tid⟩
  | cloned _ h => exact ⟨h.poised hp, h.apart hp⟩
  | event => exact ⟨hp, .nil tid⟩
  | exiting => exact ⟨hp, .cons (beq_false_of_ne hu) (.nil tid)⟩
  | continued => exact ⟨hp, .nil tid⟩
  | exited => exact ⟨hp.removeThread hu, .nil tid⟩
  | signaled => exact ⟨hp.removeThread hu, .nil tid⟩

theorem beside_of_awaits {t : BreakpointTable} {present : Bool} (hu : u ≠ tid)
    (h : Awaits (some u) (Verdict t u) p new present p') (hp : Poised tid plan p) :
    Poised tid plan p' ∧ Apart tid new := by
  induction h with
  | last h =>
    obtain ⟨hp', hapart⟩ := h.beside hu hp
    exact ⟨hp', .cons (beq_false_of_ne hu) hapart⟩
  | next h _ ih =>
    obtain ⟨hq, hapart⟩ := h.beside hu hp
    obtain ⟨hp', hmore⟩ := ih hq
    exact ⟨hp', .cons (beq_false_of_ne hu) (hapart.append hmore)⟩

theorem StopsThread.beside {t : BreakpointTable} (h : StopsThread t u p new p') (hu : u ≠ tid)
    (hp : Poised tid plan p) : Poised tid plan p' ∧ Apart tid new := by
  have hexpecting := hp.modifyThread u (f := Thread.expecting) (fun _ => rfl) fun _ => id
  cases h with
  | present h =>
    obtain ⟨hq, hapart⟩ := beside_of_awaits hu h hexpecting
    exact ⟨hq.modifyThread u (fun _ => rfl) fun _ => Bool.noConfusion,
      .cons (beq_false_of_ne hu) hapart⟩
  | ended h =>
    obtain ⟨hq, hapart⟩ := beside_of_awaits hu h hexpecting
    exact ⟨hq, .cons (beq_false_of_ne hu) hapart⟩

/-- Stopping other threads moves none but these. -/
theorem StopsThreads.beside {t : BreakpointTable} {tids : List Nat} (h : StopsThreads t tids p new p')
    (htids : tid ∉ tids) (hp : Poised tid plan p) : Poised tid plan p' ∧ Apart tid new := by
  induction h with
  | nil => exact ⟨hp, .nil tid⟩
  | cons h _ ih =>
    obtain ⟨hu, hrest⟩ := List.ne_and_not_mem_of_not_mem_cons htids
    obtain ⟨hq, hapart⟩ := h.beside (Ne.symm hu) hp
    obtain ⟨hp', hmore⟩ := ih hrest hq
    exact ⟨hp', hapart.append hmore⟩

end Beside

/-! ### Registers that are read -/

/-- What is seen of a thread that stands still, if anything is. -/
structure Sees {α : Type} (tid : Nat) (regs : RegisterFile) (a : α) (r : Except DebugError α)
    (t : System κ) : Prop where
  answer : ∀ b, r = .ok b → b = a
  kept : standing t.kernel tid = some regs

theorem Sees.error {α : Type} {tid : Nat} {regs : RegisterFile} {a : α} {s : System κ}
    (h : standing s.kernel tid = some regs) (e : DebugError) : Sees tid regs a (.error e) s :=
  ⟨(fun _ he => by cases he), h⟩

/-- The thread stands still while work on breakpoints is done. -/
structure Patched.Stands (p p' : Patched κ) : Prop where
  kept : ∀ tid regs, standing p.kernel tid = some regs → standing p'.kernel tid = some regs

instance : PatchRelation (Patched.Stands : Patched κ → Patched κ → Prop) where
  refl _ := ⟨fun _ _ => id⟩
  trans h h' := ⟨fun tid regs hregs => h'.kept tid regs (h.kept tid regs hregs)⟩
  peek access a p := ⟨fun tid regs hregs =>
    KeepsRegisters.standing_perform (.peek access a) p.kernel tid regs hregs rfl⟩
  poke access a word p := ⟨fun tid regs hregs =>
    KeepsRegisters.standing_perform (.poke access a word) p.kernel tid regs hregs rfl⟩
  table _ _ _ := ⟨fun _ _ => id⟩

namespace Tracing

section Reads

variable {s : System κ} {tid : Nat} {regs : RegisterFile}

theorem sees_registersOf (hregs : standing s.kernel tid = some regs) :
    Ends (registersOf tid) s (Sees tid regs regs) := by
  rw [registersOf, ends_require]
  refine ⟨fun regs' hregs' => ?_, KeepsRegisters.standing_perform _ s.kernel tid regs hregs rfl⟩
  rcases hanswer : (Kernel.perform (.getRegisters tid) s.kernel).1 with e | read
  · rw [hanswer] at hregs'
    cases hregs'
  · rw [hanswer] at hregs'
    cases hregs'
    exact KeepsRegisters.getRegisters_answer s.kernel tid regs regs' hregs hanswer

/-- A look at one register. -/
theorem sees_register {α : Type} (f : RegisterFile → α) (hregs : standing s.kernel tid = some regs) :
    Ends (registersOf tid >>= fun read => pure (f read)) s (Sees tid regs (f regs)) := by
  refine (sees_registersOf hregs).bind ?_ fun e t h => Sees.error h.kept e
  rintro read t ⟨hread, hkept⟩
  refine ⟨?_, hkept⟩
  rintro _ ⟨⟩
  rw [hread read rfl]

theorem sees_pcOf (hregs : standing s.kernel tid = some regs) :
    Ends (pcOf tid) s (Sees tid regs regs.pc) :=
  sees_register RegisterFile.pc hregs

theorem sees_spOf (hregs : standing s.kernel tid = some regs) :
    Ends (spOf tid) s (Sees tid regs regs.sp) :=
  sees_register RegisterFile.sp hregs

/-- A thread stands where it was moved to. -/
theorem standing_setPc (hregs : standing s.kernel tid = some regs) (pc : UInt64) :
    Ends (setPc tid pc) s fun r t => r = .ok () → standing t.kernel tid = some (regs.set .rip pc) := by
  refine (sees_registersOf hregs).bind ?_ fun e t _ h => by cases h
  rintro read t ⟨hread, hkept⟩
  cases hread read rfl
  rw [ends_require]
  intro hok
  rcases hanswer : (Kernel.perform (.setRegisters tid (regs.set .rip pc)) t.kernel).1 with e | ⟨⟩
  · rw [hanswer] at hok
    cases hok
  · exact KeepsRegisters.standing_setRegisters t.kernel tid regs _ hkept hanswer

theorem standing_cancelPlan (hregs : standing s.kernel tid = some regs) :
    Ends cancelPlan s fun _ t => standing t.kernel tid = some regs := by
  rw [cancelPlan, ends_tracer_bind]
  split
  · exact hregs
  · rw [modifyProcess, ends_modifyTracer_bind]
    split
    · rw [ends_bind, ends_attemptPatching]
      exact (Patching.moves_removePlanned (P := Patched.Stands) _ _ _).mono
        fun _ _ h => h.kept tid regs hregs
    · exact hregs

end Reads

/-! ### Reports -/

variable {s t : System (Logged κ)} {p : Process}

omit [KeepsRegisters κ] in
/-- A call is granted where none is refused. -/
theorem served_attempt (c : SystemCall) (s : System (Logged κ)) : Ends (attempt c) s fun r t =>
    s.kernel.log <+: t.kernel.log ∧ (Serves s t → ∃ a, r = .ok (.ok a) ∧
      (Kernel.perform c s.kernel).1 = .ok a ∧
        t = { s with kernel := (Kernel.perform c s.kernel).2 }) := by
  refine ⟨List.prefix_append _ _, fun hserves => ?_⟩
  obtain ⟨new, hnew, hok⟩ := hserves.granted
  cases List.append_cancel_left ((log_perform c s.kernel).symm.trans hnew)
  have hgranted := hok _ List.mem_cons_self
  rcases hanswer : (Kernel.perform c s.kernel).1 with e | a
  · rw [hanswer] at hgranted
    cases hgranted
  · exact ⟨a, congrArg Except.ok hanswer, rfl, rfl⟩

end Tracing

/-- A stop is published as the last thing. -/
structure Shows (stop : StopInfo) (s s' : System κ) : Prop where
  stop : s'.tracer.snapshot.stop = some stop
  state : s'.tracer.snapshot.state = .stopped
  events : ∃ es, s'.tracer.events = s.tracer.events ++ es ++ [.stateChanged .stopped] ∧
    .stateChanged .stopped ∉ es

namespace Tracing

variable {s t : System (Logged κ)} {p : Process} [Kernel.Lawful κ]

/-- The stop of a thread that stands still is published with its program counter. -/
theorem serves_reportStop (stop : Stop) {plan : Option StepPlan} (hp : s.tracer.process = some p)
    (hpoised : Poised stop.tid plan p) : Ends (reportStop stop) s fun r s' => Serves s s' →
      r = .ok () ∧ ∃ pc, Shows ⟨stop.tid, pc, stop.reason⟩ s s' ∧
        ∀ regs, standing s.kernel stop.tid = some regs → pc = regs.pc := by
  have hstop : Ends stopAll s fun r t => Goes s (fun _ new p' =>
      StopsThreads s.tracer.breakpoints p.runningThreads p new p') r t ∧
        ((r = .ok () → ∀ p', t.tracer.process = some p' → p'.isRunning = false) ∧ Traces s t) :=
    (goes_stopAll hp).and (((halted_stopAll s).mono fun _ _ h => h.2).and (moves_stopAll s))
  rw [reportStop_eq]
  refine Goes.serve_and hstop (fun _ => moves_hasProcess.bind fun present => ?_) ?_
  · split
    · refine (moves_noteStop stop moves_cancelPlan ?_ fun _ => moves_modifySnapshot _).bind ?_
      · exact moves_noteProcess (fun _ => rfl) fun _ => rfl
      · exact fun _ => moves_publish _
    · exact Moves.pure _
  rintro _ stops p₁ t hstops hlog ht ⟨hhalted, htraces⟩
  have hp₁ : t.tracer.process = some p₁ := by rw [ht]; rfl
  have hkept : ∀ regs, standing s.kernel stop.tid = some regs → standing t.kernel stop.tid = some regs :=
    fun regs => htraces.stands hlog (hstops.beside hpoised.halted hpoised).2
  rw [hasProcess, bind_assoc, ends_tracer_bind, pure_bind, hp₁, Option.isSome_some, if_pos rfl, noteStop]
  simp only [bind_assoc]
  rw [← bind_assoc]
  have hshow : ∀ pc : UInt64, Moves Lengthens (do
      modifySnapshot fun s => { s with stop := some ⟨stop.tid, pc, stop.reason⟩ }
      syncModules : Tracing (Logged κ) Unit) :=
    fun _ => (moves_modifySnapshot _).bind fun _ => moves_syncModules
  have hcancel : Ends (do
      cancelPlan
      modifyProcess fun p => { p with interruptRequested := false }) t fun r u => r = .ok () ∧
        Lengthens t u ∧ u.tracer.events = t.tracer.events ∧
        ∀ regs, standing t.kernel stop.tid = some regs → standing u.kernel stop.tid = some regs := by
    have hstanding : Ends cancelPlan t fun _ u => ∀ regs, standing t.kernel stop.tid = some regs →
        standing u.kernel stop.tid = some regs := fun _ hregs => standing_cancelPlan hregs
    have hnote : Moves Lengthens (modifyProcess fun p => { p with interruptRequested := false } :
        Tracing (Logged κ) Unit) := moves_noteProcess (fun _ => rfl) fun _ => rfl
    refine (((ends_cancelPlan hp₁).and (moves_cancelPlan (R := Lengthens) t)).and hstanding).bind ?_ ?_
    · rintro _ u ⟨⟨⟨-, -, hevents, -⟩, hlengthens⟩, hstanding⟩
      exact ⟨rfl, StepRelation.trans hlengthens (hnote u), hevents, hstanding⟩
    · rintro e u ⟨⟨⟨⟨⟩, -⟩, -⟩, -⟩
  refine serves_bind (hcancel.mono fun r u h => ⟨h.2.1.log, fun _ => h⟩) (fun _ => ?_) ?_
    fun e u h => by cases h.1
  · refine (moves_probe rfl).bind fun answer => Moves.bind ?_ fun _ => moves_publish _
    split
    · exact (Moves.pure _).bind hshow
    · exact (Moves.pure _).bind hshow
  rintro _ u ⟨-, hlengthens, hevents, hkept'⟩
  refine serves_bind (served_attempt (.getRegisters stop.tid) u) (fun answer => ?_) ?_
    fun e v h => by obtain ⟨_, ⟨⟩, -⟩ := h
  · refine Moves.bind ?_ fun _ => moves_publish _
    split
    · exact (Moves.pure _).bind hshow
    · exact (Moves.pure _).bind hshow
  rintro _ _ ⟨regs, ⟨⟩, hread, rfl⟩
  dsimp only
  rw [pure_bind, modifySnapshot, bind_assoc, ends_modifyTracer_bind]
  refine (ends_syncModules _).bind_eq ?_
  rintro v ⟨⟨es, hes, hnot⟩, -, hsnapshot, -⟩ -
  refine ⟨rfl, regs.pc, ⟨congrArg Snapshot.stop hsnapshot, rfl, es, ?_, hnot⟩, fun regs' hregs' => ?_⟩
  · show v.tracer.events ++ [_] = _
    rw [hes]
    show u.tracer.events ++ es ++ [_] = _
    rw [hevents, ht]
    rfl
  · have hstanding : standing u.kernel stop.tid = some regs' := hkept' regs' (hkept regs' hregs')
    rw [KeepsRegisters.getRegisters_answer u.kernel stop.tid regs' regs hstanding hread]

end Tracing

end Tracer

end DebugAdapter
