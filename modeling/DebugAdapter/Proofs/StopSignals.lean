import DebugAdapter.Proofs.SignalRuns

/-!
# Stop signals

A tracer stops threads by signals, which may arrive late: behind another signal, a breakpoint or an
event, after the tracer has let the thread go on again. It expects those that it sent and did not see
yet. One that it expects is passed over wherever it arrives (`PassesOver`): among the statuses that
are polled for, in a step, or while the process is stopped as a whole.

Main statement: `stopSignals_of_run`.
-/

namespace DebugAdapter.Tracer

open Debuggee
open Linux
open Operation

section Arrivals

variable {κ : Type} {tid : Nat} {s s' : System κ} {t : Thread}

/-- Neither an event is sent nor the snapshot changed. -/
structure Unshown (s s' : System κ) : Prop where
  events : s'.tracer.events = s.tracer.events
  snapshot : s'.tracer.snapshot = s.tracer.snapshot

/-- The system once a stop signal of a thread is counted as seen. -/
def System.counted (tid : Nat) (s : System κ) : System κ :=
  { s with tracer := { s.tracer with
      process := s.tracer.process.map fun p =>
        p.modifyThread tid fun t => { t with expectedStops := t.expectedStops - 1 } } }

/-- The system once a thread is known to have stopped. -/
def System.halted (tid : Nat) (s : System κ) : System κ :=
  { s with tracer := { s.tracer with
      process := s.tracer.process.map fun p =>
        p.modifyThread tid fun t => { t with running := false } } }

variable [Kernel κ]

/-- The arrival of a stop signal of a thread is not published. -/
structure PassesOver (tid : Nat) (s : System κ) : Prop where
  /-- If it was polled for and nobody asked for a stop, the thread goes on. -/
  polled : s.tracer.process.any (·.interruptRequested) = false →
    (∀ Q, Ends (Tracing.handle (.stopped tid .stop)) s Q
      ↔ Ends (Tracing.continueThread tid) ((s.halted tid).counted tid) Q) ∧
    Ends (Tracing.handle (.stopped tid .stop)) s fun _ s' => Unshown s s'
  /-- In a step, the step starts again. -/
  stepping : ∀ u, Ends (Tracing.judgeStep tid (.stopped u .stop)) s fun r s' =>
    r = .ok (some none) ∧ s' = s.counted tid
  /-- While the process is stopped, the thread stays stopped. -/
  stopping : ∀ u, Ends (Tracing.settle tid (.stopped u .stop)) s fun r s' =>
    r = .ok (some true) ∧ s' = s.counted tid

omit [Kernel κ] in
theorem Process.thread?_modifyThread {p : Process} {f : Thread → Thread}
    (hf : ∀ t, (f t).tid = t.tid) (ht : p.thread? tid = some t) :
    (p.modifyThread tid f).thread? tid = some (f t) := by
  have htid : (t.tid == tid) = true := List.find?_some (p := fun v : Thread => v.tid == tid) ht
  have hkeeps : ((fun v : Thread => v.tid == tid) ∘ fun v => if v.tid = tid then f v else v)
      = fun v => v.tid == tid := by
    funext v
    show ((if v.tid = tid then f v else v).tid == tid) = (v.tid == tid)
    split
    · rw [hf]
    · rfl
  rw [thread?, modifyThread, List.find?_map, hkeeps]
  show (p.thread? tid).map _ = _
  rw [ht, Option.map_some, if_pos (eq_of_beq htid)]

namespace Tracing

omit [Kernel κ] in
/-- A stop signal that is expected is counted. -/
theorem ends_consumeStop (ht : s.tracer.process.bind (·.thread? tid) = some t)
    (hexpected : 0 < t.expectedStops) (Q : Except DebugError Bool → System κ → Prop) :
    Ends (consumeStop tid) s Q ↔ Q (.ok true) (s.counted tid) := by
  rw [consumeStop, expectedStops, bind_assoc, ends_tracer_bind, pure_bind, ht]
  dsimp only [Option.map_some, Option.getD_some]
  rw [if_neg (Nat.ne_of_gt hexpected)]
  exact Iff.rfl

theorem unshown_continueThread (tid : Nat) (s : System κ) :
    Ends (continueThread tid) s fun _ s' => Unshown s s' := by
  rw [continueThread, ends_tracer_bind]
  dsimp only
  split
  · rw [takeSignal, bind_assoc, ends_tracer_bind, modifyThread, modifyProcess, bind_assoc,
      ends_modifyTracer_bind, pure_bind, ends_attempt_bind]
    split
    · exact ⟨rfl, rfl⟩
    · exact ⟨rfl, rfl⟩
    · exact ⟨rfl, rfl⟩
  · exact ⟨rfl, rfl⟩

omit [Kernel κ] in
theorem thread?_halted (ht : s.tracer.process.bind (·.thread? tid) = some t) :
    (s.halted tid).tracer.process.bind (·.thread? tid) = some { t with running := false } := by
  obtain ⟨p, hp, hfind⟩ := Option.bind_eq_some_iff.mp ht
  show (s.tracer.process.map _).bind _ = _
  rw [hp, Option.map_some, Option.bind_some]
  exact Process.thread?_modifyThread (fun _ => rfl) hfind

/-- A stop signal that is expected, and that nobody asked for, lets the thread go on. -/
theorem ends_stopSignalSeen (ht : s.tracer.process.bind (·.thread? tid) = some t)
    (hexpected : 0 < t.expectedStops)
    (hrequested : s.tracer.process.any (·.interruptRequested) = false)
    (Q : Except DebugError Unit → System κ → Prop) :
    Ends (stopSignalSeen tid) s Q
      ↔ Ends (continueThread tid) ((s.halted tid).counted tid) Q := by
  obtain ⟨p, hp, hfind⟩ := Option.bind_eq_some_iff.mp ht
  have hknown : s.tracer.process.any (·.hasThread tid) = true := by
    rw [hp]
    exact List.any_eq_true.mpr ⟨t, List.mem_of_find?_eq_some hfind,
      List.find?_some (p := fun v : Thread => v.tid == tid) hfind⟩
  have hhalted : (s.halted tid).tracer.process
      = some (p.modifyThread tid fun t => { t with running := false }) := by
    show s.tracer.process.map _ = _
    rw [hp]
    rfl
  have hnobody : p.interruptRequested = false := by
    rwa [hp] at hrequested
  rw [stopSignalSeen, ends_tracer_bind]
  dsimp only
  rw [hknown, if_neg (by decide), markStopped, modifyThread, modifyProcess, ends_modifyTracer_bind]
  show Ends _ (s.halted tid) _ ↔ _
  rw [ends_process_bind hhalted, ends_bind, ends_consumeStop (thread?_halted ht) hexpected]
  show Ends (ite ((true && !p.interruptRequested) = true) _ _) _ _ ↔ _
  rw [hnobody, if_pos (by rfl)]

theorem passesOver (ht : s.tracer.process.bind (·.thread? tid) = some t)
    (hexpected : 0 < t.expectedStops) : PassesOver tid s := by
  refine ⟨fun hrequested => ?_, fun u => ?_, fun u => ?_⟩
  · have hgoes := ends_stopSignalSeen ht hexpected hrequested
    refine ⟨hgoes, (hgoes _).mpr ?_⟩
    exact (unshown_continueThread tid ((s.halted tid).counted tid)).mono fun _ _ h =>
      ⟨h.events, h.snapshot⟩
  · rw [judgeStep.eq_def]
    show Ends (consumeStop tid >>= _) s _
    rw [ends_bind, ends_consumeStop ht hexpected]
    exact ⟨rfl, rfl⟩
  · rw [settle.eq_def]
    show Ends (consumeStop tid >>= _) s _
    rw [ends_bind, ends_consumeStop ht hexpected]
    exact ⟨rfl, rfl⟩

end Tracing

end Arrivals

/-- The tracer knows of each stop signal of its own. Along every run, what a thread is expected to be
stopped by is what was sent to it, since it is known or had a new image, and was not seen yet; no
thread is let go on with a stop signal; and wherever one arrives that is expected it is passed over. -/
theorem stopSignals_of_run {κ : Type} [Kernel κ] {s : System (Audited κ)} (h : Run s) :
    (∀ t ∈ s.threads, t.expectedStops + (s.kernel.ledger.account t.tid).seen
      = (s.kernel.ledger.account t.tid).sent) ∧
    s.kernel.ledger.clean = true ∧
    ∀ (u : System (Audited κ)) (tid : Nat) (t : Thread),
      u.tracer.process.bind (·.thread? tid) = some t → 0 < t.expectedStops → PassesOver tid u := by
  have hbalanced := balanced_of_run h
  exact ⟨fun t ht => (hbalanced.agrees t ht).stops, hbalanced.clean,
    fun u tid t ht hexpected => Tracing.passesOver ht hexpected⟩

/-- The second thread is found stopped by a signal of its own while the process is stopped, so that the
stop signal that was sent to it is still expected; its arrival shows nothing. -/
theorem stopSignals_nursed :
    Run (nursed [.event 1 WaitStatus.cloneEvent, .stopped 1 .usr1]) ∧
    (⟨2, false, some .usr1, 1⟩ : Thread)
      ∈ (nursed [.event 1 WaitStatus.cloneEvent, .stopped 1 .usr1]).threads ∧
    ((nursed [.event 1 WaitStatus.cloneEvent, .stopped 1 .usr1]).kernel.ledger.account 2).sent
      = 1 + ((nursed [.event 1 WaitStatus.cloneEvent,
          .stopped 1 .usr1]).kernel.ledger.account 2).seen ∧
    Ends (Tracing.handle (.stopped 2 .stop))
      (nursed [.event 1 WaitStatus.cloneEvent, .stopped 1 .usr1]) fun _ s' =>
        Unshown (nursed [.event 1 WaitStatus.cloneEvent, .stopped 1 .usr1]) s' := by
  have hmem : (⟨2, false, some .usr1, 1⟩ : Thread)
      ∈ (nursed [.event 1 WaitStatus.cloneEvent, .stopped 1 .usr1]).threads := by
    decide +kernel
  obtain ⟨hstops, -, hpasses⟩ := stopSignals_of_run
    (run_nursed [.event 1 WaitStatus.cloneEvent, .stopped 1 .usr1])
  refine ⟨run_nursed _, hmem, (hstops _ hmem).symm, ?_⟩
  exact ((hpasses _ 2 ⟨2, false, some .usr1, 1⟩ (by decide +kernel) (by decide)).polled
    (by decide +kernel)).2

end DebugAdapter.Tracer
