import DebugAdapter.Engine.Traced
import DebugAdapter.Proofs.Puppet
import DebugAdapter.Proofs.Renditions

/-!
# Output on its way to the frontend

A process writes to two streams. A pump for each adds what it reads to the buffer of the stream, and
announces it by an event; the notifier of the target takes the events one by one, and for each it
reads a limited number of chunks. All three run at the same time, so the handling of an event may take
bytes that are announced later, and may leave bytes behind.

`Piped` is a tracing engine whose pumps go on before each call of the notifier, by any plan, so that
the notifier of the program runs over it as it is. `OutputRun` is any run of such an engine with its
notifier. The bytes that wait are bounded by the announcements to come and by the reads that are left
for the event at hand (`Sound.bound`): this is why nothing stays behind.

Main statement: `output_intact`.
-/

namespace DebugAdapter

open Debuggee
open Linux (Kernel)

namespace Engine.Traced

variable {κ : Type}

/-- The output of a target that was not read yet. -/
def buffered (e : Engine κ) (t : Handle) : ProcessOutput :=
  match e.targets[t]? with
  | some target => target.state.output
  | none => .empty

/-- Changes the output of a target. -/
def rebuffer (f : ProcessOutput → ProcessOutput) (e : Engine κ) (t : Handle) : Engine κ :=
  match e.targets[t]? with
  | some target =>
    let state := { target.state with output := f target.state.output }
    { e with targets := e.targets.set t { target with state } }
  | none => e

variable {e : Engine κ} {t : Handle}

theorem length_rebuffer (f : ProcessOutput → ProcessOutput) (e : Engine κ) (t : Handle) :
    (rebuffer f e t).targets.length = e.targets.length := by
  rw [rebuffer]
  split
  · exact List.length_set
  · rfl

theorem buffered_rebuffer (h : t < e.targets.length) (f : ProcessOutput → ProcessOutput) :
    buffered (rebuffer f e t) t = f (buffered e t) := by
  simp [rebuffer, buffered, h]

/-- To read output is to take it from its buffer. -/
theorem perform_read [Kernel κ] (h : t < e.targets.length) (n : Nat) :
    DebugEngine.perform (.request t (.readStdout n)) e =
        (.ok ((buffered e t).take .stdout n).1, rebuffer (fun o => (o.take .stdout n).2) e t) ∧
      DebugEngine.perform (.request t (.readStderr n)) e =
        (.ok ((buffered e t).take .stderr n).1, rebuffer (fun o => (o.take .stderr n).2) e t) := by
  have htarget := List.getElem?_eq_getElem h
  constructor
  all_goals
    show e.answer t _ = _
    simp only [Engine.answer, Engine.onTarget, buffered, rebuffer, htarget]
    rfl

/-! ### Pumps -/

/-- The most bytes that a pump reads at once. -/
def pumpLimit : Nat := 4096

/-- What happens while a notifier works: a pump adds a chunk to its buffer, a pump announces one, or
another event is sent. -/
inductive PumpStep where
  | push (s : OutputStream) (chunk : Bytes)
  | announce (s : OutputStream)
  | send (event : Event)

/-- A pump pushes no more than it can read at once. -/
def PumpStep.Small : PumpStep → Prop
  | push _ chunk => chunk.length ≤ pumpLimit
  | announce _ | send _ => True

instance (x : PumpStep) : Decidable x.Small :=
  match x with
  | .push _ chunk => inferInstanceAs (Decidable (chunk.length ≤ pumpLimit))
  | .announce _ | .send _ => inferInstanceAs (Decidable True)

/-- What went through a pump. -/
structure Pipe where
  /-- All bytes that were pushed. -/
  pushed : Bytes
  /-- How many chunks were pushed and not announced yet. -/
  unannounced : Nat
  /-- The most bytes that had to wait at once. -/
  peak : Nat

/-- An engine whose pumps go on by a plan before each call, for each call one part of it. -/
structure Piped (κ : Type) where
  engine : Engine κ
  target : Handle
  plan : List (List PumpStep)
  /-- The events that the notifier has not taken yet. -/
  queue : List Event
  pipe : OutputStream → Pipe

namespace Piped

/-- What waits on a stream. -/
def unread (p : Piped κ) (s : OutputStream) : Bytes :=
  (buffered p.engine p.target).unread s

/-- The output of the target changes. -/
def onOutput (p : Piped κ) (f : ProcessOutput → ProcessOutput) : Piped κ :=
  { p with engine := rebuffer f p.engine p.target }

/-- A pump goes on. Only a chunk that was pushed is announced. -/
def step (p : Piped κ) : PumpStep → Piped κ
  | .push s chunk =>
    let q := p.pipe s
    { p.onOutput (·.push s chunk) with
      pipe := Function.update p.pipe s ⟨q.pushed ++ chunk, q.unannounced + 1,
        max q.peak (p.unread s ++ chunk).length⟩ }
  | .announce s =>
    match (p.pipe s).unannounced with
    | 0 => p
    | n + 1 =>
      { p with
        queue := p.queue ++ [s.event]
        pipe := Function.update p.pipe s { p.pipe s with unannounced := n } }
  | .send event => { p with queue := p.queue ++ [event] }

/-- The pumps go on by the next part of the plan. -/
def advance (p : Piped κ) : Piped κ :=
  match p.plan with
  | [] => p
  | batch :: plan => batch.foldl step { p with plan }

/-- The notifier takes an event, and the pumps go on by a plan while it handles it. -/
def pop (p : Piped κ) (rest : List Event) (plan : List (List PumpStep)) : Piped κ :=
  { p with queue := rest, plan }

/-- The announcements of a stream that the notifier has not taken yet. -/
def announcements (p : Piped κ) (s : OutputStream) : Nat :=
  p.queue.count s.event + (p.pipe s).unannounced

/-- To push a chunk and to announce it is to receive it. -/
theorem step_receive (p : Piped κ) (s : OutputStream) {chunk : Bytes} (h : chunk ≠ []) :
    ((p.step (.push s chunk)).step (.announce s)).engine =
        rebuffer (fun o => (o.receive s chunk).1) p.engine p.target ∧
      ((p.step (.push s chunk)).step (.announce s)).queue =
        p.queue ++ ((buffered p.engine p.target).receive s chunk).2 := by
  simp [step, onOutput, ProcessOutput.receive, h]

/-- No output was pushed yet. -/
structure Fresh (t : Handle) (p : Piped κ) : Prop where
  target : p.target = t
  live : p.target < p.engine.targets.length
  unread : ∀ s, p.unread s = []
  pipe : ∀ s, p.pipe s = ⟨[], 0, 0⟩
  plan : p.plan = []

end Piped

instance [Kernel κ] : DebugEngine (Piped κ) where
  capabilities p := DebugEngine.capabilities p.engine
  perform c p :=
    let (answer, engine) := DebugEngine.perform c p.advance.engine
    (answer, { p.advance with engine })
  observe t q p :=
    let (answer, engine) := DebugEngine.observe t q p.advance.engine
    (answer, { p.advance with engine })

/-! ### What is kept on the way -/

/-- The notifier handles no event. -/
def noSpare : OutputStream → Nat := fun _ => 0

/-- What holds of an engine with its pumps: all that was pushed to a stream was told, is lost, or
waits; and what waits is bounded by the announcements, apart from what the notifier is still going to
read for the event at hand. -/
structure Sound (t : Handle) (big : Prop) (p : Piped κ) (told : OutputStream → List Bytes)
    (spare : OutputStream → Nat) : Prop where
  target : p.target = t
  live : t < p.engine.targets.length
  small : ∀ batch ∈ p.plan, ∀ x ∈ batch, x.Small
  flow : ∀ s, ∃ left, Flow OutputBuffer.limit (p.pipe s).pushed left (p.unread s) ∧
    left.filterMap Leaving.told? = told s ∧
    ((p.pipe s).peak ≤ OutputBuffer.limit → Leaving.Intact left)
  bound : big → ∀ s, (p.unread s).length ≤ pumpLimit * p.announcements s + spare s

section Sound

variable {big : Prop} {p : Piped κ} {told : OutputStream → List Bytes} {spare : OutputStream → Nat}

theorem unread_onOutput (h : p.target < p.engine.targets.length) (f : ProcessOutput → ProcessOutput)
    (s : OutputStream) :
    (p.onOutput f).unread s = (f (buffered p.engine p.target)).unread s := by
  rw [Piped.unread, Piped.onOutput, buffered_rebuffer h]

/-- A chunk waits from now on, and is going to be announced. -/
theorem Sound.push (h : Sound t big p told spare) (s : OutputStream) {chunk : Bytes}
    (hsmall : chunk.length ≤ pumpLimit) : Sound t big (p.step (.push s chunk)) told spare := by
  have hlive : p.target < p.engine.targets.length := h.target ▸ h.live
  have hunread : ∀ u, (p.step (.push s chunk)).unread u =
      ((buffered p.engine p.target).push s chunk).unread u := unread_onOutput hlive _
  have hself : (p.step (.push s chunk)).unread s = (p.unread s ++ chunk).drop
      ((p.unread s ++ chunk).length - OutputBuffer.limit) := by
    rw [hunread, ProcessOutput.unread_push_self, Piped.unread]
  have hother : ∀ u, u ≠ s → (p.step (.push s chunk)).unread u = p.unread u := by
    intro u hu
    rw [hunread, ProcessOutput.unread_push_other _ s hu, Piped.unread]
  have hpipe : (p.step (.push s chunk)).pipe = Function.update p.pipe s
      ⟨(p.pipe s).pushed ++ chunk, (p.pipe s).unannounced + 1,
        max (p.pipe s).peak (p.unread s ++ chunk).length⟩ := rfl
  refine ⟨h.target, ?live, h.small, fun u => ?flow, fun hbig u => ?bound⟩
  case live => exact (length_rebuffer _ _ _).symm ▸ h.live
  case flow =>
    obtain ⟨left, hflow, htold, hintact⟩ := h.flow u
    by_cases hu : u = s
    · subst hu
      obtain ⟨left', hflow', htold', hintact'⟩ := hflow.push chunk
      refine ⟨left', ?_, htold'.trans htold, fun hpeak => ?_⟩
      · rwa [hself, hpipe, Function.update_self]
      · rw [hpipe, Function.update_self, Nat.max_le] at hpeak
        exact hintact' hpeak.2 (hintact hpeak.1)
    · rw [hother u hu, hpipe, Function.update_of_ne hu]
      exact ⟨left, hflow, htold, hintact⟩
  case bound =>
    have hbound := h.bound hbig u
    rw [Piped.announcements] at hbound ⊢
    by_cases hu : u = s
    · subst hu
      rw [hself, hpipe, Function.update_self, List.length_drop, List.length_append]
      show _ ≤ pumpLimit * (p.queue.count u.event + ((p.pipe u).unannounced + 1)) + spare u
      rw [← Nat.add_assoc, Nat.mul_succ]
      omega
    · rw [hother u hu, hpipe, Function.update_of_ne hu]
      exact hbound

theorem count_event (queue : List Event) (s u : OutputStream) :
    (queue ++ [s.event]).count u.event = queue.count u.event + if u = s then 1 else 0 := by
  rw [List.count_append, List.count_singleton]
  cases s <;> cases u <;> rfl

/-- A chunk was announced: what was to be announced is in the queue now. -/
theorem Sound.announce (h : Sound t big p told spare) (s : OutputStream) :
    Sound t big (p.step (.announce s)) told spare := by
  rw [Piped.step]
  split
  · exact h
  · rename_i n hn
    have hpipe : ∀ u, (Function.update p.pipe s { p.pipe s with unannounced := n } u).pushed =
          (p.pipe u).pushed ∧
        (Function.update p.pipe s { p.pipe s with unannounced := n } u).peak = (p.pipe u).peak := by
      intro u
      by_cases hu : u = s
      · subst hu
        rw [Function.update_self]
        exact ⟨rfl, rfl⟩
      · rw [Function.update_of_ne hu]
        exact ⟨rfl, rfl⟩
    refine ⟨h.target, h.live, h.small, fun u => ?flow, fun hbig u => ?bound⟩
    case flow =>
      obtain ⟨hpushed, hpeak⟩ := hpipe u
      obtain ⟨left, hflow, htold, hintact⟩ := h.flow u
      exact ⟨left, hpushed.symm ▸ hflow, htold, fun hle => hintact (hpeak ▸ hle)⟩
    case bound =>
      have hbound := h.bound hbig u
      rw [Piped.announcements] at hbound ⊢
      dsimp only
      rw [count_event]
      by_cases hu : u = s
      · subst hu
        rw [hn] at hbound
        rw [Function.update_self, if_pos rfl]
        rwa [Nat.add_assoc, Nat.add_comm 1 n]
      · rwa [Function.update_of_ne hu, if_neg hu]

theorem Sound.send (h : Sound t big p told spare) (event : Event) :
    Sound t big (p.step (.send event)) told spare := by
  refine ⟨h.target, h.live, h.small, h.flow, fun hbig s => (h.bound hbig s).trans ?_⟩
  refine Nat.add_le_add_right (Nat.mul_le_mul_left _ (Nat.add_le_add_right ?_ _)) _
  exact List.Sublist.count_le _ (List.sublist_append_left _ _)

theorem Sound.step (h : Sound t big p told spare) {x : PumpStep} (hx : x.Small) :
    Sound t big (p.step x) told spare := by
  cases x with
  | push s chunk => exact h.push s hx
  | announce s => exact h.announce s
  | send event => exact h.send event

theorem Sound.advance (h : Sound t big p told spare) : Sound t big p.advance told spare := by
  rw [Piped.advance]
  split
  · exact h
  · rename_i batch plan hplan
    have hsmall := h.small
    rw [hplan, List.forall_mem_cons] at hsmall
    have hstart : Sound t big { p with plan } told spare :=
      ⟨h.target, h.live, hsmall.2, h.flow, h.bound⟩
    exact List.foldlRecOn (motive := fun q => Sound t big q told spare) batch Piped.step hstart
      fun q hq x hx => hq.step (hsmall.1 x hx)

/-- What waits after a stream was read. -/
theorem unread_take (h : p.target < p.engine.targets.length) (s : OutputStream) (n : Nat) :
    (p.onOutput fun o => (o.take s n).2).unread s = (p.unread s).drop n ∧
      ∀ u, u ≠ s → (p.onOutput fun o => (o.take s n).2).unread u = p.unread u := by
  constructor
  · rw [unread_onOutput h, ProcessOutput.unread_take_self, Piped.unread]
  · intro u hu
    rw [unread_onOutput h, ProcessOutput.unread_take_other _ s hu, Piped.unread]

/-- Nothing waits on a stream when it is read, so the notifier is done with it. -/
theorem Sound.takeNothing (h : Sound t big p told spare) {s : OutputStream} (hs : p.unread s = [])
    (n : Nat) : Sound t big (p.onOutput fun o => (o.take s n).2) told (Function.update spare s 0) := by
  obtain ⟨hself, hother⟩ := unread_take (h.target ▸ h.live : p.target < _) s n
  have hsame : ∀ u, (p.onOutput fun o => (o.take s n).2).unread u = p.unread u := by
    intro u
    by_cases hu : u = s
    · subst hu
      rw [hself, hs, List.drop_nil]
    · exact hother u hu
  refine ⟨h.target, (length_rebuffer _ _ _).symm ▸ h.live, h.small, fun u => ?flow,
    fun hbig u => ?bound⟩
  case flow =>
    rw [hsame]
    exact h.flow u
  case bound =>
    rw [hsame]
    by_cases hu : u = s
    · subst hu
      rw [hs]
      exact Nat.zero_le _
    · rw [Function.update_of_ne hu]
      exact h.bound hbig u

/-- A part of what waits on a stream is read and told. -/
theorem Sound.take (h : Sound t big p told spare) {s : OutputStream} (hs : p.unread s ≠ [])
    {n : Nat} (hn : 0 < n) {k : Nat} (hspare : spare s = n * (k + 1)) :
    Sound t big (p.onOutput fun o => (o.take s n).2)
      (Function.update told s (told s ++ [(p.unread s).take n]))
      (Function.update spare s (n * k)) := by
  obtain ⟨hself, hother⟩ := unread_take (h.target ▸ h.live : p.target < _) s n
  refine ⟨h.target, (length_rebuffer _ _ _).symm ▸ h.live, h.small, fun u => ?flow,
    fun hbig u => ?bound⟩
  case flow =>
    obtain ⟨left, hflow, htold, hintact⟩ := h.flow u
    by_cases hu : u = s
    · subst hu
      refine ⟨left ++ [.told ((p.unread u).take n)], ?_, ?_, fun hpeak => ?_⟩
      · rw [hself]
        exact hflow.take hn hs
      · rw [List.filterMap_append, htold, Function.update_self]
        rfl
      · intro x hx
        rcases List.mem_append.mp hx with hx | hx
        · exact hintact hpeak x hx
        · exact ⟨_, List.mem_singleton.mp hx⟩
    · rw [hother u hu, Function.update_of_ne hu]
      exact ⟨left, hflow, htold, hintact⟩
  case bound =>
    have hbound := h.bound hbig u
    by_cases hu : u = s
    · subst hu
      rw [hspare, Nat.mul_succ] at hbound
      rw [hself, Function.update_self, List.length_drop]
      show _ ≤ pumpLimit * p.announcements u + n * k
      omega
    · rw [hother u hu, Function.update_of_ne hu]
      exact hbound

/-- The engine goes on with other things than the output of the target. -/
theorem Sound.work (h : Sound t big p told spare) {engine : Engine κ}
    (hlive : t < engine.targets.length) (houtput : buffered engine t = buffered p.engine t) :
    Sound t big { p with engine } told spare := by
  have hunread : ∀ s, ({ p with engine } : Piped κ).unread s = p.unread s := by
    intro s
    rw [Piped.unread, Piped.unread, h.target, houtput]
  refine ⟨h.target, hlive, h.small, fun s => ?_, fun hbig s => ?_⟩
  · rw [hunread]
    exact h.flow s
  · rw [hunread]
    exact h.bound hbig s

/-- What is bounded by less is bounded by more. -/
theorem Sound.weaken (h : Sound t big p told spare) {spare' : OutputStream → Nat}
    (hspare : big → ∀ s, spare s ≤ spare' s) : Sound t big p told spare' :=
  ⟨h.target, h.live, h.small, h.flow, fun hbig s =>
    (h.bound hbig s).trans (Nat.add_le_add_left (hspare hbig s) _)⟩

/-- The notifier takes an event, and is going to read what it announces. -/
theorem Sound.pop (h : Sound t big p told noSpare) {event : Event} {rest : List Event}
    (hqueue : p.queue = event :: rest) {plan : List (List PumpStep)}
    (hplan : ∀ batch ∈ plan, ∀ x ∈ batch, x.Small) :
    Sound t big (p.pop rest plan) told fun s =>
      if event = s.event then pumpLimit else 0 := by
  refine ⟨h.target, h.live, hplan, h.flow, fun hbig s => ?_⟩
  have hbound := h.bound hbig s
  rw [Piped.announcements, hqueue, List.count_cons] at hbound
  show _ ≤ pumpLimit * (rest.count s.event + (p.pipe s).unannounced) + _
  refine hbound.trans (Nat.le_of_eq ?_)
  by_cases hevent : event = s.event
  · rw [hevent, if_pos (beq_self_eq_true _), if_pos rfl, Nat.add_right_comm, Nat.mul_succ]
    rfl
  · rw [if_neg hevent, if_neg (by simpa using hevent), Nat.add_zero]
    rfl

/-! ### The handling of an event -/

variable [Kernel κ]

theorem perform_piped (c : Call) (p : Piped κ) :
    DebugEngine.perform c p = ((DebugEngine.perform c p.advance.engine).1,
      { p.advance with engine := (DebugEngine.perform c p.advance.engine).2 }) := rfl

/-- A request that reads at most `n` bytes of a stream: the pumps go on, and then the oldest bytes
that wait are taken. -/
def Reads (κ : Type) [Kernel κ] (t : Handle) (read : Request) (data? : read.Answer → Bytes)
    (s : OutputStream) (n : Nat) : Prop :=
  ∀ p : Piped κ, p.advance.target = t → t < p.advance.engine.targets.length →
    ∃ answer, DebugEngine.perform (.request t read) p =
        (.ok answer, p.advance.onOutput fun o => (o.take s n).2) ∧
      data? answer = (p.advance.unread s).take n

theorem reads_stdout (t : Handle) (n : Nat) : Reads κ t (.readStdout n) id .stdout n := by
  rintro p rfl hlive
  rw [perform_piped, (perform_read hlive n).1]
  exact ⟨_, rfl, ProcessOutput.take_fst _ .stdout n⟩

theorem reads_stderr (t : Handle) (n : Nat) : Reads κ t (.readStderr n) id .stderr n := by
  rintro p rfl hlive
  rw [perform_piped, (perform_read hlive n).2]
  exact ⟨_, rfl, ProcessOutput.take_fst _ .stderr n⟩

/-- Chunks are read until nothing waits or the reads are used up. -/
theorem Sound.readChunks {read : Request} {data? : read.Answer → Bytes} {s : OutputStream} {n : Nat}
    (hread : Reads κ t read data? s n) (hn : 0 < n) (fuel : Nat) :
    ∀ {p : Piped κ} {told : OutputStream → List Bytes} {spare : OutputStream → Nat},
      Sound t big p told spare → spare s = n * fuel →
      ∃ chunks p', Session.readChunks t read data? fuel p = (chunks, true, p') ∧
        Sound t big p' (Function.update told s (told s ++ chunks)) (Function.update spare s 0) ∧
        ∀ data ∈ chunks, data.length ≤ n := by
  induction fuel with
  | zero =>
    intro p told spare h hspare
    refine ⟨[], p, rfl, ?_, List.forall_mem_nil _⟩
    have hsame : Function.update spare s 0 = spare := Function.update_eq_self_iff.mpr hspare.symm
    rwa [List.append_nil, Function.update_eq_self, hsame]
  | succ fuel ih =>
    intro p told spare h hspare
    have hadvance := h.advance
    obtain ⟨answer, hperform, hdata⟩ := hread p hadvance.target hadvance.live
    rw [Session.readChunks, hperform]
    dsimp only
    rw [hdata]
    by_cases hunread : p.advance.unread s = []
    · rw [hunread, List.take_nil, List.isEmpty_nil, if_pos rfl]
      refine ⟨[], _, rfl, ?_, List.forall_mem_nil _⟩
      rw [List.append_nil, Function.update_eq_self]
      exact hadvance.takeNothing hunread n
    · have hdata : ((p.advance.unread s).take n).isEmpty = false := by
        simp [hunread, Nat.ne_of_gt hn]
      have htaken := hadvance.take hunread hn hspare
      obtain ⟨chunks, p', hrest, hsound, hlength⟩ := ih htaken (Function.update_self s _ spare)
      rw [hdata, if_neg Bool.false_ne_true, hrest]
      refine ⟨_, p', rfl, ?_, List.forall_mem_cons.mpr ⟨List.length_take_le _ _, hlength⟩⟩
      rwa [Function.update_idem, Function.update_idem, Function.update_self, List.append_assoc,
        List.singleton_append] at hsound

end Sound

end Engine.Traced

/-! ### What a notifier tells -/

namespace Session

open Engine.Traced
open Wire (Notification Outbox)

/-- The output of a stream that notifications tell. -/
def payloads (s : OutputStream) (ns : List Notification) : List Bytes :=
  ns.filterMap fun n => outputOf? s n.document

theorem payloads_append (s : OutputStream) (ns ms : List Notification) :
    payloads s (ns ++ ms) = payloads s ns ++ payloads s ms :=
  List.filterMap_append

theorem payloads_self (s : OutputStream) (chunks : List Bytes) :
    payloads s (chunks.map (outputNote s)) = chunks := by
  rw [payloads, List.filterMap_map]
  simp only [Function.comp_def, outputOf?_note, List.filterMap_some]

theorem payloads_other {s u : OutputStream} (h : u ≠ s) (chunks : List Bytes) :
    payloads u (chunks.map (outputNote s)) = [] := by
  rw [payloads, List.filterMap_map]
  simp only [Function.comp_def, outputOf?_other h, List.filterMap_none]

/-- Only an event of a stream tells its output. -/
theorem payloads_of_renders {s : OutputStream} {event : Event} {ns : List Notification}
    (h : Renders event ns) (hevent : event ≠ s.event) : payloads s ns = [] := by
  cases h with
  | @state q _ _ status _ => cases status <;> rfl
  | stopped stop => cases stop <;> rfl
  | output u _ _ => exact payloads_other (fun hsame => hevent (congrArg _ hsame.symm)) _
  | detached | loaded | unloaded => rfl

/-- What is told after chunks of a stream were told. -/
theorem told_update (told : OutputStream → List Bytes) (s : OutputStream) (chunks : List Bytes) :
    Function.update told s (told s ++ chunks) =
      fun u => told u ++ payloads u (chunks.map (outputNote s)) := by
  funext u
  by_cases hu : u = s
  · subst hu
    rw [Function.update_self, payloads_self]
  · rw [Function.update_of_ne hu, payloads_other hu, List.append_nil]

variable {κ : Type} [Kernel κ] {t : Handle} {chunk : Nat} {p : Piped κ}
  {told : OutputStream → List Bytes}

/-- A notifier handled an event: nothing broke down, what it read it told, and nothing is left for it
to read. -/
structure Handled (t : Handle) (chunk : Nat) (told : OutputStream → List Bytes)
    (r : Rendition (Piped κ)) : Prop where
  intact : r.intact = true
  sound : Sound t (64 ≤ chunk) r.engine (fun s => told s ++ payloads s r.notes) noSpare
  length : ∀ s, ∀ data ∈ payloads s r.notes, data.length ≤ max chunk 1

omit [Kernel κ] in
/-- An event about other things than output tells none. -/
theorem handled_silent {ns : List Notification} (hns : ∀ s, payloads s ns = [])
    (h : Sound t (64 ≤ chunk) p told noSpare) : Handled t chunk told ⟨ns, true, p⟩ where
  intact := rfl
  sound := by
    simp only [hns, List.append_nil]
    exact h
  length s := by
    rw [hns]
    exact List.forall_mem_nil _

/-- The handling of an event that announces output reads all that it may have announced, if the
notifier reads large chunks. -/
theorem handled_output (s : OutputStream) {read : Request} {data? : read.Answer → Bytes}
    (hread : Reads κ t read data? s (max chunk 1))
    (h : Sound t (64 ≤ chunk) p told fun u => if s.event = u.event then pumpLimit else 0) :
    Handled t chunk told
      (renderOutput (outputNote s) (readChunks t read data? maxChunksPerEvent p)) := by
  have hreads : Sound t (64 ≤ chunk) p told
      (Function.update noSpare s (max chunk 1 * maxChunksPerEvent)) := by
    refine h.weaken fun hbig u => ?_
    by_cases hu : u = s
    · subst hu
      rw [if_pos rfl, Function.update_self, maxChunksPerEvent, pumpLimit]
      omega
    · have hevent : s.event ≠ u.event := by
        cases s <;> cases u <;> first | exact absurd rfl hu | exact nofun
      rw [if_neg hevent]
      exact Nat.zero_le _
  obtain ⟨chunks, p', hchunks, hsound, hlength⟩ :=
    hreads.readChunks hread (Nat.le_max_right chunk 1) _ (Function.update_self s _ noSpare)
  have hnone : Function.update noSpare s 0 = noSpare := Function.update_eq_self s noSpare
  rw [Function.update_idem, hnone, told_update] at hsound
  rw [renderOutput, hchunks]
  refine ⟨rfl, hsound, fun u data hdata => ?_⟩
  by_cases hu : u = s
  · subst hu
    rw [payloads_self] at hdata
    exact hlength data hdata
  · rw [payloads_other hu] at hdata
    cases hdata

/-- Whatever the event is. -/
theorem handled_rendition (event : Event)
    (h : Sound t (64 ≤ chunk) p told fun s => if event = s.event then pumpLimit else 0) :
    Handled t chunk told (rendition t chunk event p) := by
  have hsilent : (∀ s : OutputStream, event ≠ s.event) →
      (∀ s, payloads s (rendition t chunk event p).notes = []) ∧
        Sound t (64 ≤ chunk) p told noSpare := fun hevent =>
    ⟨fun s => payloads_of_renders (renders_rendition t chunk event p) (hevent s),
      h.weaken fun _ s => Nat.le_of_eq (if_neg (hevent s))⟩
  cases event with
  | stdout => exact handled_output .stdout (reads_stdout t _) h
  | stderr => exact handled_output .stderr (reads_stderr t _) h
  | modulesLoaded ms | modulesUnloaded ms =>
    obtain ⟨hnotes, hsound⟩ := hsilent (by rintro (_ | _) <;> exact nofun)
    exact handled_silent hnotes hsound
  | stateChanged q =>
    obtain ⟨hnotes, hsound⟩ := hsilent (by rintro (_ | _) <;> exact nofun)
    -- The details of a stop or an exit are read from the engine, so the pumps go on.
    cases q with
    | stopped | exited => exact handled_silent hnotes hsound.advance
    | _ => exact handled_silent hnotes hsound

/-! ### Runs -/

/-- Any run of pumps, a tracer and a notifier, with the notifications of the events that were handled.
The notifier handles the events in their order while its messages can be written. -/
inductive OutputRun (t : Handle) (chunk : Nat) (o : Outbox) :
    Channel (Piped κ) → List Notification → Prop
  | start {p : Piped κ} (h : p.Fresh t) : OutputRun t chunk o ⟨p, o⟩ []
  | pump {c : Channel (Piped κ)} {ns : List Notification} (h : OutputRun t chunk o c ns)
      {x : PumpStep} (hx : x.Small) :
      OutputRun t chunk o { c with engine := c.engine.step x } ns
  /-- The engine goes on with other things than the output of the target. -/
  | work {c : Channel (Piped κ)} {ns : List Notification} (h : OutputRun t chunk o c ns)
      {engine : Engine κ} (hlive : t < engine.targets.length)
      (houtput : buffered engine t = buffered c.engine.engine t) :
      OutputRun t chunk o { c with engine := { c.engine with engine } } ns
  | handle {c : Channel (Piped κ)} {ns : List Notification} (h : OutputRun t chunk o c ns)
      {event : Event} {rest : List Event} (hqueue : c.engine.queue = event :: rest)
      {plan : List (List PumpStep)} (hplan : ∀ batch ∈ plan, ∀ x ∈ batch, x.Small)
      {c' : Channel (Piped κ)}
      (halive : Channel.translate t chunk event { c with engine := c.engine.pop rest plan } =
        (true, c')) :
      OutputRun t chunk o c'
        (ns ++ (rendition t chunk event (c.engine.pop rest plan)).notes)

/-- What holds of a notifier and its pumps all the time. -/
structure Delivered (t : Handle) (chunk : Nat) (o : Outbox) (c : Channel (Piped κ))
    (ns : List Notification) : Prop where
  sound : Sound t (64 ≤ chunk) c.engine (fun s => payloads s ns) noSpare
  alive : (o.sendUntil ns).1 = true
  outbox : c.outbox = (o.sendUntil ns).2
  length : ∀ s, ∀ data ∈ payloads s ns, data.length ≤ max chunk 1

variable {o : Outbox} {c : Channel (Piped κ)} {ns : List Notification}

omit [Kernel κ] in
theorem delivered_start (h : p.Fresh t) : Delivered t chunk o ⟨p, o⟩ [] where
  sound :=
    { target := h.target
      live := h.target ▸ h.live
      small := by
        rw [h.plan]
        exact List.forall_mem_nil _
      flow := fun s => by
        rw [h.pipe, h.unread]
        exact ⟨[], .empty, rfl, fun _ => List.forall_mem_nil _⟩
      bound := fun _ s => by
        rw [h.unread]
        exact Nat.zero_le _ }
  alive := rfl
  outbox := rfl
  length _ := List.forall_mem_nil _

/-- What a notifier tells of an event that it can handle comes after what it told before. -/
theorem Delivered.handle (h : Delivered t chunk o c ns) {event : Event} {rest : List Event}
    (hqueue : c.engine.queue = event :: rest) {plan : List (List PumpStep)}
    (hplan : ∀ batch ∈ plan, ∀ x ∈ batch, x.Small) {c' : Channel (Piped κ)}
    (halive : Channel.translate t chunk event { c with engine := c.engine.pop rest plan } =
      (true, c')) :
    Delivered t chunk o c'
      (ns ++ (rendition t chunk event (c.engine.pop rest plan)).notes) := by
  obtain ⟨-, hsound, hlength⟩ := handled_rendition event (h.sound.pop hqueue hplan)
  have hperforms := translate_eq (t := t) chunk event { c with engine := c.engine.pop rest plan }
  rw [halive] at hperforms
  have hsent := hperforms.alive
  rw [eq_comm, Bool.and_eq_true, h.outbox] at hsent
  have hall := Outbox.sendUntil_append (o := o) ns
    (rendition t chunk event (c.engine.pop rest plan)).notes
  rw [if_pos h.alive] at hall
  refine ⟨?sound, ?alive, ?outbox, fun s data hdata => ?length⟩
  case sound =>
    simp only [payloads_append]
    rw [hperforms.engine (h.outbox ▸ hsent.1)]
    exact hsound
  case alive =>
    rw [hall]
    exact hsent.1
  case outbox =>
    rw [hall, ← h.outbox]
    exact hperforms.outbox
  case length =>
    rw [payloads_append] at hdata
    rcases List.mem_append.mp hdata with hdata | hdata
    · exact h.length s data hdata
    · exact hlength s data hdata

theorem delivered_of_run (h : OutputRun t chunk o c ns) : Delivered t chunk o c ns := by
  induction h with
  | start h => exact delivered_start h
  | pump _ hx ih => exact ⟨ih.sound.step hx, ih.alive, ih.outbox, ih.length⟩
  | work _ hlive houtput ih =>
    exact ⟨ih.sound.work hlive houtput, ih.alive, ih.outbox, ih.length⟩
  | handle _ hqueue hplan halive ih => exact ih.handle hqueue hplan halive

omit [Kernel κ] in
/-- Nothing waits that is not going to be announced, if the notifier reads large chunks. -/
theorem Delivered.drained (h : Delivered t chunk o c ns) (hchunk : 64 ≤ chunk) {s : OutputStream}
    (hqueue : s.event ∉ c.engine.queue) (hannounced : (c.engine.pipe s).unannounced = 0) :
    c.engine.unread s = [] := by
  have hbound := h.sound.bound hchunk s
  rw [Piped.announcements, List.count_eq_zero_of_not_mem hqueue, hannounced] at hbound
  exact List.length_eq_zero_iff.mp (Nat.le_zero.mp hbound)

/-- What an event tells of its own stream fits into frames. -/
theorem fits_output {event : Event} {s : OutputStream} (hevent : event = s.event)
    {ms : List Notification} (hrenders : Renders event ms)
    (hlength : ∀ data ∈ payloads s ms, data.length ≤ OutputBuffer.limit) (f : Wire.Framing) :
    ∀ n ∈ ms, f.Fits (.note n) := by
  cases hrenders with
  | @output u chunks _ _ =>
    have hsame : u = s := by
      cases u <;> cases s <;> first | rfl | exact absurd hevent nofun
    subst hsame
    rw [payloads_self] at hlength
    intro n hn _
    obtain ⟨data, hdata, rfl⟩ := List.mem_map.mp hn
    exact length_output_lt u (hlength data hdata)
  | _ => cases s <;> cases hevent

/-- An event that announces output is handled if the sink never fails. -/
theorem Delivered.handles (h : Delivered t chunk o c ns) (hbudget : o.sink.budget = none)
    {s : OutputStream} {rest : List Event} (hqueue : c.engine.queue = s.event :: rest)
    {plan : List (List PumpStep)} (hplan : ∀ batch ∈ plan, ∀ x ∈ batch, x.Small) :
    (Channel.translate t chunk s.event { c with engine := c.engine.pop rest plan }).1 = true := by
  obtain ⟨hintact, hsound, -⟩ := handled_rendition s.event (h.sound.pop hqueue hplan)
  have hlength : ∀ data ∈ payloads s (rendition t chunk s.event (c.engine.pop rest plan)).notes,
      data.length ≤ OutputBuffer.limit := by
    intro data hdata
    obtain ⟨left, hflow, htold, -⟩ := hsound.flow s
    refine (hflow.told_bounds data ?_).2
    rw [htold]
    exact List.mem_append_right _ hdata
  have hfits := fits_output rfl (renders_rendition t chunk s.event _) hlength c.outbox.framing
  have hkept : c.outbox.sink.budget = none :=
    h.outbox ▸ (Outbox.sendUntil_unlimited hbudget ns).1
  have hperforms := translate_eq (t := t) chunk s.event
    { c with engine := c.engine.pop rest plan }
  rw [hperforms.alive, hintact, Bool.and_true]
  exact (Outbox.sendUntil_unlimited hkept _).2 hfits

/-- **Output reaches the frontend intact.** At any time of any run of two pumps and a notifier, for
each stream: what was told in the notifications, and what was lost to a full buffer, left the buffer
in the order in which it was pushed, and the rest waits. If never more waited than a buffer holds, the
told bytes followed by those that wait are the pushed ones. Each notification tells at least one byte
and at most a chunk. If the chunks are not too small, nothing waits once all announcements are
handled; and they are handled as long as the sink does not fail. -/
theorem output_intact (h : OutputRun t chunk o c ns) :
    Outbox.Written o ns (true, c.outbox) ∧
    ∀ s : OutputStream,
      (∃ left, Flow OutputBuffer.limit (c.engine.pipe s).pushed left (c.engine.unread s) ∧
        left.filterMap Leaving.told? = payloads s ns) ∧
      ((c.engine.pipe s).peak ≤ OutputBuffer.limit →
        (payloads s ns).flatten ++ c.engine.unread s = (c.engine.pipe s).pushed) ∧
      (∀ data ∈ payloads s ns, 1 ≤ data.length ∧ data.length ≤ max chunk 1) ∧
      (64 ≤ chunk → s.event ∉ c.engine.queue → (c.engine.pipe s).unannounced = 0 →
        c.engine.unread s = []) ∧
      (o.sink.budget = none → ∀ rest plan, c.engine.queue = s.event :: rest →
        (∀ batch ∈ plan, ∀ x ∈ batch, x.Small) →
        (Channel.translate t chunk s.event { c with engine := c.engine.pop rest plan }).1 =
          true) := by
  have hdelivered := delivered_of_run h
  refine ⟨?written, fun s => ?_⟩
  case written =>
    rw [hdelivered.outbox, ← hdelivered.alive]
    exact Outbox.sendUntil_written o ns
  obtain ⟨left, hflow, htold, hintact⟩ := hdelivered.sound.flow s
  refine ⟨⟨left, hflow, htold⟩, fun hpeak => ?told, fun data hdata => ⟨?nonempty, ?chunk⟩,
    fun hchunk => hdelivered.drained hchunk, fun hbudget rest plan hqueue hplan =>
      hdelivered.handles hbudget hqueue hplan⟩
  case told =>
    rw [← htold]
    exact hflow.told_append (hintact hpeak)
  case nonempty =>
    rw [← htold] at hdata
    exact List.length_pos_iff.mpr (hflow.told_bounds data hdata).1
  case chunk => exact hdelivered.length s data hdata

/-- A tracer with its pumps, before its process writes anything. -/
def silentPumps : Piped Puppet :=
  ⟨⟨⟨fun _ => 0, []⟩, [⟨.new none, false⟩]⟩, 0, [], [], fun _ => ⟨[], 0, 0⟩⟩

/-- An event is announced, and while it is handled the process writes on: the notifier tells all of it.
The second event has nothing left to tell. -/
theorem output_intact_greeting :
    ∃ (c : Channel (Piped Puppet)) (ns : List Notification),
      OutputRun 0 64 ⟨.binary, .unlimited, none⟩ c ns ∧
      ns = [.stdout [104, 105], .stdout [33]] ∧ c.engine.queue = [.stdout] ∧
      (c.engine.pipe .stdout).peak ≤ OutputBuffer.limit ∧
      (payloads .stdout ns).flatten ++ c.engine.unread .stdout =
        (c.engine.pipe .stdout).pushed := by
  have hstart : OutputRun 0 64 ⟨.binary, .unlimited, none⟩ ⟨silentPumps, ⟨.binary, .unlimited, none⟩⟩
      [] := .start ⟨rfl, by decide, fun s => by cases s <;> rfl, fun _ => rfl, rfl⟩
  have hwritten : PumpStep.Small (.push .stdout [104, 105]) := by decide
  have hannounced : PumpStep.Small (.announce .stdout) := trivial
  have hplan : ∀ batch ∈ [[], [PumpStep.push .stdout [33], .announce .stdout]], ∀ x ∈ batch,
      PumpStep.Small x := by decide
  have hhandled := ((hstart.pump hwritten).pump hannounced).handle rfl hplan rfl
  exact ⟨_, _, hhandled, rfl, rfl, by decide, ((output_intact hhandled).2 .stdout).2.1 (by decide)⟩

end Session

end DebugAdapter
