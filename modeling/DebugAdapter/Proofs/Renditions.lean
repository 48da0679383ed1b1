import DebugAdapter.Proofs.OutboxStream
import DebugAdapter.Proofs.OutputBuffers
import DebugAdapter.Session.Notifier

/-!
# Renditions of events

What a notifier writes for an event is settled by the event and by what the engine answers when it is
asked for details; the outbox only decides how much of it is written. `rendition` is the first part:
the notifications of an event, with the engine after it was asked for all of them. `Outbox.sendUntil`
is the second: notifications are sent in their order up to the first that fails.

Main statements: `translate_eq`, which puts the two together, `renders_rendition`, which says what the
notifications of each event are, and `sendUntil_written`, which says what of them is written.
-/

namespace DebugAdapter

open Debuggee

namespace Session

open Wire (Message ModuleImage Notification Outbox)

/-! ### The notifications of an event -/

/-- The images of the modules that do not lie below their file address, in their order. -/
def relocated (ms : List Module) : List ModuleImage :=
  (ms.filter fun m => m.fileAddress ≤ m.loadAddress).map fun m =>
    ⟨m.directory, m.fileName, m.loadAddress, m.fileAddress, m.loadAddress - m.fileAddress⟩

/-- The notifications that an event may give. -/
inductive Renders : Event → List Notification → Prop
  | state {p : ProcessState} (hstopped : p ≠ .stopped) (hdetached : p ≠ .detached)
      (status : Option Int) (hstatus : p ≠ .exited → status = none) :
      Renders (.stateChanged p) [.state p status]
  | stopped (stop : Option StopInfo) :
      Renders (.stateChanged .stopped) [.state .stopped none, stoppedNotification stop]
  | detached : Renders (.stateChanged .detached) [.state .detached none, .detached]
  | output (s : OutputStream) {chunks : List Bytes} (hlength : chunks.length ≤ maxChunksPerEvent)
      (hchunks : [] ∉ chunks) : Renders s.event (chunks.map (outputNote s))
  | loaded (ms : List Module) : Renders (.modulesLoaded ms) [.moduleLoaded (relocated ms)]
  | unloaded (ms : List Module) : Renders (.modulesUnloaded ms) [.moduleUnloaded (relocated ms)]

theorem movedImages_eq (ms : List Module) : movedImages ms = relocated ms := by
  rw [movedImages, relocated]
  induction ms with
  | nil => rfl
  | cons m ms ih =>
    by_cases h : m.fileAddress ≤ m.loadAddress
    · simp [Module.slide, checkedSub, h] at ih ⊢
      exact ih
    · simp [Module.slide, checkedSub, h] at ih ⊢
      exact ih

/-- A notification is an object without a status. -/
theorem document_status (n : Notification) :
    ∃ members, n.document = .obj members ∧ Json.lookup "status" members = none := by
  cases n <;> exact ⟨_, rfl, rfl⟩

/-! ### Renditions -/

/-- The notifications of an event, whether the engine answered to the end, and the engine then. -/
structure Rendition (ε : Type) where
  notes : List Notification
  intact : Bool
  engine : ε

variable {ε : Type} [DebugEngine ε]

/-- Output read in chunks, at most `fuel` of them, until there is nothing to read. -/
def readChunks (t : Handle) (read : Request) (data? : read.Answer → Bytes) :
    (fuel : Nat) → ε → List Bytes × Bool × ε
  | 0, e => ([], true, e)
  | fuel + 1, e =>
    match DebugEngine.perform (.request t read) e with
    | (.error (.error _), e) => ([], true, e)
    | (.error (.crash _), e) => ([], false, e)
    | (.ok answer, e) =>
      let data := data? answer
      if data.isEmpty then ([], true, e)
      else
        let (chunks, intact, e) := readChunks t read data? fuel e
        (data :: chunks, intact, e)

/-- The notifications of output. -/
def renderOutput (wrap : Bytes → Notification) (r : List Bytes × Bool × ε) : Rendition ε :=
  ⟨r.1.map wrap, r.2.1, r.2.2⟩

/-- The notifications of a change of state. -/
def renderState (t : Handle) (p : ProcessState) (e : ε) : Rendition ε :=
  let (status, e) := if p = .exited then
      (DebugEngine.observe t .exitStatus e : Option Int × ε)
    else (none, e)
  match p with
  | .stopped =>
    let (stop, e) := DebugEngine.observe t .stopInfo e
    ⟨[.state p status, stoppedNotification stop], true, e⟩
  | .detached => ⟨[.state p status, .detached], true, e⟩
  | _ => ⟨[.state p status], true, e⟩

/-- The notifications of an event. -/
def rendition (t : Handle) (chunk : Nat) (event : Event) (e : ε) : Rendition ε :=
  match event with
  | .stateChanged p => renderState t p e
  | .stdout => renderOutput .stdout (readChunks t (.readStdout (max chunk 1)) id maxChunksPerEvent e)
  | .stderr => renderOutput .stderr (readChunks t (.readStderr (max chunk 1)) id maxChunksPerEvent e)
  | .modulesLoaded ms => ⟨[.moduleLoaded (movedImages ms)], true, e⟩
  | .modulesUnloaded ms => ⟨[.moduleUnloaded (movedImages ms)], true, e⟩

theorem readChunks_bounds (t : Handle) (read : Request) (data? : read.Answer → Bytes) (fuel : Nat) :
    ∀ e : ε, (readChunks t read data? fuel e).1.length ≤ fuel ∧
      [] ∉ (readChunks t read data? fuel e).1 := by
  induction fuel with
  | zero => exact fun e => ⟨Nat.le_refl 0, List.not_mem_nil⟩
  | succ fuel ih =>
    intro e
    rw [readChunks]
    rcases DebugEngine.perform (.request t read) e with ⟨(f | text) | answer, e'⟩
    · exact ⟨Nat.zero_le _, List.not_mem_nil⟩
    · exact ⟨Nat.zero_le _, List.not_mem_nil⟩
    · dsimp only
      split
      · exact ⟨Nat.zero_le _, List.not_mem_nil⟩
      · rename_i hdata
        obtain ⟨hlength, hchunks⟩ := ih e'
        refine ⟨Nat.succ_le_succ hlength, ?_⟩
        rw [List.mem_cons, not_or]
        refine ⟨fun hnil => hdata ?_, hchunks⟩
        rw [← hnil]
        rfl

/-- What the notifications of each event are. -/
theorem renders_rendition (t : Handle) (chunk : Nat) (event : Event) (e : ε) :
    Renders event (rendition t chunk event e).notes := by
  cases event with
  | stateChanged p =>
    cases p with
    | stopped => exact .stopped _
    | detached => exact .detached
    | exited => exact .state (by decide) (by decide) _ fun h => absurd rfl h
    | _ => exact .state (by decide) (by decide) none fun _ => rfl
  | stdout =>
    obtain ⟨hlength, hchunks⟩ :=
      readChunks_bounds t (.readStdout (max chunk 1)) id maxChunksPerEvent e
    exact .output .stdout hlength hchunks
  | stderr =>
    obtain ⟨hlength, hchunks⟩ :=
      readChunks_bounds t (.readStderr (max chunk 1)) id maxChunksPerEvent e
    exact .output .stderr hlength hchunks
  | modulesLoaded ms =>
    show Renders _ [.moduleLoaded (movedImages ms)]
    rw [movedImages_eq]
    exact .loaded ms
  | modulesUnloaded ms =>
    show Renders _ [.moduleUnloaded (movedImages ms)]
    rw [movedImages_eq]
    exact .unloaded ms

end Session

/-! ### Sending up to the first failure -/

namespace Wire.Outbox

variable {o : Outbox}

/-- Sends notifications in their order up to the first that fails; `true` if none does. -/
def sendUntil : Outbox → List Notification → Bool × Outbox
  | o, [] => (true, o)
  | o, n :: ns =>
    match o.send n.render with
    | (.ok _, o) => sendUntil o ns
    | (.error _, o) => (false, o)

theorem sendUntil_cons (o : Outbox) (n : Notification) (ns : List Notification) :
    sendUntil o (n :: ns) =
      if (o.send n.render).1.isOk then sendUntil (o.send n.render).2 ns
      else (false, (o.send n.render).2) := by
  rw [sendUntil]
  rcases o.send n.render with ⟨f | _, o'⟩
  · rfl
  · rfl

theorem sendUntil_append (o : Outbox) (ns ms : List Notification) :
    sendUntil o (ns ++ ms) =
      if (sendUntil o ns).1 then sendUntil (sendUntil o ns).2 ms else sendUntil o ns := by
  induction ns generalizing o with
  | nil => rfl
  | cons n ns ih =>
    rw [List.cons_append, sendUntil, sendUntil]
    rcases o.send n.render with ⟨f | _, o'⟩
    · rfl
    · exact ih o'

/-- Into a sink that never fails all notifications that fit are sent. -/
theorem sendUntil_unlimited (h : o.sink.budget = none) (ns : List Notification) :
    (o.sendUntil ns).2.sink.budget = none ∧
      ((∀ n ∈ ns, o.framing.Fits (.note n)) → (o.sendUntil ns).1 = true) := by
  induction ns generalizing o with
  | nil => exact ⟨h, fun _ => rfl⟩
  | cons n ns ih =>
    rw [sendUntil_cons, List.forall_mem_cons]
    by_cases hn : o.framing.Fits (.note n)
    · obtain ⟨frame, hframe⟩ := Framing.fits_iff.mp hn
      obtain ⟨hok, hsink, hframing⟩ : (o.send n.render).1.isOk = (o.sink.write frame).1.isOk ∧
          (o.send n.render).2.sink = (o.sink.write frame).2 ∧
          (o.send n.render).2.framing = o.framing :=
        send_eq (m := .note n) hframe
      obtain ⟨hwrite, -, hbudget⟩ := Sink.write_unlimited h frame
      obtain ⟨hkept, hall⟩ := ih (o := (o.send n.render).2) (hsink ▸ hbudget)
      rw [if_pos (by rw [hok, hwrite]; rfl)]
      exact ⟨hkept, fun hfits => hall (hframing ▸ hfits.2)⟩
    · obtain ⟨hfail, hsame⟩ : (o.send n.render).1.isOk = false ∧ (o.send n.render).2 = o :=
        send_unfit (m := .note n) hn
      rw [if_neg (by rw [hfail]; exact Bool.false_ne_true), hsame]
      exact ⟨h, fun hfits => absurd hfits.1 hn⟩

/-- How a notification failed: it does not fit into a frame and nothing of it is written, or the
sink failed within its frame. -/
inductive Failed (f : Framing) (n : Notification) : Bytes → Prop
  | unfit (h : ¬ f.Fits (.note n)) : Failed f n []
  | broken {frame part : Bytes} (hframe : f.encode (Message.note n).payload = .ok frame)
      (hpart : part <+: frame) (hlength : part.length < frame.length) : Failed f n part

/-- What is written of notifications that are sent up to the first failure. -/
inductive Written (o : Outbox) : List Notification → Bool × Outbox → Prop
  | whole {ns : List Notification} {frames : List Bytes} {o' : Outbox}
      (hframes : o.framing.frames (ns.map fun n => (Message.note n).payload) = .ok frames)
      (hwritten : o'.sink.written = o.sink.written ++ frames.flatten)
      (hframing : o'.framing = o.framing) : Written o ns (true, o')
  | cut {ns after : List Notification} {n : Notification} {frames : List Bytes} {part : Bytes}
      {o' : Outbox}
      (hframes : o.framing.frames (ns.map fun n => (Message.note n).payload) = .ok frames)
      (hfailed : Failed o.framing n part)
      (hwritten : o'.sink.written = o.sink.written ++ frames.flatten ++ part) :
      Written o (ns ++ n :: after) (false, o')

/-- A notification that was written before others. -/
theorem Written.cons {n : Notification} {ns : List Notification} {frame : Bytes}
    {result : Bool × Outbox} (h : Written (o.send n.render).2 ns result)
    (hframe : o.framing.encode (Message.note n).payload = .ok frame)
    (hframing : (o.send n.render).2.framing = o.framing)
    (hwritten : (o.send n.render).2.sink.written = o.sink.written ++ frame) :
    Written o (n :: ns) result := by
  cases h with
  | @whole _ frames o' hframes hall hsame =>
    rw [hframing] at hframes hsame
    refine .whole (Framing.frames_cons hframe hframes) ?_ hsame
    rw [hall, hwritten, List.flatten_cons, List.append_assoc]
  | @cut ns after m frames part o' hframes hfailed hall =>
    rw [hframing] at hframes hfailed
    show Written o ((n :: ns) ++ m :: after) _
    refine .cut (Framing.frames_cons hframe hframes) hfailed ?_
    rw [hall, hwritten, List.flatten_cons]
    simp only [List.append_assoc]

/-- The first notification fails. -/
theorem written_cut_first {n : Notification} {after : List Notification} {part : Bytes} {o' : Outbox}
    (hfailed : Failed o.framing n part) (hwritten : o'.sink.written = o.sink.written ++ part) :
    Written o (n :: after) (false, o') := by
  have hcut : o'.sink.written = o.sink.written ++ ([] : List Bytes).flatten ++ part := by
    rw [List.flatten_nil, List.append_nil, hwritten]
  show Written o ([] ++ n :: after) _
  exact .cut rfl hfailed hcut

theorem sendUntil_written (o : Outbox) (ns : List Notification) :
    Written o ns (sendUntil o ns) := by
  induction ns generalizing o with
  | nil => exact .whole rfl (List.append_nil _).symm rfl
  | cons n ns ih =>
    rw [sendUntil_cons]
    by_cases hfits : o.framing.Fits (.note n)
    · obtain ⟨frame, hframe⟩ := Framing.fits_iff.mp hfits
      obtain ⟨hok, hsink, hframing⟩ : (o.send n.render).1.isOk = (o.sink.write frame).1.isOk ∧
          (o.send n.render).2.sink = (o.sink.write frame).2 ∧
          (o.send n.render).2.framing = o.framing :=
        send_eq (m := .note n) hframe
      have hwrote := Sink.wrote_write o.sink frame
      generalize o.sink.write frame = written at hwrote hok hsink
      cases hwrote with
      | whole hwritten _ =>
        have hall : (o.send n.render).2.sink.written = o.sink.written ++ frame := by
          rw [hsink, hwritten]
        rw [if_pos (by rw [hok]; rfl)]
        exact (ih _).cons hframe hframing hall
      | broken hpart hlength hwritten _ _ =>
        rw [if_neg (by rw [hok]; exact Bool.false_ne_true)]
        refine written_cut_first (.broken hframe hpart hlength) ?_
        rw [hsink, hwritten]
    · obtain ⟨hfail, hsame⟩ : (o.send n.render).1.isOk = false ∧ (o.send n.render).2 = o :=
        send_unfit (m := .note n) hfits
      rw [if_neg (by rw [hfail]; exact Bool.false_ne_true)]
      refine written_cut_first (.unfit hfits) ?_
      rw [List.append_nil, hsame]

end Wire.Outbox

/-! ### What a notifier does -/

namespace Session

open Wire (Notification Outbox)

variable {ε : Type}

/-- Whether a notification could be written, and the outbox then. -/
theorem emit_eq (n : Notification) (c : Channel ε) :
    Channel.emit n c =
      ((c.outbox.send n.render).1.isOk, { c with outbox := (c.outbox.send n.render).2 }) := by
  rw [Channel.emit]
  rcases c.outbox.send n.render with ⟨f | _, o⟩
  · rfl
  · rfl

/-- A notifier has worked off a rendition: its notifications were sent up to the first failure, and
if there was none, the engine was asked for all of it. -/
structure Performs (r : Rendition ε) (o : Outbox) (result : Bool × Channel ε) : Prop where
  alive : result.1 = ((o.sendUntil r.notes).1 && r.intact)
  outbox : result.2.outbox = (o.sendUntil r.notes).2
  engine : (o.sendUntil r.notes).1 = true → result.2.engine = r.engine

theorem performs_nil (intact : Bool) (c : Channel ε) :
    Performs ⟨[], intact, c.engine⟩ c.outbox (intact, c) :=
  ⟨(Bool.true_and _).symm, rfl, fun _ => rfl⟩

/-- A notification that could not be written; what was to follow does not matter. -/
theorem performs_failed {n : Notification} {c c' : Channel ε}
    (hemit : Channel.emit n c = (false, c')) (ns : List Notification) (intact : Bool) (e : ε) :
    Performs ⟨n :: ns, intact, e⟩ c.outbox (false, c') := by
  rw [emit_eq, Prod.mk.injEq] at hemit
  obtain ⟨hsend, rfl⟩ := hemit
  have hnot : ¬ (c.outbox.send n.render).1.isOk = true := by
    rw [hsend]
    exact Bool.false_ne_true
  refine ⟨?_, ?_, ?_⟩ <;> rw [Outbox.sendUntil_cons, if_neg hnot]
  · rfl
  · exact fun h => absurd h Bool.false_ne_true

/-- A notification that was written, and what follows. -/
theorem performs_cons {n : Notification} {c c' : Channel ε} (hemit : Channel.emit n c = (true, c'))
    {r : Rendition ε} {result : Bool × Channel ε}
    (h : c'.engine = c.engine → Performs r c'.outbox result) :
    Performs ⟨n :: r.notes, r.intact, r.engine⟩ c.outbox result := by
  rw [emit_eq, Prod.mk.injEq] at hemit
  obtain ⟨hsend, rfl⟩ := hemit
  obtain ⟨halive, houtbox, hengine⟩ := h rfl
  refine ⟨?_, ?_, ?_⟩ <;> rw [Outbox.sendUntil_cons, if_pos hsend]
  · exact halive
  · exact houtbox
  · exact hengine

/-- A notification that is the only one. -/
theorem performs_emit (n : Notification) (c : Channel ε) :
    Performs ⟨[n], true, c.engine⟩ c.outbox (Channel.emit n c) := by
  rcases hemit : Channel.emit n c with ⟨_ | _, c'⟩
  · exact performs_failed hemit [] true c.engine
  · refine performs_cons hemit (r := ⟨[], true, c.engine⟩) fun hengine => ?_
    exact hengine ▸ performs_nil true c'

variable [DebugEngine ε] {t : Handle}

theorem performs_emitOutput {read : Request} {data? : read.Answer → Bytes}
    {wrap : Bytes → Notification} (fuel : Nat) : ∀ c : Channel ε,
      Performs (renderOutput wrap (readChunks t read data? fuel c.engine)) c.outbox
        (Channel.emitOutput t read data? wrap fuel c) := by
  induction fuel with
  | zero => exact performs_nil true
  | succ fuel ih =>
    intro c
    rw [readChunks, Channel.emitOutput]
    rcases DebugEngine.perform (.request t read) c.engine with ⟨(f | text) | answer, e⟩
    · exact performs_nil true { c with engine := e }
    · exact performs_nil false { c with engine := e }
    · dsimp only
      split
      · exact performs_nil true { c with engine := e }
      · rcases hemit : Channel.emit (wrap (data? answer)) { c with engine := e } with ⟨_ | _, c'⟩
        · exact performs_failed hemit _ _ _
        · refine performs_cons hemit (r := renderOutput wrap (readChunks t read data? fuel e)) ?_
          intro hengine
          have hrest := ih c'
          rwa [hengine] at hrest

/-- The documents of a change of state with its exit status. -/
theorem performs_documents (p : ProcessState) (status : Option Int) (c : Channel ε) :
    Performs (match p with
      | .stopped =>
        let (stop, e) := DebugEngine.observe t .stopInfo c.engine
        ⟨[.state p status, stoppedNotification stop], true, e⟩
      | .detached => ⟨[.state p status, .detached], true, c.engine⟩
      | _ => ⟨[.state p status], true, c.engine⟩) c.outbox
      (match Channel.emit (.state p status) c with
        | (false, c) => (false, c)
        | (true, c) =>
          match p with
          | .stopped =>
            let (stop, engine) := DebugEngine.observe t .stopInfo c.engine
            Channel.emit (stoppedNotification stop) { c with engine }
          | .detached => Channel.emit .detached c
          | _ => (true, c)) := by
  rcases hemit : Channel.emit (.state p status) c with ⟨_ | _, c'⟩
  · cases p <;> exact performs_failed hemit _ _ _
  · cases p with
    | stopped =>
      refine performs_cons hemit (r := ⟨[_], true, _⟩) fun hengine => ?_
      rw [← hengine]
      exact performs_emit _ { c' with engine := (DebugEngine.observe t .stopInfo c'.engine).2 }
    | detached =>
      refine performs_cons hemit (r := ⟨[.detached], true, c.engine⟩) fun hengine => ?_
      rw [← hengine]
      exact performs_emit _ c'
    | _ =>
      refine performs_cons hemit (r := ⟨[], true, c.engine⟩) fun hengine => ?_
      rw [← hengine]
      exact performs_nil true c'

theorem performs_emitState (p : ProcessState) (c : Channel ε) :
    Performs (renderState t p c.engine) c.outbox (Channel.emitState t p c) := by
  rw [renderState, Channel.emitState]
  by_cases hexited : p = .exited
  · rw [if_pos hexited, if_pos hexited]
    exact performs_documents p _ { c with engine := (DebugEngine.observe t .exitStatus c.engine).2 }
  · rw [if_neg hexited, if_neg hexited]
    exact performs_documents p none c

/-- To translate an event is to work off its rendition. -/
theorem translate_eq (chunk : Nat) (event : Event) (c : Channel ε) :
    Performs (rendition t chunk event c.engine) c.outbox (Channel.translate t chunk event c) := by
  cases event with
  | stateChanged p => exact performs_emitState p c
  | stdout => exact performs_emitOutput _ c
  | stderr => exact performs_emitOutput _ c
  | modulesLoaded ms => exact performs_emit _ c
  | modulesUnloaded ms => exact performs_emit _ c

end Session

end DebugAdapter
