import DebugAdapter.Wire.Frame

/-!
# Binary framing

A binary stream is a sequence of frames and a rest that holds no further one: it is shorter than a
header, or its header is above the limit, or fewer bytes follow the header than it declares. A
reader yields the payloads of these frames and then meets the rest (`results_binary`). It is told
that it is at the end once the stream is over, and whenever it reads on.

The induction is on the number of bytes left: `binaryRead_readFrame` says all that one read can do.
-/

namespace DebugAdapter.Wire

/-- The frames of payloads in their order. -/
def Framing.frames (f : Framing) (payloads : List Bytes) : Except FrameError (List Bytes) :=
  payloads.mapM f.encode

namespace Framing

variable {f : Framing} {p frame : Bytes} {ps frames : List Bytes}

@[simp] theorem frames_nil (f : Framing) : f.frames [] = .ok [] := rfl

theorem frames_cons (hp : f.encode p = .ok frame) (hps : f.frames ps = .ok frames) :
    f.frames (p :: ps) = .ok (frame :: frames) := by
  unfold Framing.frames at *
  rw [List.mapM_cons, hp, hps]
  rfl

theorem frames_cons_eq_ok (h : f.frames (p :: ps) = .ok frames) :
    ∃ frame rest, f.encode p = .ok frame ∧ f.frames ps = .ok rest ∧ frames = frame :: rest := by
  unfold Framing.frames at *
  rw [List.mapM_cons] at h
  cases hp : f.encode p with
  | error e =>
    rw [hp] at h
    cases h
  | ok frame =>
    cases hps : ps.mapM f.encode with
    | error e =>
      rw [hp, hps] at h
      cases h
    | ok rest =>
      rw [hp, hps] at h
      cases h
      exact ⟨frame, rest, rfl, rfl, rfl⟩

/-- A binary frame is a header that holds the length of the payload, and the payload. -/
theorem encode_binary_eq_ok (h : Framing.encode .binary p = .ok frame) :
    p.length < byteLimit headerLength ∧ frame = Bytes.littleEndian headerLength p.length ++ p := by
  simp only [encode] at h
  split at h
  · rename_i hlength
    cases h
    exact ⟨hlength, rfl⟩
  · cases h

theorem length_encode_binary (h : Framing.encode .binary p = .ok frame) :
    frame.length = headerLength + p.length := by
  obtain ⟨-, rfl⟩ := encode_binary_eq_ok h
  simp

/-- The header and the bytes that it declares are the frame of these bytes. -/
theorem encode_binary_of_header {header : Bytes} (hheader : header.length = headerLength)
    (hp : p.length = Bytes.toNat header) : Framing.encode .binary p = .ok (header ++ p) := by
  have hlimit : Bytes.toNat header < byteLimit headerLength := by
    rw [← hheader]
    exact Bytes.toNat_lt header
  have hread : Bytes.littleEndian headerLength (Bytes.toNat header) = header := by
    rw [← hheader, Bytes.littleEndian_toNat]
  simp only [encode, hp, hlimit, if_true, hread]

end Framing

namespace Stream

/-- The results of `n` reads in a row; a reader reads on after an error. -/
def results (f : Framing) (limit : Nat) : (n : Nat) → Stream → List ReadResult
  | 0, _ => []
  | n + 1, s => (s.readFrame f limit).1 :: results f limit n (s.readFrame f limit).2

variable {f : Framing} {limit : Nat} {s s' : Stream} {r : ReadResult} {bs : Bytes}

theorem results_succ (h : s.readFrame f limit = (r, s')) (n : Nat) :
    results f limit (n + 1) s = r :: results f limit n s' := by
  rw [results, h]

/-- A stream that is over stays so. -/
theorem results_over (h : s.readFrame f limit = (.endOfStream, s)) (n : Nat) :
    results f limit n s = List.replicate n .endOfStream := by
  induction n with
  | zero => rfl
  | succ n ih => rw [results_succ h, ih, List.replicate_succ]

theorem readFrame_binary_nil (limit : Nat) :
    (ofBytes []).readFrame .binary limit = (.endOfStream, ofBytes []) := rfl

/-! ### One read -/

/-- What one read of a binary stream finds, and what it leaves of the stream. -/
inductive BinaryRead (limit : Nat) : Bytes → ReadResult → Bytes → Prop
  /-- The stream ends within a header. -/
  | short {bs : Bytes} (h : bs.length < Framing.headerLength) :
      BinaryRead limit bs .endOfStream []
  /-- A header is above the limit. -/
  | tooLarge {header tail : Bytes} (hheader : header.length = Framing.headerLength)
      (h : limit < Bytes.toNat header) :
      BinaryRead limit (header ++ tail) (.failed (.tooLarge (Bytes.toNat header) limit)) tail
  /-- The stream ends within a payload. -/
  | cut {header tail : Bytes} (hheader : header.length = Framing.headerLength)
      (hlimit : Bytes.toNat header ≤ limit) (h : tail.length < Bytes.toNat header) :
      BinaryRead limit (header ++ tail) .endOfStream []
  /-- There is a frame. -/
  | payload {p frame rest : Bytes} (hframe : Framing.encode .binary p = .ok frame)
      (h : p.length ≤ limit) : BinaryRead limit (frame ++ rest) (.payload p) rest

theorem splitAt?_of_lt {n : Nat} (h : bs.length < n) : splitAt? n bs = none := by
  simp [splitAt?, Nat.not_le.mpr h]

theorem exists_append_of_le {n : Nat} (h : n ≤ bs.length) :
    ∃ head tail, bs = head ++ tail ∧ head.length = n :=
  ⟨bs.take n, bs.drop n, (List.take_append_drop n bs).symm, List.length_take_of_le h⟩

theorem binaryRead_readFrame (limit : Nat) (bs : Bytes) : ∃ r rest,
    (ofBytes bs).readFrame .binary limit = (r, ofBytes rest) ∧ BinaryRead limit bs r rest := by
  unfold readFrame readBinary ofBytes
  rcases Nat.lt_or_ge bs.length Framing.headerLength with hshort | hlong
  · rw [splitAt?_of_lt hshort]
    exact ⟨_, _, rfl, .short hshort⟩
  · obtain ⟨header, tail, rfl, hheader⟩ := exists_append_of_le hlong
    simp only [← hheader, splitAt?_append]
    rcases Nat.lt_or_ge limit (Bytes.toNat header) with hlarge | hlimit
    · rw [if_pos hlarge]
      exact ⟨_, _, rfl, .tooLarge hheader hlarge⟩
    · rw [if_neg (Nat.not_lt.mpr hlimit)]
      rcases Nat.lt_or_ge tail.length (Bytes.toNat header) with hcut | hwhole
      · rw [splitAt?_of_lt hcut]
        exact ⟨_, _, rfl, .cut hheader hlimit hcut⟩
      · obtain ⟨p, rest, rfl, hp⟩ := exists_append_of_le hwhole
        rw [← hp, splitAt?_append, ← List.append_assoc]
        refine ⟨_, _, rfl, .payload (Framing.encode_binary_of_header hheader hp) ?_⟩
        omega

/-! ### Frames and what follows them -/

variable {ps frames : List Bytes}

/-- Frames of payloads within the limit are read back, whatever follows them. -/
theorem results_frames (hframes : Framing.frames .binary ps = .ok frames)
    (hlimit : ∀ p ∈ ps, p.length ≤ limit) (rest : Bytes) (n : Nat) :
    results .binary limit (ps.length + n) (ofBytes (frames.flatten ++ rest)) =
      ps.map .payload ++ results .binary limit n (ofBytes rest) := by
  induction ps generalizing frames with
  | nil =>
    cases hframes
    simp
  | cons p ps ih =>
    obtain ⟨frame, frames', hp, hps, rfl⟩ := Framing.frames_cons_eq_ok hframes
    have hread : (ofBytes ((frame :: frames').flatten ++ rest)).readFrame .binary limit =
        (.payload p, ofBytes (frames'.flatten ++ rest)) := by
      rw [List.flatten_cons, List.append_assoc]
      exact readFrame_encode_binary hp (hlimit p List.mem_cons_self)
    have hrest := ih hps fun q hq => hlimit q (List.mem_cons_of_mem p hq)
    rw [List.length_cons, Nat.add_right_comm, results_succ hread, hrest]
    rfl

/-- Every stream consists of frames within the limit and a rest that does not begin with one. -/
theorem exists_frames (limit : Nat) (bs : Bytes) : ∃ ps frames rest r tail,
    Framing.frames .binary ps = .ok frames ∧ bs = frames.flatten ++ rest ∧
    (∀ p ∈ ps, p.length ≤ limit) ∧ BinaryRead limit rest r tail ∧
    (ofBytes rest).readFrame .binary limit = (r, ofBytes tail) ∧ ∀ p, r ≠ .payload p := by
  induction hn : bs.length using Nat.strongRecOn generalizing bs with
  | ind n ih =>
    obtain ⟨r, rest, hread, hr⟩ := binaryRead_readFrame limit bs
    by_cases hpayload : ∃ p, r = .payload p
    · obtain ⟨p, rfl⟩ := hpayload
      cases hr with
      | payload hframe hp =>
        rename_i frame
        have hlength := Framing.length_encode_binary hframe
        have hshorter : rest.length < n := by
          rw [← hn, List.length_append, hlength, Framing.headerLength]
          omega
        obtain ⟨ps, frames, rest', r, tail, hframes, rfl, hps, hr, hend, hne⟩ :=
          ih rest.length hshorter rest rfl
        refine ⟨p :: ps, frame :: frames, rest', r, tail, Framing.frames_cons hframe hframes, ?_,
          ?_, hr, hend, hne⟩
        · rw [List.flatten_cons, List.append_assoc]
        · exact List.forall_mem_cons.mpr ⟨hp, hps⟩
    · exact ⟨[], [], bs, r, rest, rfl, rfl, List.forall_mem_nil _, hr, hread,
        fun p hp => hpayload ⟨p, hp⟩⟩

/-! ### Streams that are cut -/

/-- A cut of a concatenation lies behind some of the parts and within the next one. -/
theorem exists_take_flatten (parts : List Bytes) (cut : Nat) : ∃ k rest, k ≤ parts.length ∧
    parts.flatten.take cut = (parts.take k).flatten ++ rest ∧
    (parts.take k).flatten.length ≤ cut ∧
    (k = parts.length ∧ rest = [] ∨
      ∃ part, parts[k]? = some part ∧ cut < (parts.take k).flatten.length + part.length ∧
        rest <+: part ∧ rest.length < part.length) := by
  induction parts generalizing cut with
  | nil => exact ⟨0, [], by simp⟩
  | cons part parts ih =>
    by_cases hcut : part.length ≤ cut
    · obtain ⟨k, rest, hk, htake, hlength, hrest⟩ := ih (cut - part.length)
      refine ⟨k + 1, rest, by simpa using hk, ?_, ?_, ?_⟩
      · rw [List.flatten_cons, List.take_append, List.take_of_length_le hcut, htake]
        simp
      · rw [List.take_succ_cons, List.flatten_cons, List.length_append]
        omega
      · rcases hrest with ⟨rfl, rfl⟩ | ⟨next, hnext, hlt, hbegins⟩
        · exact Or.inl ⟨rfl, rfl⟩
        · refine Or.inr ⟨next, by simpa using hnext, ?_, hbegins⟩
          rw [List.take_succ_cons, List.flatten_cons, List.length_append]
          omega
    · refine ⟨0, part.take cut, by simp, ?_, by simp, Or.inr ⟨part, rfl, ?_, ?_, ?_⟩⟩
      · rw [List.flatten_cons, List.take_append_of_le_length (by omega)]
        rfl
      · simp
        omega
      · exact List.take_prefix cut part
      · simp
        omega

/-- A frame that is cut ends the stream. -/
theorem readFrame_cut {p frame rest : Bytes} (hframe : Framing.encode .binary p = .ok frame)
    (hlimit : p.length ≤ limit) (hbegins : rest <+: frame) (hrest : rest.length < frame.length) :
    (ofBytes rest).readFrame .binary limit = (.endOfStream, ofBytes []) := by
  obtain ⟨hfits, rfl⟩ := Framing.encode_binary_eq_ok hframe
  simp only [List.length_append, Bytes.length_littleEndian] at hrest
  unfold readFrame readBinary ofBytes
  rcases Nat.lt_or_ge rest.length Framing.headerLength with hshort | hlong
  · rw [splitAt?_of_lt hshort]
    rfl
  -- The header is whole, so it declares more bytes than there are.
  · have hcut : rest = Bytes.littleEndian Framing.headerLength p.length ++
        p.take (rest.length - Framing.headerLength) := by
      have htake := List.prefix_iff_eq_take.mp hbegins
      rw [List.take_append, Bytes.length_littleEndian, List.take_of_length_le (by simpa)] at htake
      exact htake
    have hheader := splitAt?_append (Bytes.littleEndian Framing.headerLength p.length)
      (p.take (rest.length - Framing.headerLength))
    rw [Bytes.length_littleEndian] at hheader
    rw [hcut]
    simp only [hheader, Bytes.toNat_littleEndian hfits, if_neg (Nat.not_lt.mpr hlimit)]
    rw [splitAt?_of_lt]
    · rfl
    · rw [List.length_take]
      omega

theorem results_cut {p frame rest : Bytes} (hframe : Framing.encode .binary p = .ok frame)
    (hlimit : p.length ≤ limit) (hbegins : rest <+: frame) (hrest : rest.length < frame.length)
    (n : Nat) : results .binary limit n (ofBytes rest) = List.replicate n .endOfStream := by
  cases n with
  | zero => rfl
  | succ n =>
    rw [results_succ (readFrame_cut hframe hlimit hbegins hrest),
      results_over (readFrame_binary_nil limit), List.replicate_succ]

/-- The frame at a place among frames is that of the payload at this place. -/
theorem encode_of_getElem? (hframes : Framing.frames .binary ps = .ok frames) {k : Nat}
    {frame : Bytes} (hframe : frames[k]? = some frame) :
    ∃ p ∈ ps, Framing.encode .binary p = .ok frame := by
  induction ps generalizing frames k with
  | nil =>
    cases hframes
    simp at hframe
  | cons p ps ih =>
    obtain ⟨first, frames', hp, hps, rfl⟩ := Framing.frames_cons_eq_ok hframes
    cases k with
    | zero =>
      rw [List.getElem?_cons_zero, Option.some.injEq] at hframe
      subst hframe
      exact ⟨p, List.mem_cons_self, hp⟩
    | succ k =>
      obtain ⟨q, hq, hencode⟩ := ih hps (by simpa using hframe)
      exact ⟨q, List.mem_cons_of_mem p hq, hencode⟩

theorem frames_take (hframes : Framing.frames .binary ps = .ok frames) (k : Nat) :
    Framing.frames .binary (ps.take k) = .ok (frames.take k) := by
  induction ps generalizing frames k with
  | nil =>
    cases hframes
    simp
  | cons p ps ih =>
    obtain ⟨frame, frames', hp, hps, rfl⟩ := Framing.frames_cons_eq_ok hframes
    cases k with
    | zero => rfl
    | succ k => exact Framing.frames_cons hp (ih hps k)

theorem length_frames (hframes : Framing.frames .binary ps = .ok frames) :
    frames.length = ps.length := by
  induction ps generalizing frames with
  | nil =>
    cases hframes
    rfl
  | cons p ps ih =>
    obtain ⟨frame, frames', hp, hps, rfl⟩ := Framing.frames_cons_eq_ok hframes
    rw [List.length_cons, List.length_cons, ih hps]

/-! ### Binary streams -/

/-- A cut stream of frames yields the payloads whose frames lie before the cut, and is then over. -/
theorem results_take (hframes : Framing.frames .binary ps = .ok frames)
    (hlimit : ∀ p ∈ ps, p.length ≤ limit) (cut : Nat) : ∃ k ≤ ps.length,
    (frames.take k).flatten.length ≤ cut ∧
    (k < ps.length → cut < (frames.take (k + 1)).flatten.length) ∧
    ∀ n, results .binary limit (k + n) (ofBytes (frames.flatten.take cut)) =
      (ps.take k).map .payload ++ List.replicate n .endOfStream := by
  obtain ⟨k, rest, hk, htake, hlength, hrest⟩ := exists_take_flatten frames cut
  rw [length_frames hframes] at hk hrest
  have hread := results_frames (frames_take hframes k)
    (fun p hp => hlimit p (List.mem_of_mem_take hp)) rest
  rw [List.length_take_of_le hk, ← htake] at hread
  refine ⟨k, hk, hlength, ?_, fun n => ?_⟩
  · intro hlt
    rcases hrest with ⟨rfl, -⟩ | ⟨frame, hframe, hcut, -⟩
    · exact absurd hlt (Nat.lt_irrefl _)
    · rw [List.take_add_one, hframe, Option.toList_some, List.flatten_append, List.length_append]
      simpa using hcut
  · rw [hread]
    rcases hrest with ⟨-, rfl⟩ | ⟨frame, hframe, -, hbegins, hshorter⟩
    · rw [results_over (readFrame_binary_nil limit)]
    · obtain ⟨p, hp, hencode⟩ := encode_of_getElem? hframes hframe
      rw [results_cut hencode (hlimit p hp) hbegins hshorter]

/-- **Binary framing loses nothing and makes nothing up.** Every byte stream is a sequence of
frames of payloads within the limit and a rest. A reader yields these payloads; then it is at the
end for good if the rest is shorter than a header or than the bytes its header declares, and
otherwise the header is above the limit, which is reported with the stream left right behind it.
So a stream of frames that is cut anywhere yields the payloads whose frames lie wholly before the
cut, and is then over. -/
theorem results_binary (limit : Nat) :
    (∀ bs : Bytes, ∃ ps frames rest, Framing.frames .binary ps = .ok frames ∧
      bs = frames.flatten ++ rest ∧ (∀ p ∈ ps, p.length ≤ limit) ∧
      ((rest.length < Framing.headerLength ∨
          ∃ header tail, rest = header ++ tail ∧ header.length = Framing.headerLength ∧
            Bytes.toNat header ≤ limit ∧ tail.length < Bytes.toNat header) ∧
        (∀ n, results .binary limit (ps.length + n) (ofBytes bs) =
          ps.map .payload ++ List.replicate n .endOfStream) ∨
      ∃ header tail, rest = header ++ tail ∧ header.length = Framing.headerLength ∧
        limit < Bytes.toNat header ∧
        ∀ n, results .binary limit (ps.length + (n + 1)) (ofBytes bs) =
          ps.map .payload ++ .failed (.tooLarge (Bytes.toNat header) limit) ::
            results .binary limit n (ofBytes tail))) ∧
    ∀ (ps frames : List Bytes) (cut : Nat), Framing.frames .binary ps = .ok frames →
      (∀ p ∈ ps, p.length ≤ limit) → ∃ k ≤ ps.length,
        (frames.take k).flatten.length ≤ cut ∧
        (k < ps.length → cut < (frames.take (k + 1)).flatten.length) ∧
        ∀ n, results .binary limit (k + n) (ofBytes (frames.flatten.take cut)) =
          (ps.take k).map .payload ++ List.replicate n .endOfStream := by
  refine ⟨fun bs => ?_, fun ps frames cut hframes hlimit => results_take hframes hlimit cut⟩
  obtain ⟨ps, frames, rest, r, tail, hframes, rfl, hlimit, hrest, hread, hne⟩ :=
    exists_frames limit bs
  refine ⟨ps, frames, rest, hframes, rfl, hlimit, ?_⟩
  have hresults := results_frames hframes hlimit rest
  -- Where the stream ends, it has ended for every read that follows.
  have hover : r = .endOfStream → tail = [] → ∀ n,
      results .binary limit (ps.length + n) (ofBytes (frames.flatten ++ rest)) =
        ps.map .payload ++ List.replicate n .endOfStream := by
    rintro rfl rfl n
    rw [hresults]
    cases n with
    | zero => rfl
    | succ n =>
      rw [results_succ hread, results_over (readFrame_binary_nil limit), List.replicate_succ]
  cases hrest with
  | short h => exact Or.inl ⟨Or.inl h, hover rfl rfl⟩
  | tooLarge hheader h =>
    refine Or.inr ⟨_, _, rfl, hheader, h, fun n => ?_⟩
    rw [hresults, results_succ hread]
  | cut hheader hle h => exact Or.inl ⟨Or.inr ⟨_, _, rfl, hheader, hle, h⟩, hover rfl rfl⟩
  | payload hframe h => exact absurd rfl (hne _)

/-- Three frames, cut within the last one. -/
theorem results_three_frames : ∃ k ≤ 3,
    (([[1, 0, 0, 0, 97], [0, 0, 0, 0], [2, 0, 0, 0, 98, 99]] : List Bytes).take k).flatten.length
      ≤ 14 ∧
    (k < 3 → 14 < (([[1, 0, 0, 0, 97], [0, 0, 0, 0], [2, 0, 0, 0, 98, 99]] :
      List Bytes).take (k + 1)).flatten.length) ∧
    ∀ n, results .binary 2 (k + n)
        (ofBytes [1, 0, 0, 0, 97, 0, 0, 0, 0, 2, 0, 0, 0, 98]) =
      (([[97], [], [98, 99]] : List Bytes).take k).map .payload ++
        List.replicate n .endOfStream :=
  (results_binary 2).2 [[97], [], [98, 99]]
    [[1, 0, 0, 0, 97], [0, 0, 0, 0], [2, 0, 0, 0, 98, 99]] 14 rfl (by decide)

end Stream

end DebugAdapter.Wire
