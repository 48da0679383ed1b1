import Mathlib.Algebra.Module.NatInt
import Mathlib.Algebra.Order.BigOperators.Group.List
import Mathlib.Algebra.Order.Group.Nat
import Mathlib.Data.List.Basic
import DebugAdapter.Debuggee.Output
import DebugAdapter.Wire.Frame
import DebugAdapter.Wire.Notification

/-!
# What becomes of output

The output of a process goes through a buffer of limited size: chunks are pushed, and parts are read.
`Flow` is what becomes of each byte. It was read, in the order in which it was pushed; or it waits; or
it was lost, because more bytes waited than the buffer holds, and then it was one of the oldest of
them and exactly as many as the buffer holds remained (`Flow.spills`).

A notification tells a part in hexadecimal digits, and `outputOf?` reads it back. Whatever a buffer
holds can be told in one frame.

Main statements: `Flow.account`, by which all bytes are accounted for, `outputOf?_note` and
`length_output_lt`.
-/

namespace DebugAdapter

/-! ### Hexadecimal digits -/

namespace Bytes

theorem digitValue?_digitChar {n : Nat} (h : n < 16) :
    Text.digitValue? 16 (Nat.digitChar n) = some n := by
  revert n
  decide

/-- The digits of bytes are read back as the bytes. -/
theorem ofHexDigits?_flatMap (bs : Bytes) : ofHexDigits? (bs.flatMap hexByte) = some bs := by
  induction bs with
  | nil => rfl
  | cons b bs ih =>
    have hb : b.toNat < 256 := b.toNat_lt
    have hhigh := digitValue?_digitChar (n := b.toNat / 16) (by omega)
    have hlow := digitValue?_digitChar (n := b.toNat % 16) (by omega)
    have hvalue : UInt8.ofNat (16 * (b.toNat / 16) + b.toNat % 16) = b := by
      rw [Nat.div_add_mod, UInt8.ofNat_toNat]
    rw [List.flatMap_cons, hexByte, List.cons_append, List.cons_append, List.nil_append]
    simp only [ofHexDigits?, hhigh, hlow, ih, hvalue, Option.bind_eq_bind, Option.bind_some]
    rfl

theorem ofHex?_hex (bs : Bytes) : ofHex? bs.hex = some bs := by
  rw [ofHex?, hex, String.toList_ofList, ofHexDigits?_flatMap]

end Bytes

namespace Debuggee

/-! ### Buffers of a process -/

namespace ProcessOutput

/-- The buffer of a stream. -/
def buffer (o : ProcessOutput) : OutputStream → OutputBuffer
  | .stdout => o.stdout
  | .stderr => o.stderr

/-- The output with another buffer for a stream. -/
def withBuffer (o : ProcessOutput) (b : OutputBuffer) : OutputStream → ProcessOutput
  | .stdout => { o with stdout := b }
  | .stderr => { o with stderr := b }

/-- What waits on a stream. -/
def unread (o : ProcessOutput) (s : OutputStream) : Bytes :=
  (o.buffer s).bytes

variable (o : ProcessOutput) (b : OutputBuffer) (s : OutputStream) {u : OutputStream}

theorem buffer_withBuffer_self : (o.withBuffer b s).buffer s = b := by
  cases s <;> rfl

theorem buffer_withBuffer_other (h : u ≠ s) : (o.withBuffer b s).buffer u = o.buffer u := by
  cases s <;> cases u <;> first | exact absurd rfl h | rfl

theorem push_eq (chunk : Bytes) : o.push s chunk = o.withBuffer ((o.buffer s).push chunk) s := by
  cases s <;> rfl

theorem take_eq (n : Nat) :
    o.take s n = (((o.buffer s).take n).1, o.withBuffer ((o.buffer s).take n).2 s) := by
  cases s <;> rfl

theorem unread_push_self (chunk : Bytes) :
    (o.push s chunk).unread s =
      (o.unread s ++ chunk).drop ((o.unread s ++ chunk).length - OutputBuffer.limit) := by
  rw [push_eq, unread, buffer_withBuffer_self, unread, OutputBuffer.push]

theorem unread_push_other (h : u ≠ s) (chunk : Bytes) :
    (o.push s chunk).unread u = o.unread u := by
  rw [push_eq, unread, buffer_withBuffer_other o _ s h, unread]

theorem take_fst (n : Nat) : (o.take s n).1 = (o.unread s).take n := by
  rw [take_eq]
  rfl

theorem unread_take_self (n : Nat) : (o.take s n).2.unread s = (o.unread s).drop n := by
  rw [take_eq, unread, buffer_withBuffer_self]
  rfl

theorem unread_take_other (h : u ≠ s) (n : Nat) : (o.take s n).2.unread u = o.unread u := by
  rw [take_eq, unread, buffer_withBuffer_other o _ s h, unread]

end ProcessOutput

/-! ### What becomes of each byte -/

/-- How bytes leave a buffer. -/
inductive Leaving where
  | told (data : Bytes)
  | lost (data : Bytes)

namespace Leaving

/-- The bytes that leave. -/
def bytes : Leaving → Bytes
  | told data | lost data => data

/-- The bytes that are told. -/
def told? : Leaving → Option Bytes
  | told data => some data
  | lost _ => none

/-- No bytes are lost. -/
def Intact (left : List Leaving) : Prop := ∀ x ∈ left, ∃ data, x = told data

end Leaving

/-- What was pushed to a buffer with room for a number of bytes, how it left, and what waits. -/
inductive Flow (room : Nat) : Bytes → List Leaving → Bytes → Prop
  | empty : Flow room [] [] []
  | fits {pushed unread : Bytes} {left : List Leaving} (h : Flow room pushed left unread)
      {chunk : Bytes} (hfits : (unread ++ chunk).length ≤ room) :
      Flow room (pushed ++ chunk) left (unread ++ chunk)
  | spills {pushed unread : Bytes} {left : List Leaving} (h : Flow room pushed left unread)
      {chunk oldest newest : Bytes} (hsplit : unread ++ chunk = oldest ++ newest)
      (hoverfull : room < (unread ++ chunk).length) (hnewest : newest.length = room) :
      Flow room (pushed ++ chunk) (left ++ [.lost oldest]) newest
  | read {pushed data rest : Bytes} {left : List Leaving} (h : Flow room pushed left (data ++ rest))
      (hdata : data ≠ []) : Flow room pushed (left ++ [.told data]) rest

namespace Flow

variable {room : Nat} {pushed unread : Bytes} {left : List Leaving}

/-- Every byte is accounted for, in the order in which it was pushed. -/
theorem account (h : Flow room pushed left unread) :
    (left.map Leaving.bytes).flatten ++ unread = pushed := by
  induction h with
  | empty => rfl
  | fits _ _ ih => rw [← ih, List.append_assoc]
  | spills _ hsplit _ _ ih =>
    rw [← ih, List.append_assoc, hsplit]
    simp [Leaving.bytes]
  | read _ _ ih =>
    rw [← ih]
    simp [Leaving.bytes]

/-- If nothing is lost, what was told and what waits is what was pushed. -/
theorem told_append (h : Flow room pushed left unread) (hintact : Leaving.Intact left) :
    (left.filterMap Leaving.told?).flatten ++ unread = pushed := by
  have hsame : left.filterMap Leaving.told? = left.filterMap (some ∘ Leaving.bytes) := by
    refine List.filterMap_congr fun x hx => ?_
    obtain ⟨data, rfl⟩ := hintact x hx
    rfl
  rw [hsame, List.filterMap_eq_map, h.account]

/-- A chunk is pushed to the buffer. -/
theorem push (h : Flow room pushed left unread) (chunk : Bytes) :
    ∃ left', Flow room (pushed ++ chunk) left'
        ((unread ++ chunk).drop ((unread ++ chunk).length - room)) ∧
      left'.filterMap Leaving.told? = left.filterMap Leaving.told? ∧
      ((unread ++ chunk).length ≤ room → Leaving.Intact left → Leaving.Intact left') := by
  by_cases hfits : (unread ++ chunk).length ≤ room
  · refine ⟨left, ?_, rfl, fun _ => id⟩
    rw [Nat.sub_eq_zero_of_le hfits]
    exact h.fits hfits
  · refine ⟨left ++ [.lost ((unread ++ chunk).take ((unread ++ chunk).length - room))], ?_, ?_,
      fun h => absurd h hfits⟩
    · refine h.spills (List.take_append_drop _ _).symm (Nat.lt_of_not_le hfits) ?_
      rw [List.length_drop]
      omega
    · rw [List.filterMap_append]
      exact List.append_nil _

/-- No more waits than the buffer holds. -/
theorem length_le (h : Flow room pushed left unread) : unread.length ≤ room := by
  induction h with
  | empty => exact Nat.zero_le room
  | fits _ hfits => exact hfits
  | spills _ _ _ hnewest => exact Nat.le_of_eq hnewest
  | read _ _ ih =>
    rw [List.length_append] at ih
    omega

/-- A part that is told has bytes in it, and no more than the buffer holds. -/
theorem told_bounds (h : Flow room pushed left unread) :
    ∀ data ∈ left.filterMap Leaving.told?, data ≠ [] ∧ data.length ≤ room := by
  induction h with
  | empty => exact List.forall_mem_nil _
  | fits _ _ ih => exact ih
  | spills _ _ _ _ ih => simpa [List.filterMap_append, Leaving.told?] using ih
  | @read _ data rest _ h hdata ih =>
    rw [List.filterMap_append]
    intro part hpart
    rcases List.mem_append.mp hpart with hpart | hpart
    · exact ih part hpart
    · have hlength := h.length_le
      rw [List.length_append] at hlength
      rw [List.mem_singleton.mp hpart]
      exact ⟨hdata, Nat.le_of_add_right_le hlength⟩

/-- Part of what waits is read. -/
theorem take (h : Flow room pushed left unread) {n : Nat} (hn : 0 < n) (hunread : unread ≠ []) :
    Flow room pushed (left ++ [.told (unread.take n)]) (unread.drop n) := by
  refine .read ?_ ?_
  · rwa [List.take_append_drop]
  · rw [Ne, List.take_eq_nil_iff, not_or]
    exact ⟨Nat.ne_of_gt hn, hunread⟩

end Flow

end Debuggee

/-! ### Output in notifications -/

namespace Session

open Debuggee (OutputStream)
open Wire (Notification)

/-- The notification of a chunk of output. -/
def outputNote : OutputStream → Bytes → Notification
  | .stdout => .stdout
  | .stderr => .stderr

/-- The name of a stream in a document. -/
def streamName : OutputStream → String
  | .stdout => "stdout"
  | .stderr => "stderr"

/-- The output that a document tells: bytes of a stream in hexadecimal digits. -/
def outputOf? (s : OutputStream) (document : Json) : Option Bytes :=
  match document with
  | .obj members =>
    match Json.lookup "type" members, Json.lookup "payload" members with
    | some (.str kind), some (.obj payload) =>
      match Json.lookup "output" payload with
      | some (.str digits) => if kind = streamName s then Bytes.ofHex? digits else none
      | _ => none
    | _, _ => none
  | _ => none

theorem outputOf?_note (s : OutputStream) (data : Bytes) :
    outputOf? s (outputNote s data).document = some data := by
  cases s <;> exact Bytes.ofHex?_hex data

theorem outputOf?_other {s u : OutputStream} (h : u ≠ s) (data : Bytes) :
    outputOf? u (outputNote s data).document = none := by
  cases s <;> cases u <;> first | rfl | exact absurd rfl h

end Session

/-! ### The length of such notifications -/

theorem length_flatMap_le {α β : Type} {f : α → List β} {k : Nat} (h : ∀ a, (f a).length ≤ k)
    (l : List α) : (l.flatMap f).length ≤ l.length * k := by
  have hparts : ∀ n ∈ l.map fun a => (f a).length, n ≤ k := by
    intro n hn
    obtain ⟨a, -, rfl⟩ := List.mem_map.mp hn
    exact h a
  have hsum := List.sum_le_card_nsmul _ _ hparts
  rwa [List.length_map, smul_eq_mul, ← List.length_flatMap] at hsum

theorem Text.Utf8.length_encode_le (s : String) : (encode s).length ≤ s.length * 4 := by
  refine length_flatMap_le (fun c => ?_) s.toList
  rw [String.length_utf8EncodeChar]
  exact Char.utf8Size_le_four c

theorem Json.length_escape_le (c : Char) : (escape c).length ≤ 6 := by
  unfold escape
  repeat' split
  all_goals simp

theorem Json.length_quote_le (s : String) : (quote s).length ≤ s.length * 6 + 2 := by
  have hbody := length_flatMap_le length_escape_le s.toList
  rw [String.length_toList] at hbody
  have hmark : "\"".length = 1 := rfl
  simp only [quote, String.length_append, String.length_ofList, hmark]
  omega

theorem Bytes.length_hex_le (bs : Bytes) : bs.hex.length ≤ bs.length * 2 := by
  rw [hex, String.length_ofList]
  exact length_flatMap_le (fun _ => Nat.le_refl 2) bs

namespace Session

open Debuggee (OutputBuffer OutputStream)
open Wire (Framing Notification)

/-- The text of output is its digits between marks of a fixed length. -/
theorem length_render_output (s : OutputStream) (data : Bytes) :
    (outputNote s data).render.length = (Json.quote data.hex).length + 39 := by
  cases s
  all_goals
    simp only [outputNote, Notification.render, Notification.document, Notification.kind,
      Notification.payload, Json.render, Json.renderMembers, String.length_append]
    generalize (Json.quote data.hex).length = n
    show 1 + 6 + 1 + 8 + (1 + 9 + 1 + (1 + 8 + 1 + n + 0 + 1) + 0) + 1 = n + 39
    omega

/-- The length of all that a buffer can hold still fits the header of a frame. -/
theorem length_output_lt (s : OutputStream) {data : Bytes} (h : data.length ≤ OutputBuffer.limit) :
    (Text.Utf8.encode (outputNote s data).render).length < byteLimit Framing.headerLength := by
  have hencode := Text.Utf8.length_encode_le (outputNote s data).render
  have hquote := Json.length_quote_le data.hex
  have hdigits := Bytes.length_hex_le data
  rw [length_render_output] at hencode
  have hroom : OutputBuffer.limit = 4194304 := rfl
  have hheader : byteLimit Framing.headerLength = 4294967296 := rfl
  omega

end Session

end DebugAdapter
