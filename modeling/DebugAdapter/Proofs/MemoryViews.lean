import DebugAdapter.Console
import DebugAdapter.Proofs.Numerals
import DebugAdapter.Proofs.OutputBuffers
import DebugAdapter.Session.Views

/-!
# Views of memory

A session shows memory as a list of documents, one for each row of sixteen bytes, and the console as
lines of text. Nothing is lost on the way: from the documents the address and the bytes of each row can be
read back (`Shows`), the rows in a row are the bytes that were asked for, and a line of the console
consists of the address and the bytes of a document (`consoleLine?`).

Main statement: `memoryViews_spec`.
-/

namespace DebugAdapter

/-! ### Hexadecimal columns -/

namespace Bytes

/-- Reads a column of bytes: pairs of hexadecimal digits with a blank between two pairs. -/
def ofHexColumn? : List Char → Option Bytes
  | [] => some []
  | c :: d :: ' ' :: r => do
    let first ← ofHexDigits? [c, d]
    let rest ← ofHexColumn? r
    if rest.isEmpty then none else return first ++ rest
  | cs => if cs.length = 2 then ofHexDigits? cs else none

/-- The digits of one byte are read back. -/
theorem ofHexDigits?_hexByte (b : UInt8) : ofHexDigits? (hexByte b) = some [b] :=
  ofHexDigits?_flatMap [b]

theorem ofHexColumn?_intersperse (bs : Bytes) :
    ofHexColumn? ((bs.map hexByte).intersperse [' ']).flatten = some bs := by
  induction bs with
  | nil => rfl
  | cons b bs ih =>
    cases bs with
    | nil => exact ofHexDigits?_hexByte b
    | cons b' bs =>
      have hfirst : ofHexDigits? [Nat.digitChar (b.toNat / 16), Nat.digitChar (b.toNat % 16)] =
          some [b] := ofHexDigits?_hexByte b
      show ofHexColumn? (Nat.digitChar (b.toNat / 16) :: Nat.digitChar (b.toNat % 16) :: ' ' ::
        (((b' :: bs).map hexByte).intersperse [' ']).flatten) = _
      rw [ofHexColumn?, hfirst, ih]
      rfl

/-- The bytes of a column are read back from it. -/
theorem ofHexColumn?_hexSpaced (bs : Bytes) : ofHexColumn? bs.hexSpaced.toList = some bs := by
  rw [hexSpaced, String.toList_ofList, ofHexColumn?_intersperse]

end Bytes

/-! ### Rows -/

namespace Debuggee

theorem getElem?_rowsWith {fuel : Nat} {data : Bytes} (h : data.length ≤ fuel) (i : Nat) :
    (rowsWith fuel data)[i]? =
      if 16 * i < data.length then some ((data.drop (16 * i)).take 16) else none := by
  induction fuel generalizing data i with
  | zero => simp_all [rowsWith]
  | succ fuel ih =>
    cases data with
    | nil => simp [rowsWith]
    | cons b r =>
      cases i with
      | zero => simp [rowsWith, rowLength]
      | succ i =>
        have hdrop : ((b :: r).drop 16).length ≤ fuel := by
          rw [List.length_drop, List.length_cons]
          rw [List.length_cons] at h
          omega
        have hi : 16 * i < (b :: r).length - 16 ↔ 16 * (i + 1) < (b :: r).length := by omega
        rw [rowsWith, List.getElem?_cons_succ, rowLength, ih hdrop, List.length_drop, List.drop_drop,
          if_congr hi rfl rfl, Nat.mul_add_one, Nat.add_comm 16]

/-- Each row holds the bytes from its place on. -/
theorem getElem?_rows (data : Bytes) (i : Nat) :
    (rows data)[i]? = if 16 * i < data.length then some ((data.drop (16 * i)).take 16) else none :=
  getElem?_rowsWith (Nat.le_refl _) i

theorem length_rows (data : Bytes) : (rows data).length = (data.length + 15) / 16 := by
  have hend : ∀ i, (rows data).length ≤ i ↔ ¬16 * i < data.length := by
    intro i
    rw [← List.getElem?_eq_none_iff, getElem?_rows]
    split
    · rename_i hi
      exact iff_of_false nofun fun hnot => hnot hi
    · rename_i hi
      exact iff_of_true rfl hi
  have hle := (hend ((data.length + 15) / 16)).mpr (by omega)
  have hge := (hend (rows data).length).mp (Nat.le_refl _)
  omega

theorem length_addressRows (base : UInt64) (rows : List Bytes) :
    (addressRows base rows).length = rows.length := by
  induction rows generalizing base with
  | nil => rfl
  | cons row rows ih => rw [addressRows, List.length_cons, List.length_cons, ih]

/-- Only the last row may be shorter, and no row is empty. -/
theorem length_of_getElem?_rows {data row : Bytes} {i : Nat} (h : (rows data)[i]? = some row) :
    0 < row.length ∧ row.length ≤ 16 ∧ (i + 1 < (rows data).length → row.length = 16) := by
  rw [getElem?_rows] at h
  split at h
  · rename_i hi
    cases h
    rw [length_rows, List.length_take, List.length_drop]
    omega
  · cases h

theorem getElem?_addressRows (base : UInt64) (rows : List Bytes) (i : Nat) :
    (addressRows base rows)[i]? =
      rows[i]?.map fun row => ⟨UInt64.ofNat (base.toNat + 16 * i), row⟩ := by
  induction rows generalizing base i with
  | nil => rfl
  | cons row rows ih =>
    cases i with
    | zero => simp [addressRows]
    | succ i =>
      have hnext : UInt64.ofNat ((base + 16).toNat + 16 * i) =
          UInt64.ofNat (base.toNat + 16 * (i + 1)) := by
        rw [← UInt64.toNat_inj]
        simp only [UInt64.toNat_add, UInt64.toNat_ofNat', UInt64.reduceToNat]
        omega
      rw [addressRows, List.getElem?_cons_succ, List.getElem?_cons_succ, ih, hnext]

theorem asciiChar_eq (b : UInt8) :
    asciiChar b = if 32 ≤ b.toNat ∧ b.toNat ≤ 126 then Char.ofNat b.toNat else '.' := by
  rw [asciiChar]
  congr 1
  simp only [Bool.and_eq_true, decide_eq_true_eq, UInt8.le_iff_toNat_le, UInt8.lt_iff_toNat_lt,
    UInt8.reduceToNat, eq_iff_iff]
  omega

end Debuggee

/-! ### Views -/

namespace Session

open Debuggee (Focus Handle)

/-- A document shows bytes from an address on: the texts of its columns tell the address, the bytes, and
the characters of those that can be printed. -/
structure Shows (line : Json) (address : Nat) (row : Bytes) : Prop where
  address : ∃ text w, line.get? "address" = some (.str text) ∧ Text.readAddress? text = some w ∧
    w.toNat = address
  bytes : ∃ text, line.get? "bytes" = some (.str text) ∧ Bytes.ofHexColumn? text.toList = some row
  ascii : ∃ text, line.get? "ascii" = some (.str text) ∧ text.toList = row.map fun b =>
    if 32 ≤ b.toNat ∧ b.toNat ≤ 126 then Char.ofNat b.toNat else '.'

/-- A document as a line of text: its address and its bytes. -/
def consoleLine? (line : Json) : Option String :=
  match line.get? "address", line.get? "bytes" with
  | some (.str address), some (.str bytes) => some (address ++ ": " ++ bytes)
  | _, _ => none

theorem memoryLine_eq (row : Debuggee.MemoryRow) :
    memoryLine row = .obj [("address", .str (Text.hexWord row.address)), ("ascii", .str row.asciiColumn),
      ("bytes", .str row.hexColumn)] := by
  have hbytes : ¬"bytes" < "address" := by decide
  have hascii : ¬"ascii" < "address" := by decide
  have hbetween : "ascii" < "bytes" := by decide
  simp only [memoryLine, Json.object, List.foldl_cons, List.foldl_nil, Json.insert, hbytes, hascii,
    hbetween, if_false, if_true, String.reduceEq]

theorem shows_memoryLine (w : UInt64) (row : Bytes) : Shows (memoryLine ⟨w, row⟩) w.toNat row := by
  rw [memoryLine_eq]
  refine ⟨⟨_, w, rfl, Text.readAddress?_hexWord w, rfl⟩, ⟨_, rfl, Bytes.ofHexColumn?_hexSpaced row⟩,
    ⟨_, rfl, ?_⟩⟩
  rw [Debuggee.MemoryRow.asciiColumn, String.toList_ofList]
  exact List.map_congr_left fun b _ => Debuggee.asciiChar_eq b

theorem consoleLine?_memoryLine (row : Debuggee.MemoryRow) :
    consoleLine? (memoryLine row) = some (Text.hexWord row.address ++ ": " ++ row.hexColumn) := by
  rw [memoryLine_eq]
  rfl

/-- The console asks for memory and shows each row of it as a line. -/
theorem execute_memory {focus : Focus} {t : Handle} {command addr len : String} {base n : UInt64}
    (htarget : focus.target = some t) (hwords : Text.blankWords command = ["memory", addr, len])
    (haddr : Text.readWord? addr.toList = some base) (hlen : Text.readWord? len.toList = some n) :
    ∃ next, Console.execute focus command =
        .request t (.readMemory base (min n.toNat Console.maxDump)) next ∧
      ∀ data, next (.ok data) = .done (.success (Console.lines
        ((Debuggee.memoryRows base data).map fun row =>
          Text.hexWord row.address ++ ": " ++ row.hexColumn))) := by
  have hname : Console.Command.ofName? "memory" = some .memory := by decide
  have hbase : Console.number addr = pure base := by rw [Console.number, haddr]
  have hlimit : Console.number len = pure n := by rw [Console.number, hlen]
  have hthere : Console.target focus = pure t := by rw [Console.target, htarget]
  rw [Console.execute, Console.run, hwords]
  dsimp only
  rw [hname]
  dsimp only
  rw [Console.runCommand, hbase, hlimit, hthere]
  exact ⟨_, rfl, fun data => rfl⟩

/-- Memory whose addresses fit into words is shown without loss: in rows of sixteen bytes, of which only
the last may be shorter, each with its address, its bytes and their characters. The console shows the same
rows. -/
theorem memoryViews_spec {base : UInt64} {data : Bytes} (hfits : base.toNat + data.length ≤ wordLimit) :
    ∃ (lines : List Json) (rows : List Bytes), memoryLines base data = .arr lines ∧ rows.flatten = data ∧
      lines.length = (data.length + 15) / 16 ∧ rows.length = lines.length ∧
      (∀ i row, rows[i]? = some row →
        (0 < row.length ∧ row.length ≤ 16 ∧ (i + 1 < rows.length → row.length = 16)) ∧
        ∃ line, lines[i]? = some line ∧ Shows line (base.toNat + 16 * i) row) ∧
      ∀ (focus : Focus) (t : Handle) (command addr len : String) (n : UInt64),
        focus.target = some t → Text.blankWords command = ["memory", addr, len] →
        Text.readWord? addr.toList = some base → Text.readWord? len.toList = some n →
        ∃ next texts, Console.execute focus command =
            .request t (.readMemory base (min n.toNat Console.maxDump)) next ∧
          next (.ok data) = .done (.success (Console.lines texts)) ∧
          texts.map some = lines.map consoleLine? := by
  have hlength : ((Debuggee.memoryRows base data).map memoryLine).length = (Debuggee.rows data).length := by
    rw [List.length_map, Debuggee.memoryRows, Debuggee.length_addressRows]
  refine ⟨_, Debuggee.rows data, rfl, Debuggee.flatten_rows data,
    hlength.trans (Debuggee.length_rows data), hlength.symm, fun i row hrow => ?_, ?_⟩
  · refine ⟨Debuggee.length_of_getElem?_rows hrow, ?_⟩
    refine ⟨memoryLine ⟨UInt64.ofNat (base.toNat + 16 * i), row⟩, ?_, ?_⟩
    · rw [List.getElem?_map, Debuggee.memoryRows, Debuggee.getElem?_addressRows, hrow]
      rfl
    · have hi : base.toNat + 16 * i < wordLimit := by
        rw [Debuggee.getElem?_rows] at hrow
        split at hrow
        · omega
        · cases hrow
      have hshows := shows_memoryLine (UInt64.ofNat (base.toNat + 16 * i)) row
      rwa [UInt64.toNat_ofNat_of_lt' hi] at hshows
  · intro focus t command addr len n htarget hwords haddr hlen
    obtain ⟨next, hexecute, hnext⟩ := execute_memory htarget hwords haddr hlen
    refine ⟨next, _, hexecute, hnext data, ?_⟩
    rw [List.map_map, List.map_map]
    exact List.map_congr_left fun row _ => (consoleLine?_memoryLine row).symm

/-- Twenty bytes at the end of the address space make two rows, in the documents and on the console. -/
theorem memoryViews_last_bytes :
    (0xffffffffffffffec : UInt64).toNat + (List.replicate 20 (65 : UInt8)).length ≤ wordLimit ∧
    ∃ (lines : List Json) (next : Except Debuggee.DebugError Bytes → Debuggee.Inquiry _)
      (texts : List String),
      memoryLines 0xffffffffffffffec (List.replicate 20 65) = .arr lines ∧ lines.length = 2 ∧
      Console.execute ⟨some 1, none, 0⟩ "memory 0xFFFFFFFFFFFFFFEC 20" =
        .request 1 (.readMemory 0xffffffffffffffec 20) next ∧
      next (.ok (List.replicate 20 65)) = .done (.success (Console.lines texts)) ∧
      texts.map some = lines.map consoleLine? := by
  have hfits : (0xffffffffffffffec : UInt64).toNat + (List.replicate 20 (65 : UInt8)).length ≤ wordLimit := by
    decide
  obtain ⟨lines, rows, hlines, -, hlength, -, -, hconsole⟩ := memoryViews_spec hfits
  obtain ⟨next, texts, hexecute, hnext, htexts⟩ := hconsole ⟨some 1, none, 0⟩ 1
    "memory 0xFFFFFFFFFFFFFFEC 20" "0xFFFFFFFFFFFFFFEC" "20" 20 rfl (by decide) (by decide) (by decide)
  exact ⟨hfits, lines, next, texts, hlines, hlength, hexecute, hnext, htexts⟩

end Session

end DebugAdapter
