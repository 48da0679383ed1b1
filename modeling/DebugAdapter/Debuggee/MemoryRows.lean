import DebugAdapter.Bytes

/-!
# Rows of memory

Memory is shown in rows of sixteen bytes with a hexadecimal and an ASCII column.

Main statement: `flatten_rows`, the rows hold exactly the data.
-/

namespace DebugAdapter.Debuggee

/-- The bytes of a row of memory. -/
def rowLength : Nat := 16

/-- Cuts bytes into rows, the last of which may be shorter; `fuel` bounds their number. -/
def rowsWith : (fuel : Nat) → Bytes → List Bytes
  | 0, _ => []
  | _ + 1, [] => []
  | fuel + 1, b :: r => (b :: r).take rowLength :: rowsWith fuel ((b :: r).drop rowLength)

/-- Cuts bytes into rows. -/
def rows (data : Bytes) : List Bytes :=
  rowsWith data.length data

/-- A row of memory: its address and its bytes. -/
structure MemoryRow where
  address : UInt64
  bytes : Bytes
  deriving Repr, DecidableEq

/-- The addresses of rows that start at `base`. -/
def addressRows (base : UInt64) : List Bytes → List MemoryRow
  | [] => []
  | row :: r => ⟨base, row⟩ :: addressRows (base + 16) r

/-- The rows of memory from `base` on. -/
def memoryRows (base : UInt64) (data : Bytes) : List MemoryRow :=
  addressRows base (rows data)

/-- The character of a byte in the ASCII column: itself if it can be printed, else a dot. -/
def asciiChar (b : UInt8) : Char :=
  if 32 ≤ b && b < 127 then Char.ofNat b.toNat else '.'

namespace MemoryRow

/-- The hexadecimal column. -/
def hexColumn (row : MemoryRow) : String :=
  row.bytes.hexSpaced

/-- The ASCII column. -/
def asciiColumn (row : MemoryRow) : String :=
  String.ofList (row.bytes.map asciiChar)

end MemoryRow

theorem flatten_rowsWith {fuel : Nat} {data : Bytes} (h : data.length ≤ fuel) :
    (rowsWith fuel data).flatten = data := by
  induction fuel generalizing data with
  | zero => simp_all [rowsWith]
  | succ n ih =>
    cases data with
    | nil => rfl
    | cons b r =>
      have hd : ((b :: r).drop rowLength).length ≤ n := by
        simp only [List.length_drop, List.length_cons, rowLength] at h ⊢
        omega
      simp only [rowsWith, List.flatten_cons, ih hd, List.take_append_drop]

/-- The rows hold exactly the data. -/
theorem flatten_rows (data : Bytes) : (rows data).flatten = data :=
  flatten_rowsWith (Nat.le_refl _)

end DebugAdapter.Debuggee
