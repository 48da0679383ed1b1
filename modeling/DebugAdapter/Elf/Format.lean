import DebugAdapter.Bytes

/-!
# Records of object files

The fixed-size records of an ELF file in both classes and byte orders: the file header, segment and
section headers, symbols and notes. A record is a row of numbers of known widths.

Main statement: `length_fields` (a row has one number for each width).
-/

namespace DebugAdapter.Elf

/-- How the numbers of an object file are stored. -/
structure Encoding where
  /-- Addresses and sizes take eight bytes, not four. -/
  wide : Bool
  bigEndian : Bool
  deriving Repr, DecidableEq

namespace Encoding

/-- The width of an address. -/
def word (e : Encoding) : Nat :=
  if e.wide then 8 else 4

/-- The number in some bytes. -/
def number (e : Encoding) (bs : Bytes) : Nat :=
  Bytes.toNat (if e.bigEndian then bs.reverse else bs)

/-- The numbers of a record from the widths of its fields. -/
def fields (e : Encoding) : (widths : List Nat) → Bytes → List Nat
  | [], _ => []
  | w :: r, bs => e.number (bs.take w) :: e.fields r (bs.drop w)

@[simp] theorem length_fields (e : Encoding) (widths : List Nat) (bs : Bytes) :
    (e.fields widths bs).length = widths.length := by
  induction widths generalizing bs with
  | nil => rfl
  | cons w r ih => simp [fields, ih]

end Encoding

/-- The bytes of a file from an offset on, if it has as many. -/
def slice (data : Bytes) (offset length : Nat) : Option Bytes :=
  if offset + length ≤ data.length then some ((data.drop offset).take length) else none

/-- The length of a record with fields of the given widths. -/
def span (widths : List Nat) : Nat := widths.foldr (· + ·) 0

/-- The record at an offset, from the widths of its fields. -/
def record (e : Encoding) (widths : List Nat) (data : Bytes) (offset : Nat) : Option (List Nat) :=
  (slice data offset (span widths)).map (e.fields widths)

/-- The file header after the identification bytes. -/
structure FileHeader where
  entry : Nat
  segmentOffset : Nat
  sectionOffset : Nat
  segmentEntrySize : Nat
  segmentCount : Nat
  sectionEntrySize : Nat
  sectionCount : Nat
  nameTableIndex : Nat
  deriving Repr, DecidableEq

/-- The bytes in front of a file header that tell its encoding. -/
def identificationLength : Nat := 16

/-- The header of an object file. -/
def FileHeader.read (e : Encoding) (data : Bytes) : Option FileHeader :=
  let w := e.word
  match record e [identificationLength, 2, 2, 4, w, w, w, 4, 2, 2, 2, 2, 2, 2] data 0 with
  | some [_, _, _, _, entry, phoff, shoff, _, _, phentsize, phnum, shentsize, shnum, shstrndx] =>
    some ⟨entry, phoff, shoff, phentsize, phnum, shentsize, shnum, shstrndx⟩
  | _ => none

/-- The header of a segment. -/
structure SegmentHeader where
  kind : Nat
  offset : Nat
  address : Nat
  fileSize : Nat
  alignment : Nat
  deriving Repr, DecidableEq

namespace SegmentHeader

/-- The widths of the fields of a segment header. -/
def widths (e : Encoding) : List Nat :=
  if e.wide then [4, 4, 8, 8, 8, 8, 8, 8] else [4, 4, 4, 4, 4, 4, 4, 4]

/-- The size of a segment header. -/
def size (e : Encoding) : Nat := span (widths e)

/-- The segment header at an offset. -/
def read (e : Encoding) (data : Bytes) (offset : Nat) : Option SegmentHeader :=
  match e.wide, record e (widths e) data offset with
  | true, some [kind, _, offset, address, _, fileSize, _, alignment] =>
    some ⟨kind, offset, address, fileSize, alignment⟩
  | false, some [kind, offset, address, _, fileSize, _, _, alignment] =>
    some ⟨kind, offset, address, fileSize, alignment⟩
  | _, _ => none

/-- The segment is mapped when the program is loaded. -/
def isLoaded (s : SegmentHeader) : Bool := s.kind == 1

/-- The segment holds notes. -/
def holdsNotes (s : SegmentHeader) : Bool := s.kind == 4

end SegmentHeader

/-- The header of a section. -/
structure SectionHeader where
  nameOffset : Nat
  kind : Nat
  flags : Nat
  address : Nat
  offset : Nat
  size : Nat
  link : Nat
  info : Nat
  alignment : Nat
  deriving Repr, DecidableEq

namespace SectionHeader

/-- The widths of the fields of a section header. -/
def widths (e : Encoding) : List Nat :=
  let w := e.word
  [4, 4, w, w, w, w, 4, 4, w, w]

/-- The size of a section header. -/
def byteSize (e : Encoding) : Nat := span (widths e)

/-- The section header at an offset. -/
def read (e : Encoding) (data : Bytes) (offset : Nat) : Option SectionHeader :=
  match record e (widths e) data offset with
  | some [name, kind, flags, address, offset, size, link, info, alignment, _] =>
    some ⟨name, kind, flags, address, offset, size, link, info, alignment⟩
  | _ => none

/-- The section has contents that only the program knows. -/
def holdsProgramData (s : SectionHeader) : Bool := s.kind == 1

/-- The section is a symbol table. -/
def isSymbolTable (s : SectionHeader) : Bool := s.kind == 2

/-- The section is a string table. -/
def isStringTable (s : SectionHeader) : Bool := s.kind == 3

/-- The section holds notes. -/
def holdsNotes (s : SectionHeader) : Bool := s.kind == 7

/-- The section takes no place in the file. -/
def isVirtual (s : SectionHeader) : Bool := s.kind == 8

/-- The section holds relocations. -/
def holdsRelocations (s : SectionHeader) : Bool := s.kind == 4 || s.kind == 9

/-- The section is the symbol table of the dynamic linker. -/
def isDynamicSymbolTable (s : SectionHeader) : Bool := s.kind == 11

/-- The section extends a symbol table by section numbers. -/
def extendsSymbolTable (s : SectionHeader) : Bool := s.kind == 18

/-- The section holds machine code that is loaded with the program. -/
def holdsCode (s : SectionHeader) : Bool :=
  s.holdsProgramData && s.flags.testBit 1 && s.flags.testBit 2

/-- The place of the section in the file: offset and size. -/
def fileRange (s : SectionHeader) : Option (Nat × Nat) :=
  if s.isVirtual then none else some (s.offset, s.size)

/-- The contents of the section; `none` if they are not in the file. -/
def contents (s : SectionHeader) (data : Bytes) : Option Bytes :=
  match s.fileRange with
  | some (offset, size) => slice data offset size
  | none => some []

end SectionHeader

/-- An entry of a symbol table. -/
structure SymbolEntry where
  nameOffset : Nat
  info : Nat
  value : Nat
  size : Nat
  deriving Repr, DecidableEq

namespace SymbolEntry

/-- The widths of the fields of a symbol. -/
def widths (e : Encoding) : List Nat :=
  if e.wide then [4, 1, 1, 2, 8, 8] else [4, 4, 4, 1, 1, 2]

/-- The size of a symbol. -/
def byteSize (e : Encoding) : Nat := span (widths e)

/-- The symbol at an offset of a symbol table. -/
def read (e : Encoding) (table : Bytes) (offset : Nat) : Option SymbolEntry :=
  match e.wide, record e (widths e) table offset with
  | true, some [name, info, _, _, value, size] => some ⟨name, info, value, size⟩
  | false, some [name, value, size, info, _, _] => some ⟨name, info, value, size⟩
  | _, _ => none

/-- The symbol names a function. -/
def isFunction (s : SymbolEntry) : Bool :=
  s.info % 16 == 2 || s.info % 16 == 10

end SymbolEntry

/-- The text of a string table from an offset to the next zero byte. -/
structure StringTable where
  /-- Where the table starts and ends in the file; an empty table has no texts. -/
  range : Option (Nat × Nat)
  deriving Repr, DecidableEq

namespace StringTable

/-- The table without texts. -/
def empty : StringTable := ⟨none⟩

/-- The bytes before the first zero, if there is one. -/
def untilZero : Bytes → Option Bytes
  | [] => none
  | b :: r => if b = 0 then some [] else (untilZero r).map (b :: ·)

/-- The text at an offset of the table. -/
def get (t : StringTable) (data : Bytes) (offset : Nat) : Option Bytes := do
  let (start, stop) ← t.range
  let start := start + offset
  if start ≤ stop ∧ stop ≤ data.length then
    untilZero ((data.drop start).take (stop - start))
  else none

end StringTable

/-! ### Notes -/

/-- The next multiple of an alignment. -/
def alignUp (n alignment : Nat) : Nat :=
  (n + alignment - 1) / alignment * alignment

/-- The alignment of the parts of a note from that of its section. -/
def noteAlignment (n : Nat) : Option Nat :=
  if n ≤ 4 then some 4 else if n = 8 then some 8 else none

/-- Whether a note holds a build id: its name is `GNU` and its type 3. -/
def isBuildIdNote (name : Bytes) (kind : Nat) : Bool :=
  (name.reverse.dropWhile (· == 0)).reverse == [0x47, 0x4E, 0x55] && kind == 3

/-- The build id in a row of notes, if one of them holds it; fails at a note that is cut off before
it. `fuel` bounds the number of notes. -/
def buildIdIn (e : Encoding) (alignment : Nat) : (fuel : Nat) → Bytes → Option (Option Bytes)
  | 0, _ => some none
  | _, [] => some none
  | fuel + 1, data => do
    match record e [4, 4, 4] data 0 with
    | some [nameSize, size, kind] =>
      let name ← slice data 12 nameSize
      let start := alignUp (12 + nameSize) alignment
      let contents ← slice data start size
      if isBuildIdNote name kind then return some contents
      else buildIdIn e alignment fuel (data.drop (alignUp (start + size) alignment))
    | _ => none

/-- The build id in the notes of a section or segment with an alignment. -/
def buildIdInNotes (e : Encoding) (alignment : Nat) (notes : Option Bytes) :
    Option (Option Bytes) := do
  let data ← notes
  let alignment ← noteAlignment alignment
  buildIdIn e alignment data.length data

end DebugAdapter.Elf
