import DebugAdapter.Elf.Format

/-!
# Object files

Reads an ELF file: its header, the headers of segments and sections, and its two symbol tables. A
`FormatError` says which part of a file is malformed; the parts are looked at in the order of the
definitions below, and the first malformed one is reported. Files of other formats are told by
their first bytes; they count as files without contents.
-/

namespace DebugAdapter.Elf

/-- What is wrong with an object file. -/
inductive FormatError where
  | noMagic | unknownMagic | unknownDosFile | unsupportedFormat
  | machHeader | coffHeader | bigCoffHeader | bigCoffValues | xcoffHeader
  | header | unsupportedHeader
  | segmentEntrySize | segmentHeaders | segmentCount
  | sectionEntrySize | sectionHeader | sectionHeaders | nameTableCount
  | noNameTable | nameTableIndex | nameTableSize
  | symbolTable | sectionIndex | stringTableSize | stringTableType | symbolIndexTable
  | relocationTarget
  | sectionData
  deriving Repr, DecidableEq

/-- The wording of an error. -/
def FormatError.message : FormatError → String
  | noMagic => "Could not read file magic"
  | unknownMagic => "Unknown file magic"
  | unknownDosFile => "Unknown MS-DOS file"
  | unsupportedFormat => "Unsupported file format"
  | machHeader => "Invalid Mach-O header size or alignment"
  | coffHeader => "Invalid COFF file header size or alignment"
  | bigCoffHeader => "Invalid COFF bigobj file header size or alignment"
  | bigCoffValues => "Invalid COFF bigobj header values"
  | xcoffHeader => "Invalid XCOFF header size or alignment"
  | header => "Invalid ELF header size or alignment"
  | unsupportedHeader => "Unsupported ELF header"
  | segmentEntrySize => "Invalid ELF program header entry size"
  | segmentHeaders => "Invalid ELF program header size or alignment"
  | segmentCount => "Missing ELF section headers for e_phnum overflow"
  | sectionEntrySize => "Invalid ELF section header entry size"
  | sectionHeader => "Invalid ELF section header offset or size"
  | sectionHeaders => "Invalid ELF section header offset/size/alignment"
  | nameTableCount => "Missing ELF section headers for e_shstrndx overflow"
  | noNameTable => "Missing ELF e_shstrndx"
  | nameTableIndex => "Invalid ELF e_shstrndx"
  | nameTableSize => "Invalid ELF shstrtab size"
  | symbolTable => "Invalid ELF symbol table data"
  | sectionIndex => "Invalid ELF section index"
  | stringTableSize => "Invalid ELF string section offset or size"
  | stringTableType => "Invalid ELF string section type"
  | symbolIndexTable => "Invalid ELF symtab_shndx data"
  | relocationTarget => "Invalid ELF sh_info for relocation section"
  | sectionData => "Invalid ELF section size or offset"

/-- A symbol table with the texts of its names. -/
structure SymbolTable where
  /-- The number of its section, zero if there is none. -/
  sectionNumber : Nat
  entries : List SymbolEntry
  names : StringTable
  deriving Repr, DecidableEq

namespace SymbolTable

/-- The table of a file without one. -/
def empty : SymbolTable := ⟨0, [], .empty⟩

end SymbolTable

/-- An object file. -/
structure ObjectFile where
  data : Bytes
  encoding : Encoding
  entry : Nat
  segments : List SegmentHeader
  sections : List SectionHeader
  sectionNames : StringTable
  symbols : SymbolTable
  dynamicSymbols : SymbolTable
  deriving Repr

namespace ObjectFile

/-- A value or an error if there is none. -/
def need {α : Type} (e : FormatError) : Option α → Except FormatError α
  | some a => .ok a
  | none => .error e

/-- The formats that are told by their first bytes: these, the length of the header, and the error
if a file is too short for it. -/
def otherFormats : List (Bytes × Nat × FormatError) :=
  [([0xFE, 0xED, 0xFA, 0xCE], 28, .machHeader), ([0xCE, 0xFA, 0xED, 0xFE], 28, .machHeader),
    ([0xFE, 0xED, 0xFA, 0xCF], 32, .machHeader), ([0xCF, 0xFA, 0xED, 0xFE], 32, .machHeader),
    ([0xC4, 0x01], 20, .coffHeader), ([0x64, 0xAA], 20, .coffHeader),
    ([0x41, 0xA6], 20, .coffHeader), ([0x4C, 0x01], 20, .coffHeader),
    ([0x64, 0x86], 20, .coffHeader), ([0x01, 0xDF], 20, .xcoffHeader),
    ([0x01, 0xF7], 24, .xcoffHeader)]

/-- A file of another format: without contents, if it has a header. -/
def readOther? (data : Bytes) : Option (Except FormatError ObjectFile) :=
  (otherFormats.find? fun (magic, _) => magic.isPrefixOf data).map fun (_, length, e) =>
    if data.length < length then .error e
    else .ok ⟨data, ⟨false, false⟩, 0, [], [], .empty, .empty, .empty⟩

/-- The encoding that the first bytes of a file tell. -/
def encodingOf (data : Bytes) : Except FormatError Encoding :=
  if data.length < identificationLength then .error .noMagic
  else match data with
    | 0x7F :: 0x45 :: 0x4C :: 0x46 :: cls :: order :: version :: _ =>
      if cls != 1 && cls != 2 then .error .unknownMagic
      else
        let e : Encoding := ⟨cls == 2, order == 2⟩
        match FileHeader.read e data with
        | none => .error .header
        | some _ =>
          if (order == 1 || order == 2) && version == 1 then .ok e
          else .error .unsupportedHeader
    | 0x21 :: 0x3C :: 0x61 :: 0x72 :: 0x63 :: 0x68 :: 0x3E :: 0x0A :: _ => .error .unsupportedFormat
    | 0x21 :: 0x3C :: 0x74 :: 0x68 :: 0x69 :: 0x6E :: 0x3E :: 0x0A :: _ => .error .unsupportedFormat
    | 0x64 :: 0x79 :: 0x6C :: 0x64 :: 0x5F :: 0x76 :: 0x31 :: 0x20 :: _ => .error .unsupportedFormat
    | 0xCA :: 0xFE :: 0xBA :: 0xBE :: _ => .error .unsupportedFormat
    | 0xCA :: 0xFE :: 0xBA :: 0xBF :: _ => .error .unsupportedFormat
    | 0x00 :: 0x00 :: 0xFF :: 0xFF :: 0x00 :: 0x00 :: _ => .error .unsupportedFormat
    | 0x00 :: 0x00 :: 0xFF :: 0xFF :: 0x02 :: 0x00 :: _ =>
      .error (if data.length < 56 then .bigCoffHeader else .bigCoffValues)
    | 0x4D :: 0x5A :: _ => .error .unknownDosFile
    | _ => .error .unknownMagic

/-- The first section header, which holds counts that do not fit into the file header. -/
def firstSection (e : Encoding) (data : Bytes) (h : FileHeader) :
    Except FormatError (Option SectionHeader) :=
  if h.sectionOffset = 0 then .ok none
  else if h.sectionEntrySize ≠ SectionHeader.byteSize e then .error .sectionEntrySize
  else match SectionHeader.read e data h.sectionOffset with
    | some s => .ok (some s)
    | none => .error .sectionHeader

/-- A count that is found in the first section header if it does not fit into the file header. -/
def extendedCount (e : Encoding) (data : Bytes) (h : FileHeader) (fits : Bool) (count : Nat)
    (other : SectionHeader → Nat) (missing : Except FormatError Nat) : Except FormatError Nat :=
  if fits then .ok count
  else do
    match ← firstSection e data h with
    | some s => return other s
    | none => missing

/-- A row of `count` records of a size at an offset. -/
def rowOf {α : Type} (read : Nat → Option α) (data : Bytes) (offset count size : Nat) :
    Option (List α) :=
  if offset + count * size ≤ data.length then
    (List.range count).mapM fun i => read (offset + i * size)
  else none

/-- The segment headers. -/
def readSegments (e : Encoding) (data : Bytes) (h : FileHeader) :
    Except FormatError (List SegmentHeader) :=
  if h.segmentOffset = 0 then .ok []
  else do
    let count ← extendedCount e data h (h.segmentCount < 0xFFFF) h.segmentCount (·.info)
      (.error .segmentCount)
    if count = 0 then return []
    if h.segmentEntrySize ≠ SegmentHeader.size e then throw .segmentEntrySize
    need .segmentHeaders (rowOf (SegmentHeader.read e data) data h.segmentOffset count
      (SegmentHeader.size e))

/-- The section headers. -/
def readSections (e : Encoding) (data : Bytes) (h : FileHeader) :
    Except FormatError (List SectionHeader) :=
  if h.sectionOffset = 0 then .ok []
  else do
    let count ← extendedCount e data h (0 < h.sectionCount) h.sectionCount (·.size) (.ok 0)
    if count = 0 then return []
    if h.sectionEntrySize ≠ SectionHeader.byteSize e then throw .sectionEntrySize
    need .sectionHeaders (rowOf (SectionHeader.read e data) data h.sectionOffset count
      (SectionHeader.byteSize e))

/-- A place in a file whose end is an address. -/
def tableRange (e : FormatError) (offset size : Nat) : Except FormatError StringTable :=
  if offset + size < wordLimit then .ok ⟨some (offset, offset + size)⟩ else .error e

/-- The table of section names. -/
def readSectionNames (e : Encoding) (data : Bytes) (h : FileHeader)
    (sections : List SectionHeader) : Except FormatError StringTable :=
  if sections.isEmpty then .ok .empty
  else do
    let index ← extendedCount e data h (h.nameTableIndex ≠ 0xFFFF) h.nameTableIndex (·.link)
      (.error .nameTableCount)
    if index = 0 then throw .noNameTable
    let s ← need .nameTableIndex sections[index]?
    match s.fileRange with
    | some (offset, size) => tableRange .nameTableSize offset size
    | none => return .empty

/-- The string table in a section. -/
def readStrings (sections : List SectionHeader) (index : Nat) : Except FormatError StringTable := do
  let s ← need .sectionIndex sections[index]?
  if !s.isStringTable then throw .stringTableType
  tableRange .stringTableSize s.offset s.size

/-- The symbol table in the first section of a kind. -/
def readSymbols (e : Encoding) (data : Bytes) (sections : List SectionHeader)
    (isTable : SectionHeader → Bool) : Except FormatError SymbolTable :=
  match sections.findIdx? isTable with
  | none => .ok .empty
  | some index => do
    let s ← need .symbolTable sections[index]?
    let table ← need .symbolTable (s.contents data)
    let size := SymbolEntry.byteSize e
    let entries ← need .symbolTable
      (rowOf (SymbolEntry.read e table) table 0 (table.length / size) size)
    let names ← readStrings sections s.link
    if sections.any fun x =>
        x.extendsSymbolTable && x.link == index && (x.contents data).isNone then
      throw .symbolIndexTable
    return ⟨index, entries, names⟩

/-- Every relocation section for the symbol table names a section that exists. -/
def relocationsAreValid (sections : List SectionHeader) (symbols : SymbolTable) : Bool :=
  sections.all fun s =>
    !(s.holdsRelocations && s.link == symbols.sectionNumber) || s.info < sections.length

/-- Reads an ELF file. -/
def readElf (data : Bytes) : Except FormatError ObjectFile := do
  let e ← encodingOf data
  let h ← need .header (FileHeader.read e data)
  let segments ← readSegments e data h
  let sections ← readSections e data h
  let sectionNames ← readSectionNames e data h sections
  let symbols ← readSymbols e data sections (·.isSymbolTable)
  let dynamicSymbols ← readSymbols e data sections (·.isDynamicSymbolTable)
  if !relocationsAreValid sections symbols then throw .relocationTarget
  return ⟨data, e, h.entry, segments, sections, sectionNames, symbols, dynamicSymbols⟩

/-- Reads an object file. -/
def read (data : Bytes) : Except FormatError ObjectFile :=
  if data.length < identificationLength then .error .noMagic
  else (readOther? data).getD (readElf data)

/-- The build id among the notes of sections or segments, up to the first that is malformed. -/
def searchBuildId (e : Encoding) : List (Nat × Option Bytes) → Option (Option Bytes)
  | [] => some none
  | (alignment, notes) :: r =>
    match buildIdInNotes e alignment notes with
    | some none => searchBuildId e r
    | result => result

/-- The build id. The notes of segments count only if there are no sections. -/
def buildId? (f : ObjectFile) : Option Bytes :=
  let notes :=
    if f.sections.isEmpty then
      (f.segments.filter (·.holdsNotes)).map fun s =>
        (s.alignment, slice f.data s.offset s.fileSize)
    else
      (f.sections.filter (·.holdsNotes)).map fun s => (s.alignment, s.contents f.data)
  (searchBuildId f.encoding notes).join

/-- The lowest address of a segment that is loaded, zero if there is none. -/
def lowestAddress (f : ObjectFile) : Nat :=
  (((f.segments.filter (·.isLoaded)).map (·.address)).min?).getD 0

end ObjectFile

end DebugAdapter.Elf
