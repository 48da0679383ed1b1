import DebugAdapter.Text.Path
import DebugAdapter.Word

/-!
# Modules of a debuggee

Program images (the executable and shared libraries) as they are mapped into a process. The slide
of a module is how far its code was moved from the addresses in its file; a module below its file
address counts as not moved yet and has none.
-/

namespace DebugAdapter.Debuggee

/-- A section of a program image. -/
structure Section where
  name : String
  fileAddress : UInt64
  /-- The address in the process, `none` if the section is not mapped. -/
  loadAddress : Option UInt64
  byteSize : UInt64
  fileByteSize : UInt64
  deriving Repr, DecidableEq

/-- A program image mapped into a process. -/
structure Module where
  path : String
  /-- The build id, if known. -/
  uuid : Option String
  /-- The lowest address of its mappings. -/
  loadAddress : UInt64
  /-- The lowest address of its loadable segments in the file. -/
  fileAddress : UInt64
  /-- The size of its mappings. -/
  size : UInt64
  sections : List Section
  deriving Repr, DecidableEq

/-- The difference of two words, `none` if it is negative. -/
def checkedSub (a b : UInt64) : Option UInt64 :=
  if b ≤ a then some (a - b) else none

/-- The sum of two words, at most the largest word. -/
def saturatingAdd (a b : UInt64) : UInt64 :=
  if a.toNat + b.toNat < wordLimit then a + b else UInt64.ofNat (wordLimit - 1)

namespace Module

/-- How far the module was moved from its file addresses. -/
def slide (m : Module) : Option UInt64 :=
  checkedSub m.loadAddress m.fileAddress

/-- The file name of the module. -/
def fileName (m : Module) : Option String :=
  Text.Path.fileName? m.path

/-- The directory of the module. -/
def directory (m : Module) : Option String :=
  Text.Path.parent? m.path

/-- Whether an address belongs to the mappings of the module. -/
def contains (m : Module) (addr : UInt64) : Bool :=
  m.loadAddress ≤ addr && addr < saturatingAdd m.loadAddress m.size

/-- Whether a text names the module: by its path or by its file name. -/
def matchesFile (m : Module) (file : String) : Bool :=
  Text.Path.same m.path file || m.fileName == some file

/-- Whether two modules are the same, with paths that may be written differently. -/
def same (a b : Module) : Bool :=
  Text.Path.same a.path b.path && { a with path := b.path } == b

end Module

end DebugAdapter.Debuggee
