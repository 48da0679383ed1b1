import DebugAdapter.Linux.Kernel

/-!
# Memory of a traced process

The kernel reads and writes memory by words of eight bytes. Byte strings are read and written word
by word; the word at the end of a written string is merged with what is there. Addresses wrap.

Main statement: `length_flatMap_ofWord` (every word has eight bytes).
-/

namespace DebugAdapter.Linux.Memory

variable {κ : Type} [Kernel κ]

/-- The bytes of a word of memory. -/
def wordLength : Nat := 8

/-- The number of words for a number of bytes. -/
def wordsFor (length : Nat) : Nat :=
  (length + 7) / wordLength

/-- Reads words in a row. -/
def readWords (tid : Nat) (addr : UInt64) : (count : Nat) → Calls κ (List UInt64)
  | 0 => return []
  | count + 1 => do
    let word ← call (.peek tid addr)
    let rest ← readWords tid (addr + 8) count
    return word :: rest

/-- Reads words in a row up to the first that cannot be read. -/
def readSomeWords (tid : Nat) (addr : UInt64) : (count : Nat) → StateM κ (List UInt64)
  | 0 => return []
  | count + 1 => do
    match ← (call (.peek tid addr) : Calls κ _).run with
    | .ok word =>
      let rest ← readSomeWords tid (addr + 8) count
      return word :: rest
    | .error _ => return []

/-- Reads bytes. -/
def read (tid : Nat) (addr : UInt64) (length : Nat) : Calls κ Bytes := do
  let words ← readWords tid addr (wordsFor length)
  return (words.flatMap Bytes.ofWord).take length

/-- Reads as many bytes as possible. -/
def readAvailable (tid : Nat) (addr : UInt64) (length : Nat) : StateM κ Bytes := do
  let words ← readSomeWords tid addr (wordsFor length)
  return (words.flatMap Bytes.ofWord).take length

/-- Writes bytes into a word from its first byte on. -/
def mergeWord (old : UInt64) (bytes : Bytes) : UInt64 :=
  Bytes.toWord (bytes ++ (Bytes.ofWord old).drop bytes.length)

/-- Writes bytes word by word; `fuel` bounds the number of words. -/
def writeWords (tid : Nat) : (fuel : Nat) → (addr : UInt64) → (data : Bytes) → Calls κ Unit
  | 0, _, _ => return ()
  | _, _, [] => return ()
  | fuel + 1, addr, data => do
    let chunk := data.take wordLength
    let word ←
      if chunk.length = wordLength then pure (Bytes.toWord chunk)
      else do
        let old ← call (.peek tid addr)
        pure (mergeWord old chunk)
    call (.poke tid addr word)
    writeWords tid fuel (addr + 8) (data.drop wordLength)

/-- Writes bytes and counts them. -/
def write (tid : Nat) (addr : UInt64) (data : Bytes) : Calls κ Nat := do
  writeWords tid (wordsFor data.length) addr data
  return data.length

theorem length_flatMap_ofWord (words : List UInt64) :
    (words.flatMap Bytes.ofWord).length = wordLength * words.length := by
  induction words with
  | nil => rfl
  | cons w r ih =>
    simp only [wordLength] at ih ⊢
    simp only [List.flatMap_cons, List.length_append, Bytes.length_ofWord, ih, List.length_cons]
    omega

end DebugAdapter.Linux.Memory
