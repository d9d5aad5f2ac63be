import ShaderGraph.CommandLine.Run

/-!
# The program

Binds the command line to the disk and to random identifiers.
-/

namespace ShaderGraph.CommandLine

/-- An access that answers with the error of the system where it is refused. -/
def access {α : Type} (act : IO α) : ExceptT String IO α := do
  match ← act.toBaseIO with
  | .ok a => return a
  | .error e => throw (toString e)

/-- Whether a file can be opened; an error if there is one that cannot. -/
def canOpen (path : String) : IO Bool := do
  try
    let _ ← IO.FS.Handle.mk path .read
    return true
  catch
    | .noFileOrDirectory .. => return false
    | e => throw e

/-- Access to the files on the disk. -/
def disk : FileSystem IO where
  exists? path := access (canOpen path)
  read path := access (IO.FS.readFile path)
  write path text := access (IO.FS.writeFile path text)

/-- A random identifier with the marks of its kind in place: version 4, variant 1. -/
def randomUuid : IO Uuid := do
  let high ← IO.rand 0 0xffffffffffff
  let middle ← IO.rand 0x4000 0x4fff
  let low ← IO.rand 0x8000000000000000 0xbfffffffffffffff
  return ⟨BitVec.ofNat 128 (high <<< 80 + middle <<< 64 + low)⟩

/-- Identifiers that count on from a first node and a first link. -/
def numberingFrom (node link : Uuid) : Demo.Numbering where
  node k := ⟨⟨node.value + BitVec.ofNat 128 k⟩⟩
  link k := ⟨⟨link.value + BitVec.ofNat 128 k⟩⟩

end ShaderGraph.CommandLine

open ShaderGraph ShaderGraph.CommandLine in
/-- Answers the arguments of the command line. -/
def main (arguments : List String) : IO UInt32 := do
  let nodes ← randomUuid
  let links ← randomUuid
  let outcome ← execute disk (numberingFrom nodes links) arguments
  IO.print outcome.output
  IO.eprint outcome.complaint
  return outcome.exitCode
