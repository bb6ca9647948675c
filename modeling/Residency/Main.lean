import Residency.Packer.Image

/-!
# The program

Reads and writes the files that a command line names, and leaves the rest to `Packer.pack` and
`Packer.cat`.
-/

namespace Residency

def usage : String :=
  "usage: filesys-packer pack --out IMAGE [--sectors N] FILE...\n" ++
  "       filesys-packer cat --image IMAGE --inumber N\n"

/-- The reason for which the host refused a path, for those that have a name here. -/
def hostError? : IO.Error → Option HostError
  | .noFileOrDirectory .. => some .notFound
  | .inappropriateType _ code _ =>
    if code.toNat = HostError.isDirectory.code then some .isDirectory else some .notDirectory
  | .invalidArgument _ code _ =>
    if code.toNat = HostError.nameTooLong.code then some .nameTooLong else none
  | _ => none

/-- Does something with a file of the host; other failures than those with a name end the
    program. -/
def onHost {α : Type} (action : IO α) : IO (Except HostError α) := do
  try
    return .ok (← action)
  catch error =>
    match hostError? error with
    | some known => return .error known
    | none => throw error

def readHostFile (path : String) : IO (Except HostError HostFile) :=
  onHost do return .ofBytes (← IO.FS.readBinFile path).toList

def writeHostFile (path : String) (file : HostFile) : IO Unit :=
  IO.FS.writeBinFile path file.bytes.toByteArray

def execute : Command → IO Packer.Outcome
  | .pack path sectors files => do
    match ← onHost (writeHostFile path .empty) with
    | .error error => return { ending := .failed (.host error) }
    | .ok () =>
      let inputs ← files.mapM fun file => return (file, ← readHostFile file)
      let source : Packer.Source := fun _ file =>
        (inputs.lookup file).getD (.error .notFound)
      let (outcome, image) := Packer.pack source sectors files
      writeHostFile path image
      return outcome
  | .cat path inumber => do
    match ← readHostFile path with
    | .error error => return { ending := .failed (.host error) }
    | .ok image => return (Packer.cat image ⟨inumber⟩).1

end Residency

open Residency

def main (arguments : List String) : IO UInt32 := do
  let outcome ← match Command.ofArguments arguments with
    | .ok command => execute command
    | .error refusal =>
      IO.eprint usage
      pure { ending := .refused refusal }
  (← IO.getStdout).write outcome.output.toByteArray
  IO.eprint outcome.ending.errorOutput
  return outcome.ending.code.toUInt32
