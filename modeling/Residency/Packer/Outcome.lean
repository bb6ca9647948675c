import Residency.Packer.CommandLine
import Residency.Packer.Directory
import Residency.Text.Quoted
import Residency.Volume.Archive

/-!
# How a command ends

A command is done, fails for a reason that it reports, is ended by a fault, or was never begun.
`Ending.code` is the exit code that says which, and `Ending.errorOutput` is the report.
-/

namespace Residency.Packer

inductive Failure where
  | host (error : HostError)
  | noSpace (file : String)
  | unfit (reason : Defect)
deriving DecidableEq

def defectKind : Defect → String
  | .beyondImage .. => "InvalidInput"
  | .noDescriptor _ | .dataBeyondImage .. => "InvalidData"

def Failure.report : Failure → String
  | .host error =>
    s!"Os \x7b code: {error.code}, kind: {error.kind}, message: " ++ quote error.message ++
      " \x7d"
  | .noSpace file => custom "Other" ("no space left for " ++ quote file)
  | .unfit reason => custom (defectKind reason) reason.message
where
  custom (kind message : String) : String :=
    s!"Custom \x7b kind: {kind}, error: " ++ quote message ++ " \x7d"

inductive Ending where
  | done
  | failed (failure : Failure)
  | crashed (fault : Fault)
  | refused (refusal : Refusal)
deriving DecidableEq

def Ending.code : Ending → UInt8
  | .done | .refused .help => 0
  | .failed _ => 1
  | .refused .usage => 2
  | .crashed _ => 101

def Ending.errorOutput : Ending → String
  | .failed failure => s!"Error: {failure.report}\n"
  | _ => ""

/-- How a command ended and what it printed. -/
structure Outcome where
  ending : Ending
  output : List UInt8 := []
deriving DecidableEq

end Residency.Packer
