import Residency.Packer.Image

/-!
# Running the packer in a directory

`Packer.run` does what the arguments of the program say, with the files of a directory, and gives
the directory that is left.
-/

namespace Residency.Packer

def execute (directory : Directory) : Command → Outcome × Directory
  | .pack path sectors files =>
    match directory.placeOf path with
    | .error error => ({ ending := .failed (.host error) }, directory)
    | .ok name =>
      let source : Source := fun image file =>
        ((directory.insert name image).lookup file).map Prod.snd
      let (outcome, image) := pack source sectors files
      (outcome, directory.insert name image)
  | .cat path inumber =>
    match directory.lookup path with
    | .error error => ({ ending := .failed (.host error) }, directory)
    | .ok (name, image) =>
      let (outcome, image) := cat image ⟨inumber⟩
      (outcome, directory.insert name image)

def run (directory : Directory) (arguments : List String) : Outcome × Directory :=
  match Command.ofArguments arguments with
  | .ok command => execute directory command
  | .error refusal => ({ ending := .refused refusal }, directory)

end Residency.Packer
