import Residency.Device.FileDisk
import Residency.Packer.Outcome

/-!
# Images

An image is a file of the host that holds a volume.  `Packer.pack` makes one and stores files in
it, one behind the other from sector one on; `Packer.cat` gives back the contents of a stored file.
Both save the cache at the end, however they went, and give the image that is left.
-/

namespace Residency.Packer

/-- Where the contents of input files come from.  The image in its present state is at hand for
    the case that a path leads to it. -/
abbrev Source := (image : HostFile) → (path : String) → Except HostError HostFile

def storedLine (file : String) (sector : SectorNo) : List UInt8 :=
  s!"{file} -> {sector}\n".toUTF8.toList

/-- Stores files one after the other until one fails; gives the lines that are printed. -/
def storeFiles (source : Source) :
    List String → Step (Volume FileDisk) (List UInt8 × Option Failure)
  | [] => return ([], none)
  | file :: rest => do
    match source (← get).cache.device.file file with
    | .error error => return ([], some (.host error))
    | .ok found =>
      match ← Volume.store found.bytes with
      | .error .noSpace => return ([], some (.noSpace file))
      | .ok sector =>
        let (lines, failure) ← storeFiles source rest
        return (storedLine file sector ++ lines, failure)

/-- Reserves sector zero for whoever boots from the image, and stores files in the others. -/
def packStep (source : Source) (files : List String) : Step (Volume FileDisk) Outcome := do
  Volume.reserve default 1
  let (output, failure) ← storeFiles source files
  return { ending := failure.elim .done .failed, output }

/-- Gives the contents of the file whose descriptor is in sector `inumber` of an image of `sectors`
    sectors. -/
def catStep (inumber : SectorNo) (sectors : Nat) : Step (Volume FileDisk) Outcome := do
  match ← Volume.onCache (Cache.checkFile inumber sectors) with
  | .error reason => return { ending := .failed (.unfit reason) }
  | .ok () => return { ending := .done, output := ← Volume.load inumber }

/-- Runs a command on the volume in an image, all of whose `sectors` are free. -/
def onImage (image : HostFile) (sectors : Nat) (step : Step (Volume FileDisk) Outcome) :
    Outcome × HostFile :=
  let (outcome, volume) : Outcome × Volume FileDisk :=
    match step.run (.mount { file := image } (.empty sectors)) with
    | .ok outcome volume => (outcome, volume)
    | .error fault volume => ({ ending := .crashed fault }, volume)
  match Volume.flush.run volume with
  | .ok _ volume | .error _ volume => (outcome, volume.cache.device.file)

/-- Makes an image of `sectors` sectors and stores files in it. -/
def pack (source : Source) (sectors : UInt32) (files : List String) : Outcome × HostFile :=
  onImage (HostFile.empty.resize (sectors.toNat * sectorSize)) sectors.toNat
    (packStep source files)

def cat (image : HostFile) (inumber : SectorNo) : Outcome × HostFile :=
  let sectors := image.size / sectorSize
  onImage image sectors (catStep inumber sectors)

end Residency.Packer
