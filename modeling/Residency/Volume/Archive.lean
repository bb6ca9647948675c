import Residency.Volume.Basic

/-!
# Whole files

* `Volume.store` makes a file that holds the given bytes and gives the sector of its descriptor;
* `Volume.load` gives all bytes of a file;
* `Cache.checkFile` tells whether a sector of an image holds a descriptor whose data lies inside
  the image, before anything else relies on it.
-/

namespace Residency

/-- Why a sector of an image cannot be read as a file. -/
inductive Defect where
  | beyondImage (sector : SectorNo) (sectors : Nat)
  | noDescriptor (sector : SectorNo)
  /-- The data would end past the end of the image. -/
  | dataBeyondImage (sector : SectorNo) (stop : Nat)
deriving DecidableEq

def Defect.message : Defect → String
  | .beyondImage sector sectors => s!"inode {sector} is beyond the image ({sectors} sectors)"
  | .noDescriptor sector => s!"sector {sector} holds no inode"
  | .dataBeyondImage sector stop =>
    s!"data of inode {sector} ends at sector {stop}, beyond the image"

namespace Cache

variable {δ : Type} [BlockDevice δ]

/-- Looks for a file whose descriptor is in `sector` of an image of `sectors` sectors. -/
def checkFile (sector : SectorNo) (sectors : Nat) : Step (Cache δ) (Except Defect Unit) := do
  if sectors ≤ sector.toNat then return .error (.beyondImage sector sectors)
  let descriptor ← readDescriptor sector
  if !descriptor.isValid then return .error (.noDescriptor sector)
  let stop ← addSizes descriptor.start.toNat descriptor.sectors
  if sectors < stop then return .error (.dataBeyondImage sector stop)
  return .ok ()

end Cache

namespace Volume

variable {δ : Type} [BlockDevice δ]

/-- Makes a file that holds `data`; gives the sector of its descriptor. -/
def store (data : List UInt8) : Step (Volume δ) (Except NoSpace SectorNo) := do
  let some sector ← allocate 1 | return .error .noSpace
  match ← create sector data.length with
  | .error reason =>
    release sector 1
    return .error reason
  | .ok () =>
    let id ← openFile sector
    let written ← writeAt id 0 data
    close id
    Step.ensure (written == data.length) .shortStore
    return .ok sector

/-- All bytes of the file whose descriptor is in `sector`. -/
def load (sector : SectorNo) : Step (Volume δ) (List UInt8) := do
  let id ← openFile sector
  let inode ← onInode id get
  let data ← onCache (Cache.readFile inode.descriptor 0 inode.descriptor.size)
  close id
  return data

end Volume

end Residency
