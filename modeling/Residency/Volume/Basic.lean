import Residency.Bitmap
import Residency.Volume.Contents
import Residency.Volume.Inode

/-!
# Volumes

A `Volume` is a cached device, the map of its free sectors and its open files.  A file is made with
a fixed length by `Volume.create`, opened by the sector of its descriptor, and gives its sectors
back when it was removed and its last opener closes it.

The volume keeps an account of what it asked of the map and of what it warned about, the latest
first.
-/

namespace Residency

inductive NoSpace where
  | noSpace
deriving DecidableEq

inductive MapCall where
  | allocate (count : Nat) (found : Option SectorNo)
  | release (start : SectorNo) (count : Nat)
deriving DecidableEq

instance : ToString MapCall where
  toString
    | .allocate count (some sector) => s!"allocate {count} = {sector}"
    | .allocate count none => s!"allocate {count} = none"
    | .release start count => s!"release {start} {count}"

structure BadSignature where
  sector : SectorNo
deriving DecidableEq

instance : ToString BadSignature :=
  ⟨fun warning => s!"inode #{warning.sector} has a bad magic number"⟩

structure Volume (δ : Type) where
  cache : Cache δ
  map : Bitmap
  files : OpenFiles := {}
  mapCalls : List MapCall := []
  warnings : List BadSignature := []

namespace Volume

variable {δ : Type}

/-- A volume with an empty cache and no open files. -/
def mount (device : δ) (map : Bitmap) : Volume δ :=
  { cache := { device }, map }

def openFileCount (volume : Volume δ) : Nat :=
  volume.files.registry.size

def inode? (volume : Volume δ) (id : InodeId) : Option Inode :=
  volume.files.get? id

/-- The volume with empty accounts. -/
def clearAccounts (volume : Volume δ) : Volume δ :=
  { volume with mapCalls := [], warnings := [] }

/-! ## Steps of the parts -/

def onCache {α : Type} (step : Step (Cache δ) α) : Step (Volume δ) α :=
  Step.on Volume.cache (fun cache volume => { volume with cache }) step

def onMap {α : Type} (step : Step Bitmap α) : Step (Volume δ) α :=
  Step.on Volume.map (fun map volume => { volume with map }) step

def onFiles {α : Type} (step : Step OpenFiles α) : Step (Volume δ) α :=
  Step.on Volume.files (fun files volume => { volume with files }) step

def onInode {α : Type} (id : InodeId) (step : Step Inode α) : Step (Volume δ) α :=
  onFiles (OpenFiles.onInode id step)

def noteMapCall (call : MapCall) : Step (Volume δ) Unit :=
  modify fun volume => { volume with mapCalls := call :: volume.mapCalls }

def warn (warning : BadSignature) : Step (Volume δ) Unit :=
  modify fun volume => { volume with warnings := warning :: volume.warnings }

/-! ## Free sectors -/

def allocate (count : Nat) : Step (Volume δ) (Option SectorNo) := do
  let found ← onMap (modifyGet (·.allocate count))
  noteMapCall (.allocate count found)
  return found

/-- Gives sectors back; the request is on the account even if it fails. -/
def release (start : SectorNo) (count : Nat) : Step (Volume δ) Unit := do
  noteMapCall (.release start count)
  onMap (Bitmap.release start count)

def reserve (start : SectorNo) (count : Nat) : Step (Volume δ) Unit :=
  onMap (Bitmap.reserve start count)

/-! ## Open files -/

variable [BlockDevice δ]

/-- Fills `count` sectors from `start` on with zeros. -/
def zeroFill (start : SectorNo) (count : Nat) : Step (Volume δ) Unit :=
  (List.range count).forM fun i => do
    let sector ← start.advance i
    onCache (Cache.write sector 0 (Block.zero : Sector).bytes)

/-- Makes a file of `length` zeros whose descriptor is in `sector`.  Nothing changes if the length
    cannot be written down or there are not enough sectors. -/
def create (sector : SectorNo) (length : Nat) : Step (Volume δ) (Except NoSpace Unit) := do
  if Descriptor.maxLength < length then return .error .noSpace
  let sectors := sectorsFor length
  let some start ← allocate sectors | return .error .noSpace
  onCache (Cache.write sector 0 (Descriptor.ofRun start (.ofNat length)).encode.bytes)
  zeroFill start sectors
  return .ok ()

/-- Opens the file whose descriptor is in `sector`: the inode under which the sector is open, or
    else a new one.  A sector without a valid descriptor is only warned about. -/
def openFile (sector : SectorNo) : Step (Volume δ) InodeId := do
  match (← get).files.registry[sector]? with
  | some id =>
    onInode id Inode.addOpener
    return id
  | none =>
    let descriptor ← onCache (Cache.readDescriptor sector)
    unless descriptor.isValid do warn { sector }
    onFiles (OpenFiles.add { sector, descriptor })

def reopen (id : InodeId) : Step (Volume δ) Unit :=
  onInode id Inode.addOpener

/-- Closes a file.  With its last opener the sector leaves the registry, and a file that was
    removed gives back its sectors. -/
def close (id : InodeId) : Step (Volume δ) Unit := do
  if ← onInode id Inode.dropOpener then
    let inode ← onInode id get
    modify fun volume => { volume with files := volume.files.unregister inode.sector }
    if inode.removed then
      release inode.sector 1
      release inode.descriptor.start inode.descriptor.sectors

def remove (id : InodeId) : Step (Volume δ) Unit :=
  onInode id Inode.remove

def deny (id : InodeId) : Step (Volume δ) Unit :=
  onInode id Inode.deny

def allow (id : InodeId) : Step (Volume δ) Unit :=
  onInode id Inode.allow

/-- Reads from `position` on into `buffer` as far as the file reaches; gives the number of bytes
    read and the buffer. -/
def readAt (id : InodeId) (position : Nat) (buffer : List UInt8) :
    Step (Volume δ) (Nat × List UInt8) := do
  let inode ← onInode id get
  let found ← onCache (Cache.readFile inode.descriptor position buffer.length)
  return (found.length, found ++ buffer.drop found.length)

/-- Writes `data` from `position` on as far as the file reaches, unless an opener forbids it; gives
    the number of bytes written. -/
def writeAt (id : InodeId) (position : Nat) (data : List UInt8) : Step (Volume δ) Nat := do
  let inode ← onInode id get
  if 0 < inode.denials then return 0
  onCache (Cache.writeFile inode.descriptor position data.length data)

/-! ## The cache -/

def flush : Step (Volume δ) Unit :=
  onCache Cache.flush

/-- Saves the cache and goes on with an empty one and no open files, also when saving fails. -/
def remount : Step (Volume δ) Unit :=
  Step.on Volume.cache
    (fun cache volume => { volume with cache := { device := cache.device }, files := {} })
    Cache.flush

end Volume

end Residency
