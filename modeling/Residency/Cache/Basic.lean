import Residency.Cache.Sweep
import Residency.Device.Basic

/-!
# The sector cache

A `Cache` keeps the sectors that were used last in a fixed number of slots in front of a device.
Every access goes to the slot of its sector; bytes reach the device only when a changed sector gives
up its slot, or by `Cache.flush`.

* `Cache.read` and `Cache.write` access a range of bytes inside one sector;
* `Cache.slotFor` finds the slot of a sector, or brings the sector into a slot that is given up;
* `Cache.flush` writes every changed sector to the device;
* `Cache.view` is what reading a sector gives, whether it is in a slot or not.
-/

namespace Residency

abbrev slotCount : Nat := 64

namespace Cache

structure Stats where
  hits : UInt64 := 0
  misses : UInt64 := 0
  /-- Changed sectors written to the device because their slot was given up. -/
  writeBacks : UInt64 := 0
deriving DecidableEq

end Cache

structure Cache (δ : Type) where
  device : δ
  slots : Vector Slot slotCount := .replicate slotCount {}
  /-- The slot that is looked at next when one has to be given up. -/
  hand : Fin slotCount := ⟨0, Nat.succ_pos _⟩
  stats : Cache.Stats := {}

namespace Cache

variable {δ : Type}

def slot (cache : Cache δ) (i : Fin slotCount) : Slot :=
  cache.slots[i]

def find? (cache : Cache δ) (sector : SectorNo) : Option (Fin slotCount) :=
  (List.finRange slotCount).find? fun i => (cache.slot i).sector == some sector

def resident (cache : Cache δ) : List SectorNo :=
  cache.slots.toList.filterMap (·.sector)

def modifySlot (cache : Cache δ) (i : Fin slotCount) (f : Slot → Slot) : Cache δ :=
  { cache with slots := cache.slots.set i (f (cache.slot i)) }

def modifyStats (cache : Cache δ) (f : Stats → Stats) : Cache δ :=
  { cache with stats := f cache.stats }

/-- What reading a sector gives: the bytes of its slot if it has one, else those on the device. -/
def view (cache : Cache δ) (onDevice : δ → SectorNo → Sector) (sector : SectorNo) : Sector :=
  match cache.find? sector with
  | some i => (cache.slot i).data
  | none => onDevice cache.device sector

/-- The slot of a sector that is in one, which counts as a hit; none if the sector is in no slot. -/
def lookup (sector : SectorNo) (mode : Access) : Step (Cache δ) (Option (Fin slotCount)) := do
  match (← get).find? sector with
  | some i =>
    modify (·.modifyStats fun stats => { stats with hits := stats.hits + 1 })
    modify (·.modifySlot i (·.touch mode))
    return some i
  | none => return none

variable [BlockDevice δ]

/-- Writes a changed slot to the device; says whether there was anything to write. -/
def saveSlot (i : Fin slotCount) : Step (Cache δ) Bool := do
  match ((← get).slot i).unsaved? with
  | some (sector, data) =>
    Step.on Cache.device (fun device cache => { cache with device }) (writeBlock sector data)
    return true
  | none => return false

/-- Reads a sector into the buffer of a slot, which so far holds another one or none. -/
def loadSlot (i : Fin slotCount) (sector : SectorNo) : Step (Cache δ) Unit :=
  Step.on (fun cache => ((cache.slot i).data, cache.device))
    (fun (data, device) cache => { cache.modifySlot i ({ · with data }) with device })
    (readBlock sector)

/-- Moves the hand to a slot that can be given up and leaves it behind that slot. -/
def chooseSlot : Step (Cache δ) (Fin slotCount) :=
  modifyGet fun cache =>
    let stop := sweep cache.slots cache.hand
    (stop.chosen, { cache with slots := stop.slots, hand := nextInCircle stop.chosen })

/-- Brings a sector into a slot, after the sector that gives it up is safe on the device. -/
def bringIn (sector : SectorNo) (mode : Access) : Step (Cache δ) (Fin slotCount) := do
  modify (·.modifyStats fun stats => { stats with misses := stats.misses + 1 })
  let i ← chooseSlot
  if ← saveSlot i then
    modify (·.modifyStats fun stats => { stats with writeBacks := stats.writeBacks + 1 })
  loadSlot i sector
  modify (·.modifySlot i (·.hold sector mode))
  return i

/-- The slot of a sector, which is brought into one if it has none. -/
def slotFor (sector : SectorNo) (mode : Access) : Step (Cache δ) (Fin slotCount) := do
  if let some i ← lookup sector mode then return i
  -- before the hand moves, the sector is looked for again, in case it has been brought in since
  if let some i ← lookup sector mode then return i
  bringIn sector mode

/-- Refuses a range of bytes that does not lie inside a sector. -/
def ensureInside (offset length : Nat) : Step (Cache δ) Unit := do
  let stop ← addSizes offset length
  Step.ensure (stop ≤ sectorSize) .rangeBeyondSector

def read (sector : SectorNo) (offset length : Nat) : Step (Cache δ) (List UInt8) := do
  ensureInside offset length
  let i ← slotFor sector .read
  return ((← get).slot i).data.slice offset length

def write (sector : SectorNo) (offset : Nat) (data : List UInt8) : Step (Cache δ) Unit := do
  ensureInside offset data.length
  let i ← slotFor sector .write
  modify (·.modifySlot i fun slot => { slot with data := slot.data.overwrite offset data })

/-- Writes one slot to the device if it is changed, and keeps its sector in it. -/
def flushSlot (i : Fin slotCount) : Step (Cache δ) Unit := do
  if ← saveSlot i then
    modify (·.modifySlot i ({ · with dirty := false }))

def flush : Step (Cache δ) Unit :=
  (List.finRange slotCount).forM flushSlot

end Cache

end Residency
