import Residency.Sector

/-!
# Cache slots

A `Slot` is the place of one sector in the cache.  It is empty, or it holds a sector with two
flags: whether the sector was used since the hand of the cache last passed, and whether its bytes
differ from those on the device.
-/

namespace Residency

inductive Access where
  | read
  | write
deriving DecidableEq

/-- The place of one sector in the cache. -/
structure Slot where
  data : Sector := .zero
  sector : Option SectorNo := none
  /-- Whether the sector was used since the hand last passed. -/
  accessed : Bool := false
  /-- Whether the device lacks what the slot holds. -/
  dirty : Bool := false

namespace Slot

/-- Whether the hand has to pass the slot: it holds a sector that was used since the last time. -/
def isSpared (slot : Slot) : Bool :=
  slot.sector.isSome && slot.accessed

def pass (slot : Slot) : Slot :=
  { slot with accessed := false }

def touch (slot : Slot) (mode : Access) : Slot :=
  { slot with accessed := true, dirty := slot.dirty || mode == .write }

/-- The slot after `sector` was brought into it: a sector that is only read has yet to earn its
    second chance. -/
def hold (slot : Slot) (sector : SectorNo) (mode : Access) : Slot :=
  { slot with
    sector := some sector
    accessed := mode == .write
    dirty := mode == .write }

/-- The sector and the bytes that the device lacks, if it does. -/
def unsaved? (slot : Slot) : Option (SectorNo × Sector) :=
  if slot.dirty then slot.sector.map (·, slot.data) else none

end Slot

end Residency
