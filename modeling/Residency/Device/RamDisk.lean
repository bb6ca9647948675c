import Residency.Device.Basic

/-!
# Disks in memory

A `RamDisk` has a fixed number of sectors and keeps only those that were ever written; the others
are zero.  A transfer fails exactly for a sector that is not below the number of sectors, and then
changes neither the disk nor the buffer.
-/

namespace Residency

/-- A disk of `sectors` sectors, of which those not in `contents` are zero. -/
structure RamDisk where
  sectors : Nat
  contents : Std.ExtTreeMap SectorNo Sector := ∅

namespace RamDisk

def sector (disk : RamDisk) (sector : SectorNo) : Sector :=
  disk.contents.getD sector .zero

instance : BlockDevice RamDisk where
  readBlock sector := do
    let (_, disk) ← get
    Step.ensure (sector.toNat < disk.sectors) (.unreadableSector sector)
    set (disk.sector sector, disk)
  writeBlock sector data := do
    Step.ensure (sector.toNat < (← get).sectors) (.unwritableSector sector)
    modify fun disk => { disk with contents := disk.contents.insert sector data }

def pieces (disk : RamDisk) : List (Nat × List UInt8) :=
  disk.contents.toList.map fun (sector, data) => (sector.toNat, data.bytes)

end RamDisk

end Residency
