import Residency.Device.Basic
import Residency.Device.HostFile

/-!
# Disks on a file

A `FileDisk` keeps its sectors one after the other in a file of the host.  Writing extends the
file and never fails; reading fails where the file ends before the sector does, after the bytes
that exist have reached the buffer.  The first failure takes the disk out of service: every later
transfer fails and the file does not change any more.
-/

namespace Residency

structure FileDisk where
  file : HostFile
  poisoned : Bool := false

namespace FileDisk

/-- The bytes of a sector that the file has, whether or not the disk is in service. -/
def sector (disk : FileDisk) (sector : SectorNo) : List UInt8 :=
  disk.file.piece sector.toNat

instance : BlockDevice FileDisk where
  readBlock sector := do
    let (buffer, disk) ← get
    Step.ensure (!disk.poisoned) .poisoned
    let found := disk.sector sector
    let complete := found.length == sectorSize
    set (buffer.overwrite 0 found, { disk with poisoned := !complete })
    Step.ensure complete .incompleteSector
  writeBlock sector data := do
    Step.ensure (!(← get).poisoned) .poisoned
    modify fun disk => { disk with file := disk.file.writeSector sector.toNat data }

end FileDisk

end Residency
