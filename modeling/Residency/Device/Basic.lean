import Residency.Fault

/-!
# Block devices

A block device moves whole sectors.  Reading fills a buffer, and a reading that fails may already
have filled the beginning of it, which is why the buffer is part of the state of the step.

`Traced` is a device that keeps an account of the transfers asked of it, the failing ones
included.
-/

namespace Residency

/-- A device that reads and writes whole sectors. -/
class BlockDevice (δ : Type) where
  /-- Reads a sector into the buffer beside the device. -/
  readBlock : SectorNo → Step (Sector × δ) Unit
  writeBlock : SectorNo → Sector → Step δ Unit

export BlockDevice (readBlock writeBlock)

inductive Transfer where
  | read (sector : SectorNo)
  | write (sector : SectorNo) (data : Sector)
deriving DecidableEq

/-- A device with the account of its transfers. -/
structure Traced (δ : Type) where
  device : δ
  /-- The transfers since the account was opened, the latest first. -/
  account : List Transfer := []

namespace Traced

variable {δ : Type}

def note (transfer : Transfer) (traced : Traced δ) : Traced δ :=
  { traced with account := transfer :: traced.account }

def transfers (traced : Traced δ) : List Transfer :=
  traced.account.reverse

def clear (traced : Traced δ) : Traced δ :=
  { traced with account := [] }

instance [BlockDevice δ] : BlockDevice (Traced δ) where
  readBlock sector := do
    modify fun (buffer, traced) => (buffer, traced.note (.read sector))
    Step.on (fun (buffer, traced) => (buffer, traced.device))
      (fun (buffer, device) (_, traced) => (buffer, { traced with device }))
      (readBlock sector)
  writeBlock sector data := do
    modify (note (.write sector data))
    Step.on Traced.device (fun device traced => { traced with device }) (writeBlock sector data)

end Traced

end Residency
