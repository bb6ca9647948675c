import Residency.Block
import Std.Data.ExtTreeMap

/-!
# Sectors

A sector is the unit of every transfer between a device and memory.

* `Sector` is the contents of one;
* `SectorNo` is its number on the device, 32 bits wide;
* `sectorsFor` is how many sectors a number of bytes fills.
-/

namespace Residency

/-- Bytes in a sector. -/
abbrev sectorSize : Nat := 512

abbrev Sector := Block sectorSize

structure SectorNo where
  raw : UInt32
deriving DecidableEq, Inhabited

namespace SectorNo

instance : Ord SectorNo := ⟨compareOn SectorNo.raw⟩

instance : Std.TransOrd SectorNo :=
  inferInstanceAs (Std.TransCmp (compareOn SectorNo.raw))

instance : Std.LawfulEqOrd SectorNo where
  eq_of_compare {a b} h := by
    have hraw : a.raw = b.raw := Std.LawfulEqOrd.eq_of_compare (α := UInt32) h
    cases a; cases b; simp_all

def toNat (sector : SectorNo) : Nat :=
  sector.raw.toNat

/-- The sector of a given number; digits past 32 bits are dropped. -/
def ofNat (n : Nat) : SectorNo :=
  ⟨UInt32.ofNat n⟩

theorem toNat_lt (sector : SectorNo) : sector.toNat < UInt32.size :=
  sector.raw.toNat_lt

theorem toNat_inj {a b : SectorNo} : a.toNat = b.toNat ↔ a = b := by
  cases a; cases b
  simp only [toNat, UInt32.toNat_inj, mk.injEq]

theorem toNat_ofNat_mod (n : Nat) : (ofNat n).toNat = n % UInt32.size :=
  UInt32.toNat_ofNat'

theorem toNat_ofNat {n : Nat} (h : n < UInt32.size) : (ofNat n).toNat = n :=
  UInt32.toNat_ofNat_of_lt h

@[simp] theorem ofNat_toNat (sector : SectorNo) : ofNat sector.toNat = sector := by
  simp [ofNat, toNat]

@[simp] theorem toNat_default : (default : SectorNo).toNat = 0 := rfl

/-- The position of the sector's first byte on the device. -/
def byteOffset (sector : SectorNo) : Nat :=
  sector.toNat * sectorSize

/-- The sector `n` places further, if its number fits. -/
def advance? (sector : SectorNo) (n : Nat) : Option SectorNo :=
  if sector.toNat + n < UInt32.size then some (ofNat (sector.toNat + n)) else none

theorem advance?_of_lt {sector : SectorNo} {n : Nat} (h : sector.toNat + n < UInt32.size) :
    sector.advance? n = some (ofNat (sector.toNat + n)) :=
  if_pos h

instance : ToString SectorNo := ⟨fun sector => toString sector.toNat⟩

end SectorNo

/-- How many sectors hold `bytes` bytes. -/
def sectorsFor (bytes : Nat) : Nat :=
  (bytes + (sectorSize - 1)) / sectorSize

end Residency
