import Residency.Sector

/-!
# Files of the host

A `HostFile` is a growing string of bytes that is kept by the sector, so that a large file of
zeros takes no room.

* `HostFile.piece` are the bytes of one sector, fewer where the file ends;
* `HostFile.writeSector` writes a whole sector and fills a gap before it with zeros;
* `HostFile.resize` cuts the file, or extends it with zeros;
* `HostFile.ofBytes` and `HostFile.bytes` pass between a file and a plain string of bytes.
-/

namespace Residency

/-- A file of `size` bytes; sectors that are not in `contents` are zero. -/
structure HostFile where
  size : Nat
  contents : Std.ExtTreeMap Nat Sector
  /-- What is kept beyond the end is zero, so that a file that grows again grows by zeros. -/
  zero_beyond : ∀ index position, size ≤ index * sectorSize + position →
    (contents.getD index .zero).byteAt position = 0

namespace HostFile

def empty : HostFile where
  size := 0
  contents := ∅
  zero_beyond index position _ := by simp

/-- How many of `size` bytes are left from the sector at `index` on. -/
def bytesFrom (size index : Nat) : Nat :=
  size - index * sectorSize

/-- The bytes of the sector at `index`, fewer than a sector where the file ends. -/
def piece (file : HostFile) (index : Nat) : List UInt8 :=
  (file.contents.getD index .zero).slice 0 (bytesFrom file.size index)

/-- Writes a whole sector, extending the file where it is too short. -/
def writeSector (file : HostFile) (index : Nat) (data : Sector) : HostFile where
  size := max file.size ((index + 1) * sectorSize)
  contents := file.contents.insert index data
  zero_beyond other position h := by
    rw [Std.ExtTreeMap.getD_insert]
    split
    next same =>
      cases Std.LawfulEqOrd.eq_of_compare same
      exact data.byteAt_eq_zero (by simp only [sectorSize] at h ⊢; omega)
    next => exact file.zero_beyond other position (by omega)

/-- The file cut to `size` bytes, or extended by zeros to that size. -/
def resize (file : HostFile) (size : Nat) : HostFile where
  size
  contents := file.contents.map fun index data => .ofBytes (data.slice 0 (bytesFrom size index))
  zero_beyond index position h := by
    rw [Std.ExtTreeMap.getD_map]
    cases file.contents[index]? with
    | none => simp
    | some data =>
      rw [Option.map_some, Option.getD_some, Block.byteAt_ofBytes,
        List.getD_eq_getElem?_getD, List.getElem?_eq_none, Option.getD_none, ite_self]
      simp only [Block.slice, List.length_take, bytesFrom]
      omega

/-- Writes `data` from the sector at `index` on, the last sector filled up with zeros. -/
def writeFrom (file : HostFile) (index : Nat) (data : List UInt8) : HostFile :=
  if data.length = 0 then file
  else
    (file.writeSector index (.ofBytes (data.take sectorSize))).writeFrom (index + 1)
      (data.drop sectorSize)
termination_by data.length
decreasing_by simp only [List.length_drop, sectorSize]; omega

def ofBytes (data : List UInt8) : HostFile :=
  (empty.writeFrom 0 data).resize data.length

def bytes (file : HostFile) : List UInt8 :=
  (List.range (sectorsFor file.size)).flatMap file.piece

def pieces (file : HostFile) : List (Nat × List UInt8) :=
  file.contents.keys.map fun index => (index, file.piece index)

end HostFile

end Residency
