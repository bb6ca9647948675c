import Residency.Cache.Basic
import Residency.Descriptor

/-!
# The contents of a file

A file is read and written through the cache, one piece after the other, each inside one data
sector.  What lies past the end of the file is neither read nor written.

* `Cache.readFile` gives the bytes of a range, fewer where the file ends;
* `Cache.writeFile` replaces the bytes of a range and counts them.
-/

namespace Residency.Cache

variable {δ : Type} [BlockDevice δ]

def readDescriptor (sector : SectorNo) : Step (Cache δ) Descriptor := do
  return .decode (.ofBytes (← read sector 0 sectorSize))

/-- Up to `count` bytes of the file from `position` on. -/
def readFile (d : Descriptor) (position count : Nat) : Step (Cache δ) (List UInt8) :=
  match _h : d.nextPiece? position count with
  | .error fault => throw fault
  | .ok none => return []
  | .ok (some piece) => do
    let found ← read piece.sector piece.offset piece.length
    let rest ← readFile d (position + piece.length) (count - piece.length)
    return found ++ rest
termination_by count
decreasing_by have := Descriptor.length_of_nextPiece? _h; omega

/-- Replaces up to `count` bytes of the file from `position` on by those at the beginning of
    `data`; gives the number of bytes written. -/
def writeFile (d : Descriptor) (position count : Nat) (data : List UInt8) : Step (Cache δ) Nat :=
  match _h : d.nextPiece? position count with
  | .error fault => throw fault
  | .ok none => return 0
  | .ok (some piece) => do
    write piece.sector piece.offset (data.take piece.length)
    let rest ← writeFile d (position + piece.length) (count - piece.length)
      (data.drop piece.length)
    return piece.length + rest
termination_by count
decreasing_by have := Descriptor.length_of_nextPiece? _h; omega

end Residency.Cache
