import Residency.Fault
import Residency.LittleEndian

/-!
# Descriptors

A file is one descriptor sector and a run of data sectors.  The descriptor says where the run
starts and how many bytes the file has; on the disk it takes twelve bytes, and the rest of its
sector is zero:

* bytes 0 to 3: the first data sector;
* bytes 4 to 7: the length in bytes, signed;
* bytes 8 to 11: `Descriptor.signature`, by which a descriptor is recognised.

`Descriptor.encode` and `Descriptor.decode` pass between descriptors and sectors.
`Descriptor.nextPiece?` cuts a request for a range of bytes of the file at the sector boundaries.
-/

namespace Residency

structure Descriptor where
  start : SectorNo
  /-- The length in bytes; a negative one stands for none. -/
  length : Int32
  /-- What the sector has in the place of the signature. -/
  mark : UInt32
deriving DecidableEq

structure Piece where
  sector : SectorNo
  offset : Nat
  length : Nat
deriving DecidableEq

namespace Descriptor

/-- The mark of a sector that holds a descriptor. -/
def signature : UInt32 := 0x494e4f44

abbrev maxLength : Nat := 0x7fffffff

def ofRun (start : SectorNo) (length : Int32) : Descriptor :=
  { start, length, mark := signature }

def isValid (d : Descriptor) : Bool :=
  d.mark == signature

def size (d : Descriptor) : Nat :=
  d.length.toInt.toNat

def sectors (d : Descriptor) : Nat :=
  sectorsFor d.size

def encode (d : Descriptor) : Sector :=
  .ofBytes (LittleEndian.bytes d.start.raw ++ LittleEndian.bytes d.length.toUInt32 ++
    LittleEndian.bytes d.mark)

/-- The descriptor that the contents of a sector stand for, whether or not it is valid. -/
def decode (data : Sector) : Descriptor where
  start := ⟨wordAt 0⟩
  length := (wordAt 4).toInt32
  mark := wordAt 8
where
  wordAt (offset : Nat) : UInt32 :=
    LittleEndian.word (data.byteAt offset) (data.byteAt (offset + 1)) (data.byteAt (offset + 2))
      (data.byteAt (offset + 3))

/-- The data sector of the byte at `position`, none past the end of the file; the number of the
    sector may not fit. -/
def sectorOf (d : Descriptor) (position : Nat) : Except Fault (Option SectorNo) :=
  if position < d.size then
    match d.start.advance? (position / sectorSize) with
    | some sector => .ok (some sector)
    | none => .error .overflow
  else .ok none

/-- The first piece of a request for `count` bytes from `position` on: as many bytes as the
    request, the file and the sector have left.  A sector number that does not fit is noticed
    even where the request has nothing left. -/
def nextPiece? (d : Descriptor) (position count : Nat) : Except Fault (Option Piece) := do
  match ← d.sectorOf position with
  | none => return none
  | some sector =>
    let offset := position % sectorSize
    let length := min count (min (d.size - position) (sectorSize - offset))
    return if length = 0 then none else some { sector, offset, length }

/-- A piece is not empty and not longer than what was asked for. -/
theorem length_of_nextPiece? {d : Descriptor} {position count : Nat} {piece : Piece}
    (h : d.nextPiece? position count = .ok (some piece)) :
    0 < piece.length ∧ piece.length ≤ count := by
  simp only [nextPiece?, bind, Except.bind, pure, Except.pure] at h
  split at h
  · cases h
  · split at h
    · cases h
    · split at h
      · cases h
      · cases h
        simp only
        omega

end Descriptor

end Residency
