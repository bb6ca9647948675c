import Residency.Fault

/-!
# The map of free sectors

A `Bitmap` keeps one bit for each sector it manages, in words of 64 bits; a set bit marks a sector
in use.  The last word may have bits past the capacity.

* `Bitmap.allocate` marks the first run of free sectors that is long enough;
* `Bitmap.reserve` and `Bitmap.release` mark and free a given range, sector by sector, and stop at
  the first one that is not as it should be;
* `Bitmap.isUsed` reads one bit.
-/

namespace Residency

abbrev wordBits : Nat := 64

/-- Which of `capacity` sectors are in use. -/
structure Bitmap where
  capacity : Nat
  words : Vector UInt64 ((capacity + (wordBits - 1)) / wordBits)

namespace Bitmap

def empty (capacity : Nat) : Bitmap where
  capacity
  words := .replicate _ 0

/-- Whether the bit of a sector is set; there is none past the last word. -/
def isUsed (map : Bitmap) (sector : Nat) : Bool :=
  match map.words[sector / wordBits]? with
  | some word => word.toBitVec.getLsbD (sector % wordBits)
  | none => false

def flipBit (word : UInt64) (position : Nat) : UInt64 :=
  word ^^^ (1 <<< UInt64.ofNat position)

def flip (map : Bitmap) (sector : Nat) : Bitmap :=
  if h : sector / wordBits < (map.capacity + (wordBits - 1)) / wordBits then
    { map with
      words := map.words.set (sector / wordBits)
        (flipBit map.words[sector / wordBits] (sector % wordBits)) }
  else map

def freeSectors (map : Bitmap) : Nat :=
  (List.range map.capacity).countP (!map.isUsed ·)

/-- The start of the first `count` free sectors in a row.  The sectors before `next` have been
    looked at and the last `run` of them are free; `left` sectors from `next` on remain. -/
def findRun (map : Bitmap) (count : Nat) : (left next run : Nat) → Option Nat
  | 0, _, _ => none
  | left + 1, next, run =>
    if map.isUsed next then map.findRun count left (next + 1) 0
    else if run + 1 = count then some (next - run)
    else map.findRun count left (next + 1) (run + 1)

def flipRange (map : Bitmap) (start : Nat) : (count : Nat) → Bitmap
  | 0 => map
  | count + 1 => (map.flip start).flipRange (start + 1) count

/-- The number of the first sector of the first `count` free ones in a row, cut to the width of a
    sector number, and the map in which they are in use.  Nothing at all is found at sector zero. -/
def allocate (map : Bitmap) (count : Nat) : Option SectorNo × Bitmap :=
  if count = 0 then (some default, map)
  else
    match map.findRun count map.capacity 0 0 with
    | some start => (some (.ofNat start), map.flipRange start count)
    | none => (none, map)

/-- Changes the bits of `count` sectors from `next` on, each of which has to be as `used` says
    and is refused with `fault` if not. -/
def flipEach (used : Bool) (fault : Nat → Fault) (next : Nat) : (count : Nat) → Step Bitmap Unit
  | 0 => pure ()
  | count + 1 => do
    let map ← get
    Step.ensure (next / wordBits < map.words.size) (.outOfBounds map.words.size (next / wordBits))
    Step.ensure (map.isUsed next == used) (fault next)
    set (map.flip next)
    flipEach used fault (next + 1) count

def reserve (start : SectorNo) (count : Nat) : Step Bitmap Unit := do
  let _ ← addSizes start.toNat count
  flipEach false .sectorInUse start.toNat count

def release (start : SectorNo) (count : Nat) : Step Bitmap Unit := do
  let _ ← addSizes start.toNat count
  flipEach true .sectorNotAllocated start.toNat count

end Bitmap

end Residency
