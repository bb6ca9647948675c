import Residency.Proofs.Packer.Image

/-!
# The layout of an image

Files are laid out one behind the other from sector one on, each as its descriptor followed by its
bytes; what the files leave of their last sectors, sector zero and the sectors behind the files
are zero.

* `behind` is the sector behind some files, and `Fits` says that it is not behind the image;
* `layout` is the image, byte by byte;
* `Packed` sectors hold the layout up to a sector from which on all are free and zero, and
  `Packed.store` adds a file to them.
-/

namespace Residency.Packer

/-! ## Positions -/

/-- How many sectors a file takes, that of its descriptor among them. -/
def sectorsTaken (data : List UInt8) : Nat :=
  1 + sectorsFor data.length

/-- The sector behind files of which the first is in sector `first`. -/
def behind (first : Nat) (files : List (List UInt8)) : Nat :=
  first + (files.map sectorsTaken).sum

/-- Files fit into an image from sector `first` on: each has a length that can be written down, and
there are enough sectors. -/
def Fits (sectors first : Nat) (files : List (List UInt8)) : Prop :=
  (∀ data ∈ files, data.length ≤ Descriptor.maxLength) ∧ behind first files ≤ sectors

instance (sectors first : Nat) (files : List (List UInt8)) : Decidable (Fits sectors first files) :=
  inferInstanceAs (Decidable (_ ∧ _))

def descriptorBytes (start length : Nat) : List UInt8 :=
  LittleEndian.digits start ++ LittleEndian.digits length ++ LittleEndian.digits 0x494e4f44 ++
    List.replicate (sectorSize - 12) 0

/-- The sectors of a file with its descriptor in sector `first`.  The data of an empty file starts
nowhere. -/
def fileBytes (first : Nat) (data : List UInt8) : List UInt8 :=
  descriptorBytes (if data = [] then 0 else first + 1) data.length ++ data ++
    List.replicate (sectorsFor data.length * sectorSize - data.length) 0

/-- The sectors of a volume to which files were only ever added: those below `next` hold `front`,
and the others are free and zero. -/
structure Packed (N next : Nat) (front : List UInt8) (sectors : SectorNo → Sector) (map : Bitmap) :
    Prop where
  inside : next ≤ N
  capacity : map.capacity = N
  used : map.UsedBelow next
  front : sectorBytes (fun index => sectors (.ofNat index)) next = front
  blank : ∀ s, next ≤ s.toNat → sectors s = .zero

/-- The data of a file starts behind its descriptor, if there is any. -/
def startOf (next : Nat) (data : List UInt8) : SectorNo :=
  .ofNat (if data = [] then 0 else next + 1)

section Storing

variable {N next : Nat} {front : List UInt8} {sectors : SectorNo → Sector} {map : Bitmap}
  {data : List UInt8}

theorem sectorsFor_eq_zero_iff : sectorsFor data.length = 0 ↔ data = [] := by
  rw [← List.length_eq_zero_iff]
  simp only [sectorsFor, sectorSize]
  omega

theorem toNat_startOf (room : next + sectorsTaken data ≤ N) (addressable : N ≤ UInt32.size) :
    (startOf next data).toNat = if data = [] then 0 else next + 1 := by
  apply SectorNo.toNat_ofNat
  split
  next => decide
  next some_data =>
    have := mt sectorsFor_eq_zero_iff.mp some_data
    simp only [sectorsTaken] at room
    omega

theorem Packed.taken (packed : Packed N next front sectors map) (inside : next + 1 ≤ N) :
    (map.flipRange next 1).capacity = N ∧ (map.flipRange next 1).UsedBelow (next + 1) := by
  rw [Bitmap.capacity_flipRange, packed.capacity]
  exact ⟨rfl, packed.used.flipRange (by rw [packed.capacity]; exact inside)⟩

theorem stored_file (addressable : N ≤ UInt32.size) (room : next + sectorsTaken data ≤ N)
    (small : data.length ≤ Descriptor.maxLength) (sectors : SectorNo → Sector) :
    sectorBytes (fun index => stored sectors (.ofNat next) (startOf next data) data
      (.ofNat (next + index))) (sectorsTaken data) = fileBytes next data := by
  have start := toNat_startOf room addressable
  have bound : next + (1 + sectorsFor data.length) ≤ UInt32.size := Nat.le_trans room addressable
  rw [sectorsTaken, sectorBytes_add, fileBytes, List.append_assoc]
  congr 1
  · -- the descriptor
    rw [sectorBytes_succ, sectorBytes_zero, List.nil_append, Nat.add_zero, stored, if_pos rfl,
      Descriptor.encode_ofRun _ small, Block.bytes_ofBytes (by simp [sectorSize]), start,
      descriptorBytes]
    simp only [List.length_append, LittleEndian.length_digits]
  · -- the data
    have cut : ∀ index < sectorsFor data.length,
        stored sectors (.ofNat next) (startOf next data) data (.ofNat (next + (1 + index))) =
          .ofBytes (data.drop (index * sectorSize)) := by
      intro index small
      have some_data : data ≠ [] := mt sectorsFor_eq_zero_iff.mpr (by omega)
      rw [if_neg some_data] at start
      have number : (SectorNo.ofNat (next + (1 + index))).toNat = next + (1 + index) :=
        SectorNo.toNat_ofNat (by omega)
      have first : (SectorNo.ofNat next).toNat = next := SectorNo.toNat_ofNat (by omega)
      have different : SectorNo.ofNat (next + (1 + index)) ≠ .ofNat next :=
        mt (congrArg SectorNo.toNat) (by rw [number, first]; omega)
      rw [stored, if_neg different, if_pos (by omega), number, start]
      congr 3
      omega
    rw [sectorBytes_congr cut, sectorBytes_ofBytes]
    simp only [sectorsFor, sectorSize]
    omega

theorem Packed.store (packed : Packed N next front sectors map) (addressable : N ≤ UInt32.size)
    (room : next + sectorsTaken data ≤ N) (small : data.length ≤ Descriptor.maxLength)
    {mapAfter : Bitmap} (capacity : mapAfter.capacity = N)
    (used : mapAfter.UsedBelow (next + sectorsTaken data)) :
    Packed N (next + sectorsTaken data) (front ++ fileBytes next data)
      (stored sectors (.ofNat next) (startOf next data) data) mapAfter := by
  have start := toNat_startOf room addressable
  have bound : next + (1 + sectorsFor data.length) ≤ UInt32.size := Nat.le_trans room addressable
  have first : (SectorNo.ofNat next).toNat = next := SectorNo.toNat_ofNat (by omega)
  -- sectors before the file and behind it are as they were
  have outside (s : SectorNo) (apart : s.toNat < next ∨ next + sectorsTaken data ≤ s.toNat) :
      stored sectors (.ofNat next) (startOf next data) data s = sectors s := by
    simp only [sectorsTaken] at apart
    have different : s ≠ .ofNat next := mt (congrArg SectorNo.toNat) (by rw [first]; omega)
    rw [stored, if_neg different, if_neg]
    rw [start]
    split
    next empty =>
      have := sectorsFor_eq_zero_iff.mpr empty
      omega
    next => omega
  refine ⟨room, capacity, used, ?_, ?_⟩
  · rw [sectorBytes_add, stored_file addressable room small, ← packed.front]
    congr 1
    apply sectorBytes_congr
    intro index before
    apply outside
    rw [SectorNo.toNat_ofNat (by omega)]
    exact Or.inl before
  · intro s behind
    rw [outside s (Or.inr behind)]
    exact packed.blank s (by omega)

end Storing

end Residency.Packer
