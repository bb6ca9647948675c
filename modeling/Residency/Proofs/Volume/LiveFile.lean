import Residency.Proofs.Volume.Archive

/-!
# Live files

A `LiveFile` is a file that was stored and whose sectors have not been released, with the bytes it
has by now.  That it `Stands` in the sectors of a volume means that they hold its descriptor and
these bytes.

* `LiveFile.Stands.congr`: a file stands for as long as its own sectors are left alone;
* `LiveFile.stands_stored` and `LiveFile.Stands.spliced`: it stands after it was stored, and after
  it was written to, with the bytes that were written;
* `LiveFile.Stands.bytes_eq`: its bytes are what is read.
-/

namespace Residency

structure LiveFile where
  /-- The sector of the descriptor, by which the file is known. -/
  sector : SectorNo
  start : SectorNo
  contents : List UInt8
deriving DecidableEq

namespace LiveFile

def descriptor (file : LiveFile) : Descriptor :=
  .ofRun file.start (.ofNat file.contents.length)

/-- The numbers of the sectors that the file owns. -/
def sectors (file : LiveFile) : List Nat :=
  file.sector.toNat :: List.range' file.start.toNat (sectorsFor file.contents.length)

/-- Whether an inode was made for this file, or for one that was just like it. -/
def IsUnder (file : LiveFile) (inode : Inode) : Prop :=
  file.sector = inode.sector ∧ file.descriptor = inode.descriptor

instance (file : LiveFile) (inode : Inode) : Decidable (file.IsUnder inode) :=
  inferInstanceAs (Decidable (_ ∧ _))

/-- The file after a write, which changes its bytes as far as it reaches. -/
def overwritten (file : LiveFile) (position : Nat) (data : List UInt8) : LiveFile :=
  { file with contents := overwrite file.contents position data }

@[simp] theorem descriptor_overwritten (file : LiveFile) (position : Nat) (data : List UInt8) :
    (file.overwritten position data).descriptor = file.descriptor := by
  simp only [descriptor, overwritten, length_overwrite]

@[simp] theorem sectors_overwritten (file : LiveFile) (position : Nat) (data : List UInt8) :
    (file.overwritten position data).sectors = file.sectors := by
  simp only [sectors, overwritten, length_overwrite]

/-- The sectors, of which the first `N` are used, hold a file. -/
structure Stands (file : LiveFile) (N : Nat) (sectors : SectorNo → Sector) : Prop where
  small : file.contents.length ≤ Descriptor.maxLength
  inside : file.sector.toNat < N
  within : file.start.toNat + sectorsFor file.contents.length ≤ N
  described : Descriptor.decode (sectors file.sector) = file.descriptor
  holds : ∀ position (before : position < file.contents.length),
    file.descriptor.byteOf sectors position = file.contents[position]

variable {file : LiveFile} {N : Nat} {before after : SectorNo → Sector}

namespace Stands

theorem size (stands : file.Stands N before) : file.descriptor.size = file.contents.length :=
  Descriptor.size_ofRun file.start stands.small

theorem sectors_eq (stands : file.Stands N before) :
    file.descriptor.sectors = sectorsFor file.contents.length :=
  congrArg sectorsFor stands.size

theorem run_within (stands : file.Stands N before) :
    file.descriptor.start.toNat + file.descriptor.sectors ≤ N := by
  rw [stands.sectors_eq]
  exact stands.within

/-- The sector of a byte of the file, which is one of the file's. -/
theorem toNat_sectorAt (stands : file.Stands N before) (addressable : N ≤ UInt32.size)
    {position : Nat} (inFile : position < file.contents.length) :
    (file.descriptor.sectorAt position).toNat = file.start.toNat + position / sectorSize ∧
      position / sectorSize < sectorsFor file.contents.length := by
  have inDescriptor : position < file.descriptor.size := by rwa [stands.size]
  refine ⟨Descriptor.toNat_sectorAt (Nat.le_trans stands.run_within addressable) inDescriptor, ?_⟩
  rw [← stands.sectors_eq]
  exact Descriptor.div_lt_sectors inDescriptor

theorem congr (stands : file.Stands N before) (addressable : N ≤ UInt32.size)
    (same : ∀ s : SectorNo, s.toNat ∈ file.sectors → after s = before s) :
    file.Stands N after where
  small := stands.small
  inside := stands.inside
  within := stands.within
  described := by
    rw [same file.sector (List.mem_cons_self ..)]
    exact stands.described
  holds := by
    intro position inFile
    obtain ⟨number, index⟩ := stands.toNat_sectorAt addressable inFile
    have owned : (file.descriptor.sectorAt position).toNat ∈ file.sectors := by
      rw [number]
      exact List.mem_cons_of_mem _
        (List.mem_range'_1.mpr ⟨Nat.le_add_right .., Nat.add_lt_add_left index _⟩)
    rw [Descriptor.byteOf, same _ owned]
    exact stands.holds position inFile

/-- What is read of a file: its bytes from the position on, as many as there are. -/
theorem bytes_eq (stands : file.Stands N before) (position count : Nat) :
    (List.range (file.descriptor.granted position count)).map
        (fun i => file.descriptor.byteOf before (position + i)) =
      (file.contents.drop position).take count := by
  apply List.ext_getElem
  · simp only [List.length_map, List.length_range, List.length_take, List.length_drop,
      Descriptor.granted, stands.size]
  · intro i inRange inTaken
    simp only [List.length_take, List.length_drop] at inTaken
    rw [List.getElem_map, List.getElem_range, stands.holds _ (by omega), List.getElem_take,
      List.getElem_drop]

theorem all_bytes_eq (stands : file.Stands N before) :
    (List.range file.descriptor.size).map (file.descriptor.byteOf before) = file.contents := by
  have bytes := stands.bytes_eq 0 file.contents.length
  simp only [Descriptor.granted, stands.size, Nat.sub_zero, Nat.min_self, Nat.zero_add,
    List.drop_zero, List.take_length] at bytes
  rw [stands.size]
  exact bytes

end Stands

/-! ## Storing -/

section Storing

variable {sectors : SectorNo → Sector} {sector start : SectorNo} {data : List UInt8}

theorem stored_of_not_mem {s : SectorNo}
    (other : s.toNat ∉ LiveFile.sectors { sector, start, contents := data }) :
    stored sectors sector start data s = sectors s := by
  simp only [LiveFile.sectors, List.mem_cons, not_or, List.mem_range'_1] at other
  obtain ⟨notDescriptor, notData⟩ := other
  rw [stored, if_neg (notDescriptor ∘ congrArg SectorNo.toNat), if_neg notData]

theorem stands_stored (small : data.length ≤ Descriptor.maxLength) (inside : sector.toNat < N)
    (within : start.toNat + sectorsFor data.length ≤ N) (addressable : N ≤ UInt32.size)
    (apart : Apart sector start data.length) :
    LiveFile.Stands { sector, start, contents := data } N (stored sectors sector start data) where
  small := small
  inside := inside
  within := within
  described := by
    rw [stored, if_pos rfl, Descriptor.decode_encode]
    rfl
  holds := by
    intro position inFile
    simp only [descriptor, Descriptor.byteOf] at inFile ⊢
    have index : position / sectorSize < sectorsFor data.length := by
      simp only [sectorsFor, sectorSize]
      omega
    have number : ((Descriptor.ofRun start (.ofNat data.length)).sectorAt position).toNat =
        start.toNat + position / sectorSize := SectorNo.toNat_ofNat (by
      simp only [Descriptor.ofRun]
      omega)
    have inData : start.toNat ≤ start.toNat + position / sectorSize ∧
        start.toNat + position / sectorSize < start.toNat + sectorsFor data.length :=
      ⟨Nat.le_add_right .., Nat.add_lt_add_left index _⟩
    -- the descriptor is not among the data, so the sector is one of those that hold the bytes
    have elsewhere : (Descriptor.ofRun start (.ofNat data.length)).sectorAt position ≠ sector := by
      intro same
      apply apart
      rw [← same, number]
      exact inData
    rw [stored, if_neg elsewhere, number, if_pos inData, Block.byteAt_ofBytes,
      if_pos (Nat.mod_lt _ (by decide)), List.getD_eq_getElem?_getD, List.getElem?_drop,
      Nat.add_sub_cancel_left, Nat.mul_comm, Nat.div_add_mod, List.getElem?_eq_getElem inFile,
      Option.getD_some]

end Storing

/-! ## Writing -/

section Writing

variable {d : Descriptor} {position : Nat} {data : List UInt8}

/-- Writing to a file leaves alone what is not among its data. -/
theorem eq_of_spliced (spliced : d.Spliced position
      (data.take (d.granted position data.length)) before after) {s : SectorNo}
    (outside : ¬ (d.start.toNat ≤ s.toNat ∧ s.toNat < d.start.toNat + d.sectors)) :
    after s = before s := by
  apply Block.ext_byteAt
  intro index bound
  rw [spliced s index bound, if_neg]
  simp only [List.length_take, Descriptor.granted, Descriptor.positionOf, Descriptor.sectors,
    sectorsFor, sectorSize] at *
  omega

theorem Stands.spliced (stands : file.Stands N before) (addressable : N ≤ UInt32.size)
    (distinct : file.sectors.Nodup)
    (spliced : file.descriptor.Spliced position
      (data.take (file.descriptor.granted position data.length)) before after) :
    (file.overwritten position data).Stands N after where
  small := by
    simp only [overwritten, length_overwrite]
    exact stands.small
  inside := stands.inside
  within := by
    simp only [overwritten, length_overwrite]
    exact stands.within
  described := by
    rw [descriptor_overwritten, ← stands.described]
    apply congrArg Descriptor.decode
    apply eq_of_spliced spliced
    rw [stands.sectors_eq]
    intro inData
    exact (List.nodup_cons.mp distinct).1 (List.mem_range'_1.mpr inData)
  holds := by
    intro place inFile
    simp only [overwritten, length_overwrite] at inFile
    obtain ⟨number, index⟩ := stands.toNat_sectorAt addressable inFile
    have position_eq : file.descriptor.positionOf (file.descriptor.sectorAt place)
        (place % sectorSize) = place := by
      rw [Descriptor.positionOf, number]
      show (file.start.toNat + place / sectorSize - file.start.toNat) * sectorSize + _ = _
      rw [Nat.add_sub_cancel_left, Nat.mul_comm, Nat.div_add_mod]
    have start_le : file.descriptor.start.toNat ≤ (file.descriptor.sectorAt place).toNat := by
      rw [number]
      exact Nat.le_add_right ..
    have old := stands.holds place inFile
    rw [Descriptor.byteOf] at old
    rw [descriptor_overwritten, Descriptor.byteOf, spliced _ _ (Nat.mod_lt _ (by decide)),
      position_eq, old, List.length_take, Descriptor.granted, stands.size]
    apply Option.some_inj.mp
    rw [← List.getElem?_eq_getElem, overwritten, getElem?_overwrite]
    by_cases written : position ≤ place ∧ place < position + data.length
    · rw [if_pos (by omega), if_pos (by omega), List.getD_eq_getElem?_getD, List.getElem?_take,
        if_pos (by omega), List.getElem?_eq_getElem (by omega), Option.getD_some]
    · rw [if_neg (by omega), if_neg (by omega), List.getElem?_eq_getElem inFile]

end Writing

end LiveFile

end Residency
