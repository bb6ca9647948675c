import Residency.Proofs.Volume.Archive

/-!
# Files that pass the check

`Cache.checkFile` accepts a file whose data ends inside an image.  It counts sectors in a machine
word, while a file is read by sector numbers of 32 bits.

`accepted_files_load_if_numbered`: a file that was accepted is loaded just if all of its sectors
have such numbers, as they do in each image of at most `2 ^ 32` sectors; otherwise loading it stops
with an overflow.  `accepted_file_overflows` is a file for which there is room in an image of one
sector more, and no number.
-/

namespace Residency

/-- If a sector is open, then with the descriptor that it holds, and there may be one more opener. -/
def OpenFiles.Current (files : OpenFiles) (sectors : SectorNo → Sector) (sector : SectorNo) : Prop :=
  ∀ id, files.registry[sector]? = some id → ∃ inode, files.get? id = some inode ∧
    inode.descriptor = .decode (sectors sector) ∧ 0 < inode.opens ∧ inode.opens + 1 < wordLimit

namespace Volume

variable {δ : Type} [BlockDevice δ] {N : Nat} {storage : Storage δ N} {volume : Volume δ}
  {sectors : SectorNo → Sector} {map : Bitmap} {files : OpenFiles} {sector : SectorNo}

/-- The check never fails, and leaves what the volume shows. -/
theorem checkFile_decides (isShown : volume.Shows storage sectors map files) (sector : SectorNo) :
    Step.Yields (Cache.checkFile sector N) volume.cache fun result checked =>
      (result = .ok () ↔ sector.toNat < N ∧ (Descriptor.decode (sectors sector)).isValid = true ∧
        (Descriptor.decode (sectors sector)).start.toNat +
          (Descriptor.decode (sectors sector)).sectors ≤ N) ∧
      ({ volume with cache := checked } : Volume δ).Shows storage sectors map files := by
  rcases Nat.lt_or_ge sector.toNat N with inside | outside
  · apply Step.Yields.imp (isShown.coherent.checkFile_yields inside)
    intro _ checked ended
    obtain ⟨rfl, coherent, view⟩ := ended
    rw [isShown.view, Descriptor.verdict_eq_ok_iff]
    exact ⟨(and_iff_right inside).symm, isShown.withSameView coherent view⟩
  · apply Step.Yields.imp (Cache.Coherent.checkFile_beyond outside)
    intro _ _ ended
    obtain ⟨rfl, rfl⟩ := ended
    refine ⟨iff_of_false (fun accepted => ?_) fun fits => ?_, isShown⟩
    · cases accepted
    · exact absurd fits.1 (Nat.not_lt.mpr outside)

theorem load_current_ends (isShown : volume.Shows storage sectors map files)
    (current : files.Current sectors sector) (inside : sector.toNat < N) {d : Descriptor}
    (holds : d = .decode (sectors sector)) (within : d.start.toNat + d.sectors ≤ N) :
    Step.Ends (load sector) volume
      (fun bytes after => d.Numbered ∧ bytes = (List.range d.size).map (d.byteOf sectors) ∧
        ∃ filesAfter, after.Shows storage sectors map filesAfter)
      fun fault after => ¬ d.Numbered ∧ fault = .overflow ∧
        ∃ filesAfter, after.Shows storage sectors map filesAfter := by
  -- opening reads the descriptor, or finds the one that was read before
  cases listed : files.registry[sector]? with
  | none =>
    apply (load_ends isShown inside listed holds within).imp
    · exact fun _ _ ⟨numbered, bytes, isAfter⟩ => ⟨numbered, bytes, _, isAfter⟩
    · exact fun _ _ ⟨without, overflow, isAfter⟩ => ⟨without, overflow, _, isAfter⟩
  | some id =>
    obtain ⟨inode, found, descriptor, isOpen, fits⟩ := current id listed
    apply (load_again_ends isShown listed found isOpen fits (descriptor.trans holds.symm) within).imp
    · exact fun _ _ ⟨numbered, bytes, isAfter⟩ => ⟨numbered, bytes, _, isAfter⟩
    · exact fun _ _ ⟨without, overflow, isAfter⟩ => ⟨without, overflow, _, isAfter⟩

/-- A sector that the check has accepted as the descriptor of a file, in an image that has as many
sectors as the device.

Where the sector of a byte of the file has a number, looking it up gives one that the device has,
and elsewhere that overflows.  If all have a number, then loading gives the bytes of the file, and
otherwise it stops with an overflow; what the volume shows stays but for the table of open files.
All have a number if the image has no more sectors than there are numbers. -/
theorem accepted_files_load_if_numbered (isShown : volume.Shows storage sectors map files)
    (current : files.Current sectors sector) {checked : Cache δ}
    (accepted : (Cache.checkFile sector N).run volume.cache = .ok (.ok ()) checked) :
    let d := Descriptor.decode (sectors sector)
    (∀ position < d.size,
      (d.HasNumber position → ∃ s, d.sectorOf position = .ok (some s) ∧ s.toNat < N) ∧
      (¬ d.HasNumber position → d.sectorOf position = .error .overflow)) ∧
    (d.Numbered ↔ ∀ position < d.size, d.HasNumber position) ∧
    Step.Ends (load sector) { volume with cache := checked }
      (fun bytes after => d.Numbered ∧ bytes = (List.range d.size).map (d.byteOf sectors) ∧
        ∃ filesAfter, after.Shows storage sectors map filesAfter)
      (fun fault after => ¬ d.Numbered ∧ fault = .overflow ∧
        ∃ filesAfter, after.Shows storage sectors map filesAfter) ∧
    (N ≤ UInt32.size → d.Numbered) := by
  intro d
  obtain ⟨passes, isChecked⟩ := (checkFile_decides isShown sector).done_of_run accepted
  obtain ⟨inside, -, within⟩ := passes.mp rfl
  refine ⟨fun position before => ⟨fun number => ?_, fun without => ?_⟩, Descriptor.numbered_iff,
    load_current_ends isChecked current inside rfl within, Nat.le_trans within⟩
  · exact ⟨_, Descriptor.sectorOf_of_hasNumber before number,
      Descriptor.toNat_sectorAt_lt within before⟩
  · exact Descriptor.sectorOf_overflows before without

/-! ## An image with more sectors than numbers -/

/-- A disk of one sector more than there are numbers, with the descriptor of a file whose data
starts in the last sector that has one. -/
def wideDisk (length : Int32) : RamDisk where
  sectors := UInt32.size + 1
  contents := .insert ∅ ⟨0⟩ (Descriptor.ofRun ⟨0xffffffff⟩ length).encode

theorem shows_wideDisk (length : Int32) :
    (mount (wideDisk length) (.empty 1)).Shows (RamDisk.storage (UInt32.size + 1)).toStorage
      (wideDisk length).sector (.empty 1) {} :=
  have serves : (RamDisk.storage (UInt32.size + 1)).Serves (wideDisk length) := rfl
  shows_mount (RamDisk.storage (UInt32.size + 1)).toStorage serves (.empty 1)

theorem decode_wideDisk (length : Int32) :
    Descriptor.decode ((wideDisk length).sector ⟨0⟩) = .ofRun ⟨0xffffffff⟩ length := by
  rw [RamDisk.sector, wideDisk, Std.ExtTreeMap.getD_insert_self, Descriptor.decode_encode]

/-- There is room for two sectors. -/
theorem wideDisk_accepted {length : Int32}
    (short : (Descriptor.ofRun ⟨0xffffffff⟩ length).sectors ≤ 2) :
    ∃ checked, (Cache.checkFile ⟨0⟩ (UInt32.size + 1)).run
      (mount (wideDisk length) (.empty 1)).cache = .ok (.ok ()) checked := by
  obtain ⟨result, checked, run, passes, -⟩ := (checkFile_decides (shows_wideDisk length) ⟨0⟩).run
  rw [decode_wideDisk] at passes
  have accepted : result = .ok () := by
    have start : (Descriptor.ofRun ⟨0xffffffff⟩ length).start.toNat + 1 = UInt32.size := rfl
    exact passes.mpr ⟨by decide, Descriptor.isValid_ofRun .., by omega⟩
  exact ⟨checked, accepted ▸ run⟩

theorem current_of_closed (sectors : SectorNo → Sector) (sector : SectorNo) :
    OpenFiles.Current {} sectors sector := by
  intro id listed
  cases Std.ExtTreeMap.getElem?_empty.symm.trans listed

/-- A file in the last sector that has a number. -/
theorem file_with_the_last_number_loads :
    let volume : Volume RamDisk := .mount (wideDisk 512) (.empty 1)
    ∃ checked,
      volume.Shows (RamDisk.storage (UInt32.size + 1)).toStorage (wideDisk 512).sector (.empty 1)
        {} ∧
      OpenFiles.Current {} (wideDisk 512).sector ⟨0⟩ ∧
      (Cache.checkFile ⟨0⟩ (UInt32.size + 1)).run volume.cache = .ok (.ok ()) checked ∧
      Step.Yields (load ⟨0⟩) { volume with cache := checked } fun bytes _ =>
        bytes.length = 512 := by
  intro volume
  obtain ⟨checked, accepted⟩ := wideDisk_accepted (by decide : (Descriptor.ofRun _ 512).sectors ≤ 2)
  have current := current_of_closed (wideDisk 512).sector ⟨0⟩
  obtain ⟨-, -, loads, -⟩ :=
    accepted_files_load_if_numbered (shows_wideDisk 512) current accepted
  rw [decode_wideDisk] at loads
  refine ⟨checked, shows_wideDisk 512, current, accepted, loads.imp ?_ ?_⟩
  · intro bytes _ ended
    obtain ⟨-, bytes_eq, -⟩ := ended
    rw [bytes_eq, List.length_map, List.length_range]
    exact Descriptor.size_ofRun ⟨0xffffffff⟩ (by decide : 512 ≤ Descriptor.maxLength)
  · exact fun _ _ stopped => stopped.1 (by decide)

/-- The second sector of the file exists, and has no number. -/
theorem accepted_file_overflows :
    let volume : Volume RamDisk := .mount (wideDisk 1024) (.empty 1)
    ∃ checked d,
      (Cache.checkFile ⟨0⟩ (UInt32.size + 1)).run volume.cache = .ok (.ok ()) checked ∧
      Descriptor.decode ((wideDisk 1024).sector ⟨0⟩) = d ∧ 512 < d.size ∧
      d.sectorOf 512 = .error .overflow ∧
      Step.Ends (load ⟨0⟩) { volume with cache := checked } (fun _ _ => False)
        fun fault _ => fault = .overflow := by
  intro volume
  obtain ⟨checked, accepted⟩ := wideDisk_accepted (by decide : (Descriptor.ofRun _ 1024).sectors ≤ 2)
  obtain ⟨-, isChecked⟩ :=
    (checkFile_decides (shows_wideDisk 1024) ⟨0⟩).done_of_run accepted
  refine ⟨checked, _, accepted, decode_wideDisk 1024, by decide, by decide, ?_⟩
  apply (load_current_ends isChecked (current_of_closed _ _) (by decide)
    (decode_wideDisk 1024).symm (by decide)).imp
  · exact fun _ _ ended => absurd ended.1 (by decide)
  · exact fun _ _ stopped => stopped.2.1

end Volume

end Residency
