import Residency.Proofs.Packer.Image

/-!
# Extraction

`Packer.cat` on any image at all, said in terms of the bytes of the image: a sector states where
the data of a file starts (`startAt`), how long it is (`lengthAt`) and that it is a descriptor
(`markAt`).

* `catStep_yields`: what `cat` gives for the sectors of an image;
* `cat_exact`: it gives the bytes that the descriptor names, or the right refusal, and leaves the
  image as it was.
-/

namespace Residency.Packer

open LittleEndian (numberAt)

/-! ## What the bytes of an image state -/

def startAt (bytes : List UInt8) (sector : Nat) : Nat :=
  numberAt bytes (sector * sectorSize)

/-- The length of the data, a signed number. -/
def lengthAt (bytes : List UInt8) (sector : Nat) : Int :=
  (numberAt bytes (sector * sectorSize + 4) : Int).bmod (2 ^ 32)

def markAt (bytes : List UInt8) (sector : Nat) : Nat :=
  numberAt bytes (sector * sectorSize + 8)

section Statements

variable {image : HostFile} {N sector : Nat}

theorem numberAt_bytes (fits : N * sectorSize ≤ image.size) (inside : sector < N) {offset : Nat}
    (range : offset + 4 ≤ sectorSize) :
    numberAt image.bytes (sector * sectorSize + offset) =
      numberAt (image.kept sector).bytes offset := by
  have reach : sector * sectorSize + (offset + 4) ≤ N * sectorSize :=
    calc sector * sectorSize + (offset + 4) ≤ sector * sectorSize + sectorSize :=
          Nat.add_le_add_left range _
      _ = (sector + 1) * sectorSize := (Nat.succ_mul ..).symm
      _ ≤ N * sectorSize := Nat.mul_le_mul_right _ inside
  have whole : sector * sectorSize + offset + 4 ≤ image.bytes.length := by
    rw [image.length_bytes, Nat.add_assoc]
    exact Nat.le_trans reach fits
  rw [LittleEndian.numberAt_eq whole,
    LittleEndian.numberAt_eq (by rw [(image.kept sector).length_bytes]; exact range)]
  congr 1
  apply List.map_congr_left
  intro k member
  have small := List.mem_range.mp member
  have bound : offset + k < sectorSize := by omega
  -- the four bytes do not leave the sector
  have quotient : (sector * sectorSize + offset + k) / sectorSize = sector := by
    rw [Nat.add_assoc, Nat.mul_comm, Nat.mul_add_div (by decide), Nat.div_eq_of_lt bound,
      Nat.add_zero]
  have remainder : (sector * sectorSize + offset + k) % sectorSize = offset + k := by
    rw [Nat.add_assoc, Nat.mul_add_mod_self_right, Nat.mod_eq_of_lt bound]
  rw [List.getD_eq_getElem?_getD, HostFile.getElem?_bytes (by omega), quotient, remainder,
    Option.getD_some]
  rfl

/-- The descriptor in a sector says what the bytes of the image state. -/
theorem decode_kept (fits : N * sectorSize ≤ image.size) (inside : sector < N) :
    (Descriptor.decode (image.kept sector)).start.toNat = startAt image.bytes sector ∧
      (Descriptor.decode (image.kept sector)).size = (lengthAt image.bytes sector).toNat ∧
      ((Descriptor.decode (image.kept sector)).isValid = true ↔
        markAt image.bytes sector = 0x494e4f44) := by
  have start := numberAt_bytes fits inside (show 0 + 4 ≤ sectorSize by decide)
  have length := numberAt_bytes fits inside (show 4 + 4 ≤ sectorSize by decide)
  have mark := numberAt_bytes fits inside (show 8 + 4 ≤ sectorSize by decide)
  refine ⟨?_, ?_, ?_⟩
  · unfold startAt
    rw [Nat.add_zero] at start
    rw [start]
    exact Descriptor.start_decode _
  · unfold lengthAt
    rw [length]
    exact Descriptor.size_decode _
  · unfold markAt
    rw [mark]
    exact Descriptor.isValid_decode _

theorem map_byteOf (fits : N * sectorSize ≤ image.size) (addressable : N ≤ UInt32.size)
    {d : Descriptor} (within : d.start.toNat + d.sectors ≤ N) :
    (List.range d.size).map (d.byteOf fun s => image.kept s.toNat) =
      (image.bytes.drop (d.start.toNat * sectorSize)).take d.size := by
  have reach := Descriptor.end_le within
  have length := image.length_bytes
  apply List.ext_getElem
  · simp only [List.length_map, List.length_range, List.length_take, List.length_drop]
    omega
  · intro position first second
    rw [List.length_map, List.length_range] at first
    have bound : d.start.toNat * sectorSize + position < image.bytes.length := by omega
    have number := Descriptor.toNat_sectorAt (Nat.le_trans within addressable) first
    -- data starts with a sector, so positions in the file and in the image are cut alike
    have quotient : (d.start.toNat * sectorSize + position) / sectorSize =
        d.start.toNat + position / sectorSize := by
      simp only [sectorSize]; omega
    have remainder : (d.start.toNat * sectorSize + position) % sectorSize =
        position % sectorSize := by
      simp only [sectorSize]; omega
    have before : d.start.toNat * sectorSize + position < N * sectorSize := by omega
    have byte := HostFile.getElem?_bytes (Nat.lt_of_lt_of_le before fits)
    rw [List.getElem?_eq_getElem bound, Option.some.injEq, quotient, remainder] at byte
    rw [List.getElem_map, List.getElem_range, List.getElem_take, List.getElem_drop, byte,
      Descriptor.byteOf, number]

end Statements

/-! ## The step -/

def extracted (sectors : SectorNo → Sector) (N : Nat) (inumber : SectorNo) : Outcome :=
  if N ≤ inumber.toNat then { ending := .failed (.unfit (.beyondImage inumber N)) }
  else
    let d := Descriptor.decode (sectors inumber)
    match d.verdict inumber N with
    | .error reason => { ending := .failed (.unfit reason) }
    | .ok () => { ending := .done, output := (List.range d.size).map (d.byteOf sectors) }

theorem catStep_yields {N : Nat} {storage : Storage FileDisk N} {volume : Volume FileDisk}
    {sectors : SectorNo → Sector} {map : Bitmap} (addressable : N ≤ UInt32.size)
    (isShown : volume.Shows storage sectors map {}) (inumber : SectorNo) :
    Step.Yields (catStep inumber N) volume fun outcome after =>
      outcome = extracted sectors N inumber ∧ ∃ files, after.Shows storage sectors map files := by
  simp only [catStep, Volume.onCache, Step.ends_bind, Step.ends_on, extracted]
  by_cases outside : N ≤ inumber.toNat
  · apply Step.Yields.imp (Cache.Coherent.checkFile_beyond outside)
    intro _ _ ended
    obtain ⟨rfl, rfl⟩ := ended
    rw [if_pos outside]
    exact (Step.ends_pure _).mpr ⟨rfl, _, isShown⟩
  · have inside : inumber.toNat < N := Nat.not_le.mp outside
    apply Step.Yields.imp (isShown.coherent.checkFile_yields inside)
    intro result cache ended
    obtain ⟨result_eq, coherent, view⟩ := ended
    have isChecked := isShown.withSameView coherent view
    rw [isShown.view] at result_eq
    rw [if_neg outside]
    simp only [← result_eq]
    cases result with
    | error reason => exact (Step.ends_pure _).mpr ⟨rfl, _, isChecked⟩
    | ok =>
      -- what the check has passed is all that loading asks for
      have within := (Descriptor.verdict_eq_ok_iff.mp result_eq.symm).2
      apply Step.Yields.bind (Volume.load_yields isChecked addressable inside
        Std.ExtTreeMap.getElem?_empty rfl within)
      intro _ after ended
      obtain ⟨rfl, isAfter⟩ := ended
      exact (Step.ends_pure _).mpr ⟨rfl, _, isAfter⟩

/-! ## The command -/

/-- Where the data of a file in an image ends, as its sector states it. -/
def stopAt (bytes : List UInt8) (sector : Nat) : Nat :=
  startAt bytes sector + sectorsFor (lengthAt bytes sector).toNat

theorem extracted_kept {image : HostFile} {N : Nat} (fits : N * sectorSize ≤ image.size)
    (addressable : N ≤ UInt32.size) (inumber : SectorNo) :
    extracted (fun s => image.kept s.toNat) N inumber =
      if N ≤ inumber.toNat then { ending := .failed (.unfit (.beyondImage inumber N)) }
      else if markAt image.bytes inumber.toNat ≠ 0x494e4f44 then
        { ending := .failed (.unfit (.noDescriptor inumber)) }
      else if N < stopAt image.bytes inumber.toNat then
        { ending := .failed (.unfit (.dataBeyondImage inumber
            (stopAt image.bytes inumber.toNat))) }
      else {
        ending := .done
        output := (image.bytes.drop (sectorSize * startAt image.bytes inumber.toNat)).take
          (lengthAt image.bytes inumber.toNat).toNat } := by
  unfold extracted
  by_cases outside : N ≤ inumber.toNat
  · rw [if_pos outside, if_pos outside]
  · obtain ⟨start, size, valid⟩ := decode_kept fits (Nat.not_le.mp outside)
    rw [if_neg outside, if_neg outside]
    set d := Descriptor.decode (image.kept inumber.toNat)
    have stop : d.start.toNat + d.sectors = stopAt image.bytes inumber.toNat := by
      rw [stopAt, ← start, ← size, Descriptor.sectors]
    simp only [Descriptor.verdict, stop, ← valid, ne_eq, Bool.not_eq_true]
    by_cases invalid : d.isValid = false
    · rw [if_pos invalid, if_pos invalid]
    · rw [if_neg invalid, if_neg invalid]
      by_cases beyond : N < stopAt image.bytes inumber.toNat
      · rw [if_pos beyond, if_pos beyond]
      · rw [if_neg beyond, if_neg beyond, ← size, ← start, Nat.mul_comm]
        rw [← stop, Nat.not_lt] at beyond
        simp only [map_byteOf fits addressable beyond]

/-- `cat` ends cleanly, gives what the sectors of the image hold and leaves its bytes alone. -/
theorem cat_yields {image : HostFile} (inumber : SectorNo)
    (addressable : image.size / sectorSize ≤ UInt32.size) :
    EndsCleanly image (image.size / sectorSize) (catStep inumber (image.size / sectorSize)) ∧
      (cat image inumber).1 =
        extracted (fun s => image.kept s.toNat) (image.size / sectorSize) inumber ∧
      (cat image inumber).2.bytes = image.bytes := by
  have fits : image.size / sectorSize * sectorSize ≤ image.size := Nat.div_mul_le_self ..
  have leaves : Step.Yields (catStep inumber (image.size / sectorSize))
      (.mount { file := image } (.empty (image.size / sectorSize))) fun outcome after =>
        ∃ sectors map files,
          (outcome = extracted (fun s => image.kept s.toNat) (image.size / sectorSize) inumber ∧
            sectors = fun s => image.kept s.toNat) ∧
          after.Shows (FileDisk.storage image _ fits) sectors map files := by
    apply Step.Yields.imp (catStep_yields addressable (shows_mount fits (.empty _)) inumber)
    intro _ after ended
    obtain ⟨rfl, files, isAfter⟩ := ended
    exact ⟨_, _, files, ⟨rfl, rfl⟩, isAfter⟩
  obtain ⟨clean, _, ⟨outcome, rfl⟩, bytes⟩ := onImage_leaves addressable leaves
  refine ⟨clean, outcome, bytes.trans ?_⟩
  have same : sectorBytes (fun index => image.kept (SectorNo.ofNat index).toNat)
      (image.size / sectorSize) = sectorBytes image.kept (image.size / sectorSize) := by
    apply sectorBytes_congr
    intro index inside
    rw [SectorNo.toNat_ofNat (Nat.lt_of_lt_of_le inside addressable)]
  rw [same, HostFile.bytes_eq_append fits, List.drop_left' (length_sectorBytes _)]

def FailsWith (outcome : Outcome) (kind : String) : Prop :=
  ∃ reason, outcome.ending = .failed (.unfit reason) ∧ defectKind reason = kind

/-- `cat` is safe on every image, and gives exactly the bytes that the descriptor names. -/
theorem cat_exact (image : HostFile) (inumber : SectorNo)
    (addressable : image.bytes.length / sectorSize ≤ 2 ^ 32) :
    EndsCleanly image (image.bytes.length / sectorSize)
        (catStep inumber (image.bytes.length / sectorSize)) ∧
      (∀ fault, (cat image inumber).1.ending ≠ .crashed fault) ∧
      (cat image inumber).2.bytes = image.bytes ∧
      (FailsWith (cat image inumber).1 "InvalidInput" ↔
        image.bytes.length / sectorSize ≤ inumber.toNat) ∧
      (inumber.toNat < image.bytes.length / sectorSize →
        (FailsWith (cat image inumber).1 "InvalidData" ↔
          markAt image.bytes inumber.toNat ≠ 0x494e4f44 ∨
            image.bytes.length / sectorSize < stopAt image.bytes inumber.toNat) ∧
        (markAt image.bytes inumber.toNat = 0x494e4f44 →
          stopAt image.bytes inumber.toNat ≤ image.bytes.length / sectorSize →
          (cat image inumber).1 = {
            ending := .done
            output := (image.bytes.drop (sectorSize * startAt image.bytes inumber.toNat)).take
              (lengthAt image.bytes inumber.toNat).toNat })) := by
  rw [image.length_bytes] at addressable ⊢
  obtain ⟨clean, outcome, bytes⟩ := cat_yields inumber addressable
  rw [extracted_kept (Nat.div_mul_le_self ..) addressable] at outcome
  refine ⟨clean, ?_, bytes, ?_⟩
  · intro fault
    rw [outcome]
    split
    next => simp
    next =>
      split
      next => simp
      next => split <;> simp
  · unfold FailsWith
    rw [outcome]
    by_cases outside : image.size / sectorSize ≤ inumber.toNat
    · rw [if_pos outside]
      refine ⟨by simp [defectKind, outside], fun inside => ?_⟩
      exact absurd outside (Nat.not_le.mpr inside)
    · rw [if_neg outside]
      by_cases marked : markAt image.bytes inumber.toNat = 0x494e4f44
      · rw [if_neg (not_not.mpr marked)]
        by_cases beyond : image.size / sectorSize < stopAt image.bytes inumber.toNat
        · simp [beyond, defectKind, outside, marked]
        · simp [beyond, defectKind, outside, marked]
      · simp [marked, defectKind, outside]

/-- An image of one sector, the descriptor of a file that starts with the descriptor itself. -/
def selfNaming : HostFile :=
  HostFile.empty.writeSector 0 (Descriptor.ofRun ⟨0⟩ 3).encode

theorem cat_selfNaming :
    selfNaming.bytes.length / sectorSize ≤ 2 ^ 32 ∧
      (cat selfNaming ⟨0⟩).2.bytes = selfNaming.bytes ∧
      (cat selfNaming ⟨0⟩).1 = { ending := .done, output := selfNaming.bytes.take 3 } := by
  have size : selfNaming.size = 512 := rfl
  have sectors : selfNaming.bytes.length / sectorSize = 1 := by
    rw [selfNaming.length_bytes, size]
    rfl
  have addressable : selfNaming.bytes.length / sectorSize ≤ 2 ^ 32 := by
    rw [sectors]
    decide
  obtain ⟨-, -, bytes, -, inside⟩ := cat_exact selfNaming ⟨0⟩ addressable
  have fits : 1 * sectorSize ≤ selfNaming.size := Nat.le_refl _
  obtain ⟨start, length, mark⟩ := decode_kept fits (Nat.zero_lt_one)
  have held : selfNaming.kept 0 = (Descriptor.ofRun ⟨0⟩ 3).encode := by
    rw [selfNaming, HostFile.kept_writeSector, if_pos rfl]
  rw [held, Descriptor.decode_encode] at start length mark
  have zero : (⟨0⟩ : SectorNo).toNat = 0 := rfl
  have startAt_eq : startAt selfNaming.bytes 0 = 0 := start.symm
  have lengthAt_eq : (lengthAt selfNaming.bytes 0).toNat = 3 := length.symm
  have stopAt_eq : stopAt selfNaming.bytes 0 = 1 := by
    rw [stopAt, startAt_eq, lengthAt_eq]
    rfl
  have outcome := (inside (by rw [sectors]; decide)).2
    (mark.mp (Descriptor.isValid_ofRun _ _)) (by rw [sectors]; exact Nat.le_of_eq stopAt_eq)
  refine ⟨addressable, bytes, ?_⟩
  rw [outcome, zero, startAt_eq, lengthAt_eq, Nat.mul_zero, List.drop_zero]

end Residency.Packer
