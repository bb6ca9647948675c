import Mathlib.Order.Bounds.Defs
import Residency.Proofs.Volume.Ranges

/-!
# Requests that do not come to their end

A request for a range of an open file stops where its next sector cannot be read, or has no number.
What it has done up to there stays, and it has done nothing else.

* `writing_stops_at_the_end_of_the_device`: in front of a device that is too small for the file,
  writing stops at the first sector that the device lacks, and what lies before it is written;
* `covered_requests_overflow_behind_their_end`: a request all of whose sectors are there is served
  in full, but the sector of the byte behind it is looked up as well, and the request stops with an
  overflow if that has no number.

In neither need the file be one that was created on the device.
-/

namespace Residency

namespace Descriptor

/-- The number of the sector of a byte of the file, whether or not it fits, and where the byte
stands in the sector. -/
def placeOf (d : Descriptor) (position : Nat) : Nat × Nat :=
  (d.start.toNat + position / sectorSize, position % sectorSize)

/-- Of `count` bytes that were to be written from `position` on, those whose sectors are below `N`
are in their places, and no other byte of any sector has changed. -/
structure WrittenBelow (N : Nat) (d : Descriptor) (position count : Nat) (data : List UInt8)
    (before after : SectorNo → Sector) : Prop where
  written : ∀ i < count, (d.placeOf (position + i)).1 < N →
    some ((after (.ofNat (d.placeOf (position + i)).1)).byteAt (d.placeOf (position + i)).2) =
      data[i]?
  others : ∀ s, ∀ index < sectorSize,
    (∀ i < count, (d.placeOf (position + i)).1 < N → d.placeOf (position + i) ≠ (s.toNat, index)) →
    (after s).byteAt index = (before s).byteAt index

variable {d : Descriptor} {position count served N : Nat} {data : List UInt8}
  {before after : SectorNo → Sector}

/-- Where the bytes whose sectors are below `N` are the first of the request, these are written. -/
theorem Spliced.writtenBelow (spliced : d.Spliced position (data.take served) before after)
    (within : served ≤ d.granted position data.length)
    (numbered : ∀ i < served, d.HasNumber (position + i))
    (below : ∀ i < d.granted position data.length,
      (d.placeOf (position + i)).1 < N ↔ i < served) :
    d.WrittenBelow N position (d.granted position data.length) data before after := by
  have length : (data.take served).length = served := by
    rw [List.length_take, Nat.min_eq_left (Nat.le_trans within (Nat.min_le_left ..))]
  constructor
  · intro i inRequest early
    have inServed := (below i inRequest).mp early
    have written := spliced.byteOf_eq_of_hasNumber (numbered i inServed)
      (by rw [length]; exact inServed)
    rw [List.getElem?_take_of_lt inServed] at written
    exact written
  · intro s index bound other
    apply spliced.byteAt_eq bound
    intro i inServed
    rw [length] at inServed
    have inRequest := Nat.lt_of_lt_of_le inServed within
    exact other i inRequest ((below i inRequest).mpr inServed)

/-- Later bytes of a file lie in later sectors. -/
theorem placeOf_mono (d : Descriptor) {first second : Nat} (le : first ≤ second) :
    (d.placeOf first).1 ≤ (d.placeOf second).1 :=
  Nat.add_le_add_left (Nat.div_le_div_right le) _

theorem HasNumber.toNat_sectorAt_eq_placeOf (number : d.HasNumber position) :
    (d.sectorAt position).toNat = (d.placeOf position).1 :=
  number.toNat_sectorAt

variable {δ : Type} [BlockDevice δ]

theorem Lies.placeOf_lt {storage : Storage δ N} (lies : d.Lies storage.medium position count)
    {i : Nat} (inside : i < count) : (d.placeOf (position + i)).1 < N := by
  obtain ⟨number, has⟩ := lies i inside
  rw [← number.toNat_sectorAt_eq_placeOf]
  exact has

/-- The sectors of a request ascend, so behind one that the device lacks it lacks them all. -/
theorem Lies.placeOf_lt_iff {storage : Storage δ N} (lies : d.Lies storage.medium position served)
    (missing : N ≤ (d.placeOf (position + served)).1) (i : Nat) :
    (d.placeOf (position + i)).1 < N ↔ i < served := by
  constructor
  · intro early
    by_contra late
    have later := d.placeOf_mono (Nat.add_le_add_left (Nat.not_lt.mp late) position)
    omega
  · exact lies.placeOf_lt

/-- Then it is the first that is missing of those that a longer request touches. -/
theorem Lies.isLeast_missing {storage : Storage δ N}
    (lies : d.Lies storage.medium position served)
    (missing : N ≤ (d.placeOf (position + served)).1) (more : served < count) :
    IsLeast { s ∈ { s | ∃ i < count, (d.placeOf (position + i)).1 = s } | N ≤ s }
      (d.placeOf (position + served)).1 := by
  refine ⟨⟨⟨served, more, rfl⟩, missing⟩, ?_⟩
  intro s other
  obtain ⟨⟨i, -, rfl⟩, outside⟩ := other
  have late : ¬ i < served := fun inServed =>
    absurd (lies.placeOf_lt inServed) (Nat.not_lt.mpr outside)
  exact d.placeOf_mono (Nat.add_le_add_left (Nat.not_lt.mp late) position)

/-- All sectors of a request are below `N`. -/
def Covered (N : Nat) (d : Descriptor) (position count : Nat) : Prop :=
  ∀ i < count, (d.placeOf (position + i)).1 < N

/-- The file goes on at `position`, in a sector that has no number. -/
def Overruns (d : Descriptor) (position : Nat) : Prop :=
  position < d.size ∧ UInt32.size ≤ (d.placeOf position).1

instance : Decidable (d.Overruns position) :=
  inferInstanceAs (Decidable (_ ∧ _))

theorem overruns_iff : d.Overruns position ↔ position < d.size ∧ ¬ d.HasNumber position :=
  and_congr_right fun _ => Nat.not_lt.symm

section Covered

variable (covered : d.Covered N position count) (addressable : N ≤ UInt32.size)
include covered addressable

theorem Covered.hasNumber {i : Nat} (inside : i < count) : d.HasNumber (position + i) :=
  Nat.lt_of_lt_of_le (covered i inside) addressable

/-- Behind a byte that has a sector number, only the next sector may have none. -/
theorem Covered.aligned (overruns : d.Overruns (position + count)) :
    count = 0 ∨ (position + count) % sectorSize = 0 := by
  by_cases empty : count = 0
  · exact .inl empty
  · have last := covered (count - 1) (by omega)
    have behind := overruns.2
    simp only [placeOf, sectorSize] at *
    omega

variable {medium : Medium δ} (readable : ∀ s : SectorNo, s.toNat < N → medium.Reads s False)
include readable

theorem Covered.reads {i : Nat} (inside : i < count) :
    medium.Reads (d.sectorAt (position + i)) False := by
  apply readable
  rw [(covered.hasNumber addressable inside).toNat_sectorAt_eq_placeOf]
  exact covered i inside

end Covered

/-- A request whose sectors are all there stops nowhere but at its end, and there only if it
overruns. -/
theorem Stops.at_end {medium : Medium δ} {device : δ} {fault : Fault}
    (stops : d.Stops medium position count served device fault)
    (covered : d.Covered N position (d.granted position count)) (addressable : N ≤ UInt32.size)
    (readable : ∀ s : SectorNo, s.toNat < N → medium.Reads s False) :
    served = d.granted position count ∧ fault = .overflow ∧
      d.Overruns (position + d.granted position count) := by
  obtain ⟨within, -, blocked⟩ := stops
  cases blocked with
  | overrun before without =>
    have all : served = d.granted position count := by
      by_contra less
      exact without (covered.hasNumber addressable (Nat.lt_of_le_of_ne within less))
    exact ⟨all, rfl, overruns_iff.mpr (all ▸ ⟨before, without⟩)⟩
  | refusal some_left number refuses =>
    exact (refuses.mayFail (covered.reads addressable readable (by omega))).elim

theorem Reaches.not_overruns {medium : Medium δ} (reaches : d.Reaches medium position count) :
    ¬ d.Overruns (position + d.granted position count) := by
  intro overruns
  obtain ⟨before, without⟩ := overruns_iff.mp overruns
  exact without (reaches.number before)

end Descriptor

namespace Volume

variable {δ : Type} [BlockDevice δ] {volume : Volume δ} {id : InodeId} {inode : Inode}

/-! ## A device that ends before the file -/

/-- Writing to an open file, to which nobody has forbidden it, in front of a device of `N` sectors
that may lack sectors of the file; all of these have a number.  The cache is any that a run has
reached.

Writing succeeds if all sectors that it touches are below `N`.  Otherwise it stops with the fault
of the device that was asked for the first of them that is not.  In either case the bytes of the
request in sectors below `N` are written, no other byte of any sector has changed, and neither has
anything of the volume but its cache, which is in order. -/
theorem writing_stops_at_the_end_of_the_device {N : Nat} (storage : BoundedStorage δ N)
    (reachable : volume.cache.Reachable storage.medium) (found : volume.inode? id = some inode)
    (allowed : inode.denials = 0)
    (numbered : inode.descriptor.start.toNat + inode.descriptor.sectors ≤ UInt32.size)
    (position : Nat) (data : List UInt8) :
    let d := inode.descriptor
    let n := if position < d.size then min data.length (d.size - position) else 0
    let touched : Set Nat := { s | ∃ i < n, (d.placeOf (position + i)).1 = s }
    let leaves (after : Volume δ) : Prop :=
      after = { volume with cache := after.cache } ∧
        Cache.Coherent storage.toStorage after.cache ∧
        d.WrittenBelow N position n data (volume.cache.view storage.sector)
          (after.cache.view storage.sector)
    Step.Ends (writeAt id position data) volume
      (fun written after => written = n ∧ (∀ s ∈ touched, s < N) ∧ leaves after)
      fun fault after => (∃ first : SectorNo,
        IsLeast { s ∈ touched | N ≤ s } first.toNat ∧
          storage.medium.Refuses first fault after.cache.device) ∧ leaves after := by
  intro d n touched leaves
  have numbered : d.Numbered := numbered
  have granted : d.granted position data.length = n := Descriptor.granted_eq ..
  apply (ends_writeAt found allowed).mpr
  apply (reachable.consistent.writeFile_ends position rfl
    fun i _ => (storage.reads _).mono fun _ => trivial).imp
  · intro written cache ended
    obtain ⟨rfl, consistent, spliced, reaches⟩ := ended
    have written := spliced.writtenBelow (Nat.le_refl _) (fun i inside => (reaches.lies i inside).1)
      fun i inside => iff_of_true (reaches.lies.placeOf_lt inside) inside
    rw [granted] at written
    refine ⟨granted, ?_, rfl, Cache.coherent_iff.mpr consistent, written⟩
    intro s touches
    obtain ⟨i, inside, rfl⟩ := touches
    exact reaches.lies.placeOf_lt (granted ▸ inside)
  · intro fault cache ended
    obtain ⟨consistent, served, spliced, within, lies, blocked⟩ := ended
    cases blocked with
    | overrun before without => exact absurd (numbered.hasNumber before) without
    | refusal some_left number refuses =>
      -- a device of `N` sectors refuses none of these, so the request has reached one behind them
      have missing : N ≤ (d.placeOf (position + served)).1 := by
        rw [← number.toNat_sectorAt_eq_placeOf]
        exact refuses.mayFail (storage.reads _)
      have written := spliced.writtenBelow within (fun i inside => (lies i inside).1)
        fun i _ => lies.placeOf_lt_iff missing i
      have least := lies.isLeast_missing missing (Nat.lt_of_sub_pos some_left)
      rw [granted] at written least
      rw [← number.toNat_sectorAt_eq_placeOf] at least
      exact ⟨⟨d.sectorAt (position + served), least, refuses⟩, rfl,
        Cache.coherent_iff.mpr consistent, written⟩

/-- Of twenty bytes, twelve have room in front of a sector that the device lacks. -/
theorem writing_over_the_end_of_the_device :
    let inode : Inode := { sector := ⟨0⟩, descriptor := .ofRun ⟨1⟩ 1000 }
    let volume : Volume RamDisk := {
      cache := { device := { sectors := 2 } }
      map := .empty 2
      files := { inodes := #[inode] } }
    let data : List UInt8 := List.replicate 20 7
    volume.cache.Reachable (RamDisk.storage 2).medium ∧ volume.inode? ⟨0⟩ = some inode ∧
      inode.denials = 0 ∧
      inode.descriptor.start.toNat + inode.descriptor.sectors ≤ UInt32.size ∧
      Step.Ends (writeAt ⟨0⟩ 500 data) volume (fun _ _ => False) fun fault after =>
        fault = .unreadableSector ⟨2⟩ ∧
          (after.cache.view RamDisk.sector ⟨1⟩).byteAt 511 = 7 ∧
          (after.cache.view RamDisk.sector ⟨1⟩).byteAt 499 = 0 := by
  intro inode volume data
  have reachable : volume.cache.Reachable (RamDisk.storage 2).medium :=
    .run ({ sectors := 2 } : RamDisk) [] rfl fun call _ => call.answerable_of_bounded _
  have numbered : inode.descriptor.start.toNat + inode.descriptor.sectors ≤ UInt32.size := by
    decide
  refine ⟨reachable, rfl, rfl, numbered, ?_⟩
  apply (writing_stops_at_the_end_of_the_device (RamDisk.storage 2) reachable rfl rfl numbered 500
    data).imp
  · intro written after ended
    obtain ⟨-, inside, -⟩ := ended
    exact absurd (inside 2 ⟨12, by decide, by decide⟩) (by decide)
  · intro fault after ended
    obtain ⟨⟨first, least, refuses⟩, -, -, written, others⟩ := ended
    have second : first = ⟨2⟩ := by
      have atMost : first.toNat ≤ 2 := least.2 ⟨⟨12, by decide, by decide⟩, Nat.le_refl 2⟩
      exact SectorNo.toNat_inj.mp (Nat.le_antisymm atMost least.1.2)
    subst second
    refine ⟨RamDisk.fault_of_refuses refuses, ?_, ?_⟩
    · exact Option.some.inj (written 11 (by decide) (by decide))
    · exact (others ⟨1⟩ 499 (by decide) (by decide)).trans (by decide +kernel)

/-! ## A sector that has no number -/

section Covered

variable {medium : Medium δ} {N : Nat} (addressable : N ≤ UInt32.size)
  (readable : ∀ s : SectorNo, s.toNat < N → medium.Reads s False)
  (consistent : Cache.Consistent medium volume.cache) (found : volume.inode? id = some inode)
include addressable readable consistent found

theorem readAt_ends_of_covered {position n : Nat} {buffer : List UInt8}
    (share : inode.descriptor.granted position buffer.length = n)
    (covered : inode.descriptor.Covered N position n) :
    Step.Ends (readAt id position buffer) volume
      (fun result after => ¬ inode.descriptor.Overruns (position + n) ∧
        result = (n, ((inode.descriptor.bytesIn (volume.cache.view medium.sector)).drop
          position).take n ++ buffer.drop n) ∧
        after = { volume with cache := after.cache } ∧
        after.cache.view medium.sector = volume.cache.view medium.sector)
      fun fault after => inode.descriptor.Overruns (position + n) ∧ fault = .overflow ∧
        after = { volume with cache := after.cache } ∧
        after.cache.view medium.sector = volume.cache.view medium.sector := by
  subst share
  apply (ends_readAt found).mpr
  apply (consistent.readFile_ends position buffer.length
    fun i inside => (covered.reads addressable readable inside).mono False.elim).imp
  · intro bytes cache ended
    obtain ⟨rfl, -, view, reaches⟩ := ended
    refine ⟨reaches.not_overruns, ?_, rfl, view⟩
    rw [List.length_map, List.length_range, Descriptor.map_byteOf_eq_slice]
  · intro fault cache ended
    obtain ⟨-, view, served, stops⟩ := ended
    obtain ⟨-, overflow, overruns⟩ := stops.at_end covered addressable readable
    exact ⟨overruns, overflow, rfl, view⟩

theorem writeAt_ends_of_covered (allowed : inode.denials = 0) {position n : Nat}
    {data : List UInt8} (share : inode.descriptor.granted position data.length = n)
    (covered : inode.descriptor.Covered N position n) :
    let leaves (after : Volume δ) : Prop :=
      after = { volume with cache := after.cache } ∧
        inode.descriptor.WrittenBelow N position n data (volume.cache.view medium.sector)
          (after.cache.view medium.sector)
    Step.Ends (writeAt id position data) volume
      (fun written after => ¬ inode.descriptor.Overruns (position + n) ∧ written = n ∧
        leaves after)
      fun fault after => inode.descriptor.Overruns (position + n) ∧ fault = .overflow ∧
        leaves after := by
  intro leaves
  subst share
  have written {after : SectorNo → Sector}
      (spliced : inode.descriptor.Spliced position
        (data.take (inode.descriptor.granted position data.length))
        (volume.cache.view medium.sector) after) :=
    spliced.writtenBelow (Nat.le_refl _) (fun i => covered.hasNumber addressable)
      fun i inside => iff_of_true (covered i inside) inside
  apply (ends_writeAt found allowed).mpr
  apply (consistent.writeFile_ends position rfl
    fun i inside => (covered.reads addressable readable inside).mono False.elim).imp
  · intro count cache ended
    obtain ⟨rfl, -, spliced, reaches⟩ := ended
    exact ⟨reaches.not_overruns, rfl, rfl, written spliced⟩
  · intro fault cache ended
    obtain ⟨-, served, spliced, stops⟩ := ended
    obtain ⟨rfl, overflow, overruns⟩ := stops.at_end covered addressable readable
    exact ⟨overruns, overflow, rfl, written spliced⟩

end Covered

/-- A request on an open file, in front of a device that can read all sectors below `N`, where the
sectors that the request touches are all of these.  Neither the rest of the file nor the rest of
the device matters, except for one thing.

If the file goes on behind the request in a sector that has no number, the request stops with an
overflow; otherwise it gives all that there is.  It is served in full either way: what was read
changes nothing, and what was to be written is written.  So only a request can overflow that is
empty or ends with its sector. -/
theorem covered_requests_overflow_behind_their_end {medium : Medium δ} {N : Nat}
    (addressable : N ≤ UInt32.size)
    (readable : ∀ s : SectorNo, s.toNat < N → medium.Reads s False)
    (reachable : volume.cache.Reachable medium) (found : volume.inode? id = some inode)
    (position : Nat) :
    let d := inode.descriptor
    let granted (count : Nat) := if position < d.size then min count (d.size - position) else 0
    (∀ buffer : List UInt8,
      let n := granted buffer.length
      d.Covered N position n → Step.Ends (readAt id position buffer) volume
        (fun result after => ¬ d.Overruns (position + n) ∧
          result = (n, ((d.bytesIn (volume.cache.view medium.sector)).drop position).take n ++
            buffer.drop n) ∧
          after = { volume with cache := after.cache } ∧
          after.cache.view medium.sector = volume.cache.view medium.sector)
        fun fault after => d.Overruns (position + n) ∧ fault = .overflow ∧
          after = { volume with cache := after.cache } ∧
          after.cache.view medium.sector = volume.cache.view medium.sector) ∧
      (inode.denials = 0 → ∀ data : List UInt8,
        let n := granted data.length
        let leaves (after : Volume δ) : Prop :=
          after = { volume with cache := after.cache } ∧
            d.WrittenBelow N position n data (volume.cache.view medium.sector)
              (after.cache.view medium.sector)
        d.Covered N position n → Step.Ends (writeAt id position data) volume
          (fun written after => ¬ d.Overruns (position + n) ∧ written = n ∧ leaves after)
          fun fault after => d.Overruns (position + n) ∧ fault = .overflow ∧ leaves after) ∧
      ∀ n, d.Covered N position n → d.Overruns (position + n) →
        n = 0 ∨ (position + n) % sectorSize = 0 := by
  intro d granted
  have consistent := reachable.consistent
  refine ⟨?_, ?_, ?_⟩
  · intro buffer n covered
    exact readAt_ends_of_covered addressable readable consistent found
      (Descriptor.granted_eq ..) covered
  · intro allowed data n leaves covered
    exact writeAt_ends_of_covered addressable readable consistent found allowed
      (Descriptor.granted_eq ..) covered
  · intro n covered overruns
    exact covered.aligned addressable overruns

/-- The last sector that has a number is written up to its end and then looked behind, as the file
goes on; reading that ends before does not look behind it. -/
theorem last_sector_is_written_with_an_overflow :
    let inode : Inode := { sector := ⟨0⟩, descriptor := .ofRun ⟨0xffffffff⟩ 1024 }
    let volume : Volume RamDisk := {
      cache := { device := { sectors := UInt32.size } }
      map := .empty 1
      files := { inodes := #[inode] } }
    (∀ s : SectorNo, s.toNat < UInt32.size →
        (RamDisk.storage UInt32.size).medium.Reads s False) ∧
      volume.cache.Reachable (RamDisk.storage UInt32.size).medium ∧
      volume.inode? ⟨0⟩ = some inode ∧ inode.denials = 0 ∧
      inode.descriptor.Covered UInt32.size 500 12 ∧
      (Step.Ends (writeAt ⟨0⟩ 500 (List.replicate 12 7)) volume (fun _ _ => False)
        fun fault after => fault = .overflow ∧
          (after.cache.view RamDisk.sector ⟨0xffffffff⟩).byteAt 511 = 7) ∧
      Step.Yields (readAt ⟨0⟩ 500 (List.replicate 11 9)) volume fun result _ =>
        result.1 = 11 := by
  intro inode volume
  have readable (s : SectorNo) (inside : s.toNat < UInt32.size) :
      (RamDisk.storage UInt32.size).medium.Reads s False :=
    (RamDisk.storage UInt32.size).toStorage.reads inside
  have reachable : volume.cache.Reachable (RamDisk.storage UInt32.size).medium :=
    .run ({ sectors := UInt32.size } : RamDisk) [] rfl fun call _ => call.answerable_of_bounded _
  have covered {count : Nat} (short : count ≤ 12) :
      inode.descriptor.Covered UInt32.size 500 count := by
    intro i inside
    have start : inode.descriptor.start.toNat = 0xffffffff := rfl
    simp only [Descriptor.placeOf, start, sectorSize, UInt32.size]
    omega
  obtain ⟨reading, writing, -⟩ := covered_requests_overflow_behind_their_end (Nat.le_refl _)
    readable reachable (rfl : volume.inode? ⟨0⟩ = some inode) 500
  refine ⟨readable, reachable, rfl, rfl, covered (Nat.le_refl _), ?_, ?_⟩
  · apply (writing rfl (List.replicate 12 7) (covered (by decide))).imp
    · exact fun _ _ ended => absurd (by decide) ended.1
    · intro fault after ended
      obtain ⟨-, overflow, -, written, -⟩ := ended
      exact ⟨overflow, Option.some.inj (written 11 (by decide) (by decide))⟩
  · apply (reading (List.replicate 11 9) (covered (by decide))).imp
    · intro result _ ended
      obtain ⟨-, rfl, -⟩ := ended
      decide
    · exact fun _ _ ended => absurd ended.1 (by decide)

/-- Empty requests touch no sector, and yet they overflow where the file goes on in a sector that
has no number. -/
theorem empty_requests_overflow :
    let inode : Inode := { sector := ⟨0⟩, descriptor := .ofRun ⟨0xffffffff⟩ 1024 }
    let volume : Volume RamDisk := {
      cache := { device := { sectors := 1 } }
      map := .empty 1
      files := { inodes := #[inode] } }
    volume.cache.Reachable (RamDisk.storage 1).medium ∧ volume.inode? ⟨0⟩ = some inode ∧
      inode.denials = 0 ∧ inode.descriptor.Covered 1 512 0 ∧
      (Step.Ends (readAt ⟨0⟩ 512 []) volume (fun _ _ => False) fun fault _ => fault = .overflow) ∧
      Step.Ends (writeAt ⟨0⟩ 512 []) volume (fun _ _ => False)
        fun fault _ => fault = .overflow := by
  intro inode volume
  have readable (s : SectorNo) (inside : s.toNat < 1) : (RamDisk.storage 1).medium.Reads s False :=
    (RamDisk.storage 1).toStorage.reads inside
  have reachable : volume.cache.Reachable (RamDisk.storage 1).medium :=
    .run ({ sectors := 1 } : RamDisk) [] rfl fun call _ => call.answerable_of_bounded _
  have covered : inode.descriptor.Covered 1 512 0 := fun i inside => absurd inside (Nat.not_lt_zero i)
  have overruns : inode.descriptor.Overruns (512 + 0) := by decide
  have nothing : inode.descriptor.granted 512 ([] : List UInt8).length = 0 := rfl
  refine ⟨reachable, rfl, rfl, covered, ?_, ?_⟩
  · apply (readAt_ends_of_covered (by decide) readable reachable.consistent
      (rfl : volume.inode? ⟨0⟩ = some inode) nothing covered).imp
    · exact fun _ _ ended => absurd overruns ended.1
    · exact fun _ _ ended => ended.2.1
  · apply (writeAt_ends_of_covered (by decide) readable reachable.consistent
      (rfl : volume.inode? ⟨0⟩ = some inode) rfl nothing covered).imp
    · exact fun _ _ ended => absurd overruns ended.1
    · exact fun _ _ ended => ended.2.1

end Volume

end Residency
