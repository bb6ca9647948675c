import Residency.Proofs.Bitmap.Capacity

/-!
# The numbers of runs

`Bitmap.allocate` looks for a run among all sectors of a map, and gives the number of its first
sector, of which it keeps 32 bits.

`allocation_names_runs_that_start_below_the_limit`: so the number is that of the run just if the run
starts at a sector whose number has no more bits, as it does in each map of at most `2 ^ 32`
sectors; and then releasing the run leads back to the map before.  `misnamed_run` is a run that
starts behind these.
-/

namespace Residency.Bitmap

variable {map after restored : Bitmap} {sector : SectorNo} {start stop count : Nat}

/-- The `count` sectors from `sector` on were free in `map`, are in use in `after`, and all others
are as they were. -/
structure Names (map : Bitmap) (sector : SectorNo) (count : Nat) (after : Bitmap) : Prop where
  wasFree : ∀ t, sector.toNat ≤ t → t < sector.toNat + count → map.isUsed t = false
  inUse : ∀ t, sector.toNat ≤ t → t < sector.toNat + count → after.isUsed t = true
  others : ∀ t, ¬ (sector.toNat ≤ t ∧ t < sector.toNat + count) → after.isUsed t = map.isUsed t

theorem names_of_toNat_eq (isFree : map.IsFreeRun start count)
    (flipped : map.Flipped start (start + count) after) (number : sector.toNat = start) :
    map.Names sector count after := by
  subst number
  refine ⟨isFree.2, fun t low high => ?_, fun t outside => ?_⟩
  · rw [flipped.isUsed, if_pos ⟨low, high⟩, isFree.2 t low high]
    rfl
  · rw [flipped.isUsed, if_neg outside]

/-- The first run is not called by the number of an earlier sector, as from there on no run is
free. -/
theorem not_names_of_toNat_lt (isFree : map.IsFreeRun start count)
    (first : ∀ earlier < start, ¬ map.IsFreeRun earlier count) (earlier : sector.toNat < start) :
    ¬ map.Names sector count after := by
  intro names
  have inside := isFree.1
  exact first sector.toNat earlier ⟨by omega, names.wasFree⟩

/-! ## Releasing -/

theorem release_flips (map : Bitmap) (sector : SectorNo) (count : Nat) :
    Step.Ends (release sector count) map
      (fun _ after => ∃ stop, map.Flipped sector.toNat stop after)
      fun _ after => ∃ stop, map.Flipped sector.toNat stop after := by
  apply (map.range_ends_at_misfit true .sectorNotAllocated sector.toNat count).imp
  · exact fun _ _ ended => ⟨_, ended.2.2⟩
  · intro _ after ended
    rcases ended with ⟨-, -, rfl⟩ | ⟨-, b, -, -, flipped⟩
    · -- nothing is changed, as of an empty range
      exact ⟨sector.toNat, rfl, fun t => by rw [if_neg (by omega)]⟩
    · exact ⟨b, flipped⟩

/-- Changing bits from an earlier sector on does not undo what was changed. -/
theorem Flipped.ne_of_lt {first : Nat} (flipped : map.Flipped start (start + count) after)
    (flippedToo : after.Flipped first stop restored) (some_wanted : count ≠ 0)
    (earlier : first < start) : restored ≠ map := by
  intro same
  subst same
  by_cases any : first < stop
  · -- the first bit was changed once, by the second call
    have once := flippedToo.isUsed first
    rw [if_pos ⟨Nat.le_refl _, any⟩, flipped.isUsed, if_neg (by omega)] at once
    exact (Bool.eq_not_self _).mp once
  · -- nothing was changed by the second call
    have once := flippedToo.isUsed start
    rw [if_neg (by omega), flipped.isUsed, if_pos (by omega)] at once
    exact (Bool.eq_not_self _).mp once

/-! ## Allocating -/

/-- Sectors that are given out, in any map that can be held in memory.  The first run that is free
is taken, and is called by the number of its first sector, without the digits past 32 bits.

If the sector has no such digits, the sectors that are called so were free and are those that have
been taken, and releasing them succeeds and leads back to the map as it was; this is so in each map
of at most `2 ^ 32` sectors.  Otherwise other sectors are called so than have been taken, and
releasing these does not lead back, whether or not it succeeds. -/
theorem allocation_names_runs_that_start_below_the_limit (sized : map.capacity < wordLimit)
    (some_wanted : count ≠ 0) (found : map.allocate count = (some sector, after)) :
    ∃ start, sector.toNat = start % UInt32.size ∧
      map.IsFreeRun start count ∧ (∀ earlier < start, ¬ map.IsFreeRun earlier count) ∧
      map.Flipped start (start + count) after ∧
      (map.Names sector count after ↔ start < UInt32.size) ∧
      (start < UInt32.size →
        Step.Yields (release sector count) after fun _ restored => restored = map) ∧
      (UInt32.size ≤ start → Step.Ends (release sector count) after
        (fun _ restored => restored ≠ map) fun _ restored => restored ≠ map) ∧
      (map.capacity ≤ UInt32.size → start < UInt32.size) := by
  rcases map.allocate_cases some_wanted with ⟨start, run, isFree, first⟩ | ⟨none, -⟩
  · cases found.symm.trans run
    have inside := isFree.1
    have number := SectorNo.toNat_ofNat_mod start
    have flipped : map.Flipped start (start + count) (map.flipRange start count) :=
      flipped_flipRange fun t _ high => hasBit_of_lt (by omega)
    -- cut to 32 bits, a number that has more gets smaller
    have earlier (large : UInt32.size ≤ start) : (SectorNo.ofNat start).toNat < start := by
      have small := (SectorNo.ofNat start).toNat_lt
      omega
    refine ⟨start, number, isFree, first, flipped, ⟨fun names => ?_, fun small => ?_⟩, ?_, ?_, ?_⟩
    · by_contra large
      exact not_names_of_toNat_lt isFree first (earlier (Nat.not_lt.mp large)) names
    · exact names_of_toNat_eq isFree flipped (SectorNo.toNat_ofNat small)
    · intro small
      have number := SectorNo.toNat_ofNat small
      apply Step.Yields.imp (release_yields (by omega) (by rw [capacity_flipRange]; omega) ?_)
      · rintro _ _ rfl
        rw [number, flipRange_flipRange inside]
      · exact (names_of_toNat_eq isFree flipped number).inUse
    · intro large
      apply (release_flips _ (.ofNat start) count).imp
      · exact fun _ _ ⟨_, again⟩ => flipped.ne_of_lt again some_wanted (earlier large)
      · exact fun _ _ ⟨_, again⟩ => flipped.ne_of_lt again some_wanted (earlier large)
    · omega
  · cases found.symm.trans none

/-- Behind a range that was reserved from sector zero on, the next run starts. -/
theorem allocate_behind_reserved {capacity bound : Nat} (sized : bound < wordLimit)
    (some_wanted : count ≠ 0) (inside : bound + count ≤ capacity) :
    ∃ map, (empty capacity).serve [.reserve ⟨0⟩ bound] = map ∧ map.capacity = capacity ∧
      map.UsedBelow bound ∧
      map.allocate count = (some (.ofNat bound), map.flipRange bound count) := by
  have fits : (⟨0⟩ : SectorNo).toNat + bound < wordLimit :=
    (Nat.zero_add bound).symm ▸ sized
  have within : 0 + bound ≤ (empty capacity).capacity :=
    (Nat.zero_add bound).symm ▸ Nat.le_of_add_right_le inside
  have served : (empty capacity).serve [.reserve ⟨0⟩ bound] =
      (empty capacity).flipRange 0 bound := by
    apply BitmapCall.after_of_ends (.reserve ⟨0⟩ bound)
      fun after => after = (empty capacity).flipRange 0 bound
    rw [BitmapCall.step, Step.ends_bind]
    apply Step.Yields.imp (reserve_yields fits within
      fun t _ _ => isUsed_empty capacity t)
    exact fun _ _ same => (Step.ends_pure _).mpr same
  have used := (usedBelow_empty capacity).flipRange within
  rw [Nat.zero_add] at used
  refine ⟨_, served, capacity_flipRange 0 bound, used, ?_⟩
  rw [used.allocate_eq some_wanted, if_pos]
  rw [capacity_flipRange]
  exact inside

/-- A run that starts at the last sector with a number of 32 bits, and goes on behind it. -/
theorem run_across_the_limit_is_named :
    ∃ map after, (empty 0x100000001).serve [.reserve ⟨0⟩ 0xffffffff] = map ∧
      map.capacity < wordLimit ∧ 2 ≠ 0 ∧ map.allocate 2 = (some (.ofNat 0xffffffff), after) ∧
      map.Names (.ofNat 0xffffffff) 2 after ∧
      Step.Yields (release (.ofNat 0xffffffff) 2) after fun _ restored => restored = map := by
  obtain ⟨map, served, size, -, found⟩ := allocate_behind_reserved
    (by decide : 0xffffffff < wordLimit) (by decide : 2 ≠ 0)
    (by decide : 0xffffffff + 2 ≤ 0x100000001)
  have sized : map.capacity < wordLimit := by
    rw [size]
    decide
  obtain ⟨start, -, isFree, -, -, names, restores, -⟩ :=
    allocation_names_runs_that_start_below_the_limit sized (by decide) found
  have small : start < UInt32.size := by
    have inside := isFree.1
    rw [size] at inside
    exact Nat.lt_of_le_of_lt (by omega : start ≤ 0xffffffff) (by decide)
  exact ⟨map, _, served, sized, by decide, found, names.mpr small, restores small⟩

/-- The only free sector has no number of 32 bits, and is given out as sector zero, which is in
use. -/
theorem misnamed_run :
    ∃ map after, (empty (UInt32.size + 1)).serve [.reserve ⟨0⟩ UInt32.size] = map ∧
      map.allocate 1 = (some ⟨0⟩, after) ∧ map.isUsed 0 = true ∧
      map.isUsed UInt32.size = false ∧ after.isUsed UInt32.size = true := by
  obtain ⟨map, served, size, used, found⟩ := allocate_behind_reserved
    (by decide : UInt32.size < wordLimit) (by decide : 1 ≠ 0) (Nat.le_refl (UInt32.size + 1))
  have free : map.isUsed UInt32.size = false := by
    rw [used, decide_eq_false (Nat.lt_irrefl _)]
  refine ⟨map, _, served, found, by rw [used, decide_eq_true (by decide)], free, ?_⟩
  rw [isUsed_flipRange (by rw [size]), if_pos (by omega), free]
  rfl

end Residency.Bitmap
