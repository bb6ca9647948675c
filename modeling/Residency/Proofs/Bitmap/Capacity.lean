import Residency.Proofs.Bitmap.FirstFit
import Residency.Proofs.Bitmap.Ranges

/-!
# Bits past the capacity

The last word of a map may have bits past the capacity.  Allocating and counting do not look at
them, while reserving and releasing do not look at the capacity: they only need a bit.

`none_beyond_capacity`: such a bit is set by no run of calls in which none *oversteps*, that is
reserves a range up to a sector past the capacity with nothing in its way; and a call that does so
sets one.  Where the capacity fills the words there is nothing to overstep to.
`reserved_beyond_capacity` is a call that oversteps.
-/

namespace Residency

namespace Bitmap

variable {map after : Bitmap} {used : Bool} {start count : Nat}

/-- No sector past the capacity is in use. -/
def NoneBeyond (map : Bitmap) : Prop :=
  ∀ t, map.capacity ≤ t → map.isUsed t = false

theorem noneBeyond_empty (capacity : Nat) : (empty capacity).NoneBeyond :=
  fun t _ => isUsed_empty capacity t

theorem allocate_keeps_beyond (map : Bitmap) (count : Nat) :
    (map.allocate count).2.capacity = map.capacity ∧
      ∀ t, map.capacity ≤ t → (map.allocate count).2.isUsed t = map.isUsed t := by
  by_cases none_wanted : count = 0
  · subst none_wanted
    exact ⟨rfl, fun _ _ => rfl⟩
  · rcases map.allocate_cases none_wanted with ⟨start, found, isFree, -⟩ | ⟨found, -⟩
    · rw [found]
      refine ⟨capacity_flipRange start count, fun t beyond => ?_⟩
      have inside := isFree.1
      rw [isUsed_flipRange inside, if_neg (by omega)]
    · rw [found]
      exact ⟨rfl, fun _ _ => rfl⟩

/-! ## How far a range is changed -/

/-- The range can be gone through up to the sector: its end is a number, the sector lies in it, and
this one and those before it all have a bit that is as `used` says. -/
structure Passes (map : Bitmap) (used : Bool) (start count sector : Nat) : Prop where
  fits : start + count < wordLimit
  low : start ≤ sector
  high : sector < start + count
  all : ∀ t, start ≤ t → t ≤ sector → map.HasBit t ∧ map.isUsed t = used

theorem Passes.isUsed {sector : Nat} (passes : map.Passes used start count sector) :
    map.isUsed sector = used :=
  (passes.all sector passes.low (Nat.le_refl _)).2

theorem passes_iff_of_no_misfit (fits : start + count < wordLimit)
    (none : map.misfits used start count = ∅) (sector : Nat) :
    map.Passes used start count sector ↔ start ≤ sector ∧ sector < start + count := by
  refine ⟨fun passes => ⟨passes.low, passes.high⟩, fun inside => ⟨fits, inside.1, inside.2, ?_⟩⟩
  intro t low high
  by_contra misfit
  have member : t ∈ map.misfits used start count :=
    ⟨low, Nat.lt_of_le_of_lt high inside.2, fun hasBit same => misfit ⟨hasBit, same⟩⟩
  rw [none] at member
  exact member

theorem passes_iff_of_misfit (fits : start + count < wordLimit) {b : Nat}
    (least : IsLeast (map.misfits used start count) b) (sector : Nat) :
    map.Passes used start count sector ↔ start ≤ sector ∧ sector < b := by
  obtain ⟨⟨low, high, misfit⟩, first⟩ := least
  constructor
  · intro passes
    refine ⟨passes.low, ?_⟩
    by_contra behind
    obtain ⟨hasBit, same⟩ := passes.all b low (Nat.not_lt.mp behind)
    exact misfit hasBit same
  · intro inside
    refine ⟨fits, inside.1, Nat.lt_trans inside.2 high, fun t lowToo highToo => ?_⟩
    by_contra misfitToo
    have bound : b ≤ t := first ⟨lowToo, by omega, fun hasBit same => misfitToo ⟨hasBit, same⟩⟩
    omega

/-- The bits that pass are changed, and no others. -/
structure Passed (map : Bitmap) (used : Bool) (start count : Nat) (after : Bitmap) : Prop where
  capacity : after.capacity = map.capacity
  changed : ∀ t, map.Passes used start count t → after.isUsed t = !used
  kept : ∀ t, ¬ map.Passes used start count t → after.isUsed t = map.isUsed t

theorem Flipped.passed {stop : Nat} (flipped : map.Flipped start stop after)
    (passes : ∀ t, map.Passes used start count t ↔ start ≤ t ∧ t < stop) :
    map.Passed used start count after where
  capacity := flipped.capacity
  changed t passing := by
    rw [flipped.isUsed, if_pos ((passes t).mp passing), passing.isUsed]
  kept t blocked := by
    rw [flipped.isUsed, if_neg fun inside => blocked ((passes t).mpr inside)]

/-- Of a range as much is changed as passes, whether or not that is all of it. -/
theorem range_passes (map : Bitmap) (used : Bool) (fault : Nat → Fault) (start count : Nat) :
    Step.Ends (do
        let _ ← addSizes start count
        flipEach used fault start count) map
      (fun _ after => start + count < wordLimit ∧ map.misfits used start count = ∅ ∧
        map.Passed used start count after)
      fun _ after => map.Passed used start count after := by
  apply (map.range_ends_at_misfit used fault start count).imp
  · intro _ after ended
    obtain ⟨fits, none, flipped⟩ := ended
    exact ⟨fits, none, flipped.passed (passes_iff_of_no_misfit fits none)⟩
  · intro _ after ended
    rcases ended with ⟨large, -, rfl⟩ | ⟨fits, b, least, -, flipped⟩
    · exact ⟨rfl, fun _ passes => absurd passes.fits (Nat.not_lt.mpr large), fun _ _ => rfl⟩
    · exact flipped.passed (passes_iff_of_misfit fits least)

end Bitmap

/-! ## Calls -/

namespace BitmapCall

open Bitmap

/-- The map after a call, whether or not it fails. -/
def after (map : Bitmap) (call : BitmapCall) : Bitmap :=
  match call.step.run map with
  | .ok _ after | .error _ after => after

/-- Whether a call reserves a range up to a sector past the capacity with nothing in its way. -/
def Oversteps (map : Bitmap) : BitmapCall → Prop
  | .reserve start count =>
    ∃ sector, map.capacity ≤ sector ∧ map.Passes false start.toNat count sector
  | .allocate _ | .release .. => False

variable {map : Bitmap} {call : BitmapCall}

theorem after_of_ends (call : BitmapCall) (holds : Bitmap → Prop)
    (ends : Step.Ends call.step map (fun _ after => holds after) fun _ after => holds after) :
    holds (call.after map) := by
  unfold after
  cases run : call.step.run map with
  | ok _ _ => exact ends.done_of_run run
  | error _ _ => exact ends.stopped_of_run run

/-- A call keeps the capacity, and sets no bit past it unless it oversteps. -/
theorem call_keeps_beyond (call : BitmapCall) (map : Bitmap) :
    (call.after map).capacity = map.capacity ∧
      (map.NoneBeyond → ((call.after map).NoneBeyond ↔ ¬ call.Oversteps map)) := by
  apply call.after_of_ends fun after => after.capacity = map.capacity ∧
    (map.NoneBeyond → (after.NoneBeyond ↔ ¬ call.Oversteps map))
  cases call with
  | allocate count =>
    rw [step, Step.ends_modifyGet]
    obtain ⟨capacity, kept⟩ := map.allocate_keeps_beyond count
    refine ⟨capacity, fun clean => iff_of_true ?_ id⟩
    intro t beyond
    rw [capacity] at beyond
    exact (kept t beyond).trans (clean t beyond)
  | reserve start count =>
    -- what has passed is set, also where the call fails behind it
    have changes {after : Bitmap} (passed : map.Passed false start.toNat count after) :
        after.capacity = map.capacity ∧ (map.NoneBeyond →
          (after.NoneBeyond ↔ ¬ Oversteps map (.reserve start count))) := by
      refine ⟨passed.capacity, fun clean => ⟨?_, ?_⟩⟩
      · rintro cleanAfter ⟨t, beyond, passes⟩
        have set := passed.changed t passes
        rw [cleanAfter t (passed.capacity ▸ beyond)] at set
        cases set
      · intro spared t beyond
        rw [passed.capacity] at beyond
        rw [passed.kept t fun passes => spared ⟨t, beyond, passes⟩, clean t beyond]
    rw [step, Step.ends_bind]
    apply (map.range_passes false .sectorInUse start.toNat count).imp
    · exact fun _ _ ended => (Step.ends_pure _).mpr (changes ended.2.2)
    · exact fun _ _ passed => changes passed
  | release start count =>
    -- what has passed is clear, and all else past the capacity was clear before
    have changes {after : Bitmap} (passed : map.Passed true start.toNat count after) :
        after.capacity = map.capacity ∧ (map.NoneBeyond →
          (after.NoneBeyond ↔ ¬ Oversteps map (.release start count))) := by
      refine ⟨passed.capacity, fun clean => iff_of_true ?_ id⟩
      intro t beyond
      rw [passed.capacity] at beyond
      by_cases passes : map.Passes true start.toNat count t
      · exact passed.changed t passes
      · exact (passed.kept t passes).trans (clean t beyond)
    rw [step, Step.ends_bind]
    apply (map.range_passes true .sectorNotAllocated start.toNat count).imp
    · exact fun _ _ ended => (Step.ends_pure _).mpr (changes ended.2.2)
    · exact fun _ _ passed => changes passed

/-- Where the capacity fills the words, each bit is that of a sector below it. -/
theorem not_oversteps_of_dvd (fills : wordBits ∣ map.capacity) (call : BitmapCall) :
    ¬ call.Oversteps map := by
  cases call with
  | allocate _ | release _ _ => exact id
  | reserve start count =>
    rintro ⟨sector, beyond, passes⟩
    have hasBit := (passes.all sector passes.low (Nat.le_refl _)).1
    simp only [HasBit, wordBits] at hasBit fills
    omega

end BitmapCall

namespace Bitmap

section Ranges

variable {map : Bitmap} {start : SectorNo} {count : Nat}

/-- The last sector of a range passes if the call that goes through it succeeds. -/
theorem passes_last {used : Bool} (some_wanted : 0 < count)
    (fits : start.toNat + count < wordLimit)
    (none : map.misfits used start.toNat count = ∅) :
    map.Passes used start.toNat count (start.toNat + count - 1) :=
  (passes_iff_of_no_misfit fits none _).mpr (by omega)

theorem release_fails_beyond (clean : map.NoneBeyond) (some_wanted : 0 < count)
    (beyond : map.capacity < start.toNat + count) :
    Step.Ends (release start count) map (fun _ _ => False) fun _ _ => True := by
  apply (map.range_passes true .sectorNotAllocated start.toNat count).imp
  · intro _ after ended
    obtain ⟨fits, none, -⟩ := ended
    have clear := clean (start.toNat + count - 1) (by omega)
    rw [(passes_last some_wanted fits none).isUsed] at clear
    cases clear
  · exact fun _ _ _ => trivial

theorem reserve_oversteps_beyond (some_wanted : 0 < count)
    (beyond : map.capacity < start.toNat + count) :
    Step.Ends (reserve start count) map
      (fun _ _ => (BitmapCall.reserve start count).Oversteps map) fun _ _ => True := by
  apply (map.range_passes false .sectorInUse start.toNat count).imp
  · intro _ after ended
    obtain ⟨fits, none, -⟩ := ended
    exact ⟨_, by omega, passes_last some_wanted fits none⟩
  · exact fun _ _ _ => trivial

theorem reserve_lowers_freeSectors
    (spared : ¬ (BitmapCall.reserve start count).Oversteps map) :
    Step.Ends (reserve start count) map
      (fun _ after => after.freeSectors + count = map.freeSectors) fun _ _ => True := by
  simp only [reserve, Step.ends_bind, Step.ends_addSizes]
  by_cases fits : start.toNat + count < wordLimit
  · rw [if_pos fits]
    apply (map.flipEach_ends false .sectorInUse start.toNat count).imp
    · intro _ after ended
      obtain ⟨rfl, all⟩ := ended
      by_cases none_wanted : count = 0
      · subst none_wanted
        rfl
      · -- the range would overstep if it did not end below the capacity
        have inside : start.toNat + count ≤ map.capacity := by
          by_contra beyond
          exact spared ⟨start.toNat + count - 1, by omega, fits, by omega, by omega,
            fun t low high => all t low (by omega)⟩
        have isFree : map.IsFreeRun start.toNat count :=
          ⟨inside, fun t low high => (all t low high).2⟩
        have counted := ((Lends.nothing map).take isFree).freeSectors_add
        rw [List.append_nil, List.length_range'] at counted
        exact counted
    · exact fun _ _ _ => trivial
  · rw [if_neg fits]
    trivial

end Ranges

/-! ## Runs of calls -/

/-- The map after calls, whether or not they fail. -/
def serve (map : Bitmap) (calls : List BitmapCall) : Bitmap :=
  calls.foldl BitmapCall.after map

/-- No call of a run oversteps in the map in which it is made. -/
def NeverOversteps (map : Bitmap) : List BitmapCall → Prop
  | [] => True
  | call :: rest => ¬ call.Oversteps map ∧ (call.after map).NeverOversteps rest

theorem serve_keeps_beyond {map : Bitmap} {calls : List BitmapCall} (clean : map.NoneBeyond)
    (spared : map.NeverOversteps calls) :
    (map.serve calls).capacity = map.capacity ∧ (map.serve calls).NoneBeyond := by
  induction calls generalizing map with
  | nil => exact ⟨rfl, clean⟩
  | cons call rest inductionHypothesis =>
    obtain ⟨first, others⟩ := spared
    obtain ⟨capacity, keeps⟩ := call.call_keeps_beyond map
    obtain ⟨capacityRest, cleanRest⟩ := inductionHypothesis ((keeps clean).mpr first) others
    exact ⟨capacityRest.trans capacity, cleanRest⟩

theorem neverOversteps_of_dvd {map : Bitmap} (fills : wordBits ∣ map.capacity)
    (calls : List BitmapCall) : map.NeverOversteps calls := by
  induction calls generalizing map with
  | nil => trivial
  | cons call rest inductionHypothesis =>
    refine ⟨call.not_oversteps_of_dvd fills, inductionHypothesis ?_⟩
    rw [(call.call_keeps_beyond map).1]
    exact fills

/-- A map without used sectors, after any run of calls, successful or not, of which none oversteps.
No sector past the capacity is in use.  So a range that is not empty and reaches past the capacity
is not released, and not reserved either unless that oversteps; and where a range is reserved
without that, there are as many free sectors less as it has.

The next call sets a bit past the capacity just if it oversteps, which cannot happen where the
capacity fills the words. -/
theorem none_beyond_capacity {capacity : Nat} {calls : List BitmapCall}
    (spared : (empty capacity).NeverOversteps calls) :
    let map := (empty capacity).serve calls
    (∀ t, capacity ≤ t → map.isUsed t = false) ∧
      (∀ (start : SectorNo) count, 0 < count → capacity < start.toNat + count →
        Step.Ends (release start count) map (fun _ _ => False) (fun _ _ => True) ∧
          Step.Ends (reserve start count) map
            (fun _ _ => (BitmapCall.reserve start count).Oversteps map) fun _ _ => True) ∧
      (∀ (start : SectorNo) count, ¬ (BitmapCall.reserve start count).Oversteps map →
        Step.Ends (reserve start count) map
          (fun _ after => after.freeSectors + count = map.freeSectors) fun _ _ => True) ∧
      (∀ call : BitmapCall, (∃ t, capacity ≤ t ∧ (call.after map).isUsed t = true) ↔
        call.Oversteps map) ∧
      (wordBits ∣ capacity → ∀ later, map.NeverOversteps later) := by
  intro map
  obtain ⟨size, clean⟩ := serve_keeps_beyond (noneBeyond_empty capacity) spared
  have size : map.capacity = capacity := size
  have clean : map.NoneBeyond := clean
  refine ⟨fun t beyond => clean t (size ▸ beyond), ?_, ?_, ?_, ?_⟩
  · intro start count some_wanted beyond
    rw [← size] at beyond
    exact ⟨release_fails_beyond clean some_wanted beyond,
      reserve_oversteps_beyond some_wanted beyond⟩
  · exact fun start count => reserve_lowers_freeSectors
  · intro call
    obtain ⟨sizeAfter, keeps⟩ := call.call_keeps_beyond map
    rw [← not_iff_not, ← keeps clean, NoneBeyond, sizeAfter, size]
    simp only [not_exists, not_and, Bool.not_eq_true]
  · intro fills later
    exact neverOversteps_of_dvd (size.symm ▸ fills) later

/-- Ranges that reach past the capacity are refused, because of a sector in use or of one past the
capacity that is not.  Behind them everything is free, and everything can be reserved. -/
theorem none_beyond_ten_sectors :
    let calls : List BitmapCall := [.allocate 3, .reserve ⟨2⟩ 9, .release ⟨0⟩ 12]
    (empty 10).NeverOversteps calls ∧ ((empty 10).serve calls).isUsed 10 = false ∧
      ∃ after, (reserve ⟨0⟩ 10).run ((empty 10).serve calls) = .ok () after ∧
        after.freeSectors = 0 := by
  intro calls
  have spared : (empty 10).NeverOversteps calls := by
    refine ⟨id, ?_, id, trivial⟩
    rintro ⟨sector, beyond, passes⟩
    have inUse := (passes.all 2 (Nat.le_refl _) (Nat.le_trans (by decide) beyond)).2
    exact absurd inUse (by decide)
  obtain ⟨clean, -, lowers, -⟩ := none_beyond_capacity spared
  have inside : ¬ (BitmapCall.reserve ⟨0⟩ 10).Oversteps ((empty 10).serve calls) := by
    rintro ⟨sector, beyond, passes⟩
    exact absurd passes.high (Nat.not_lt.mpr beyond)
  have emptied : (empty 10).serve calls = empty 10 := rfl
  have ends := lowers ⟨0⟩ 10 inside
  rw [emptied, freeSectors_empty] at ends
  rw [emptied] at clean ⊢
  exact ⟨spared, clean 10 (Nat.le_refl _), _, rfl, Nat.add_right_cancel (ends.done_of_run rfl)⟩

/-- A sector past the capacity is reserved and released like any other, and is counted neither
time. -/
theorem reserved_beyond_capacity :
    ∃ after, (reserve ⟨10⟩ 1).run (empty 10) = .ok () after ∧ after.isUsed 10 = true ∧
      after.freeSectors = (empty 10).freeSectors ∧
      (release ⟨10⟩ 1).run after = .ok () (empty 10) :=
  ⟨_, rfl, by decide, by decide, rfl⟩

end Bitmap

end Residency
