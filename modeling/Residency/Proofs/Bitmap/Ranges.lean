import Mathlib.Order.Bounds.Basic
import Residency.Proofs.Bitmap

/-!
# Ranges that are changed up to a misfit

`Bitmap.reserve` and `Bitmap.release` change the bits of a range one after the other, as long as each
of them is there and is as it should be.

`ranges_are_changed_up_to_a_misfit` says how far they come and what they stop with.  It holds of any
map, also of one that has bits set past its capacity or that no calls lead to.
-/

namespace Residency.Bitmap

variable {map after : Bitmap} {used : Bool} {start stop count : Nat}

/-! ## Misfits -/

/-- The bits of the sectors from `start` up to `stop` have changed, and no others. -/
structure Flipped (map : Bitmap) (start stop : Nat) (after : Bitmap) : Prop where
  capacity : after.capacity = map.capacity
  isUsed : ∀ t, after.isUsed t = if start ≤ t ∧ t < stop then !map.isUsed t else map.isUsed t

theorem flipped_flipRange
    (hasBits : ∀ t, start ≤ t → t < start + count → map.HasBit t) :
    map.Flipped start (start + count) (map.flipRange start count) :=
  ⟨capacity_flipRange start count, isUsed_flipRange_of_hasBit hasBits⟩

instance (sector : Nat) : Decidable (map.HasBit sector) :=
  inferInstanceAs (Decidable (_ < _))

/-- The sectors of a range for which there is no bit, or none that is as `used` says. -/
def misfits (map : Bitmap) (used : Bool) (start count : Nat) : Set Nat :=
  { t | start ≤ t ∧ t < start + count ∧ (map.HasBit t → map.isUsed t ≠ used) }

/-- A misfit is named by `fault` if there is a bit for it, and else by the word that is missing. -/
def misfitFault (map : Bitmap) (fault : Nat → Fault) (sector : Nat) : Fault :=
  if map.HasBit sector then fault sector
  else .outOfBounds map.words.size (sector / wordBits)

theorem misfits_eq_empty
    (all : ∀ t, start ≤ t → t < start + count → map.HasBit t ∧ map.isUsed t = used) :
    map.misfits used start count = ∅ := by
  apply Set.eq_empty_of_forall_notMem
  intro t misfit
  obtain ⟨low, high, different⟩ := misfit
  obtain ⟨hasBit, same⟩ := all t low high
  exact different hasBit same

/-- The loop ends at the first misfit, or else with the range. -/
theorem flipEach_ends_at_misfit (map : Bitmap) (used : Bool) (fault : Nat → Fault)
    (start count : Nat) :
    Step.Ends (flipEach used fault start count) map
      (fun _ after => map.misfits used start count = ∅ ∧ map.Flipped start (start + count) after)
      fun reason after => ∃ b, IsLeast (map.misfits used start count) b ∧
        reason = map.misfitFault fault b ∧ map.Flipped start b after := by
  apply (map.flipEach_ends used fault start count).imp
  · intro _ _ ended
    obtain ⟨rfl, all⟩ := ended
    exact ⟨misfits_eq_empty all, flipped_flipRange fun t low high => (all t low high).1⟩
  · intro reason _ ended
    obtain ⟨passed, few, rfl, all, stopped⟩ := ended
    -- whatever was passed is no misfit, so the one that was met is the least
    have least (misfit : map.HasBit (start + passed) → map.isUsed (start + passed) ≠ used) :
        IsLeast (map.misfits used start count) (start + passed) := by
      refine ⟨⟨by omega, by omega, misfit⟩, ?_⟩
      intro t other
      obtain ⟨low, -, different⟩ := other
      by_contra before
      obtain ⟨hasBit, same⟩ := all t low (by omega)
      exact different hasBit same
    refine ⟨start + passed, ?_, ?_, flipped_flipRange fun t low high => (all t low high).1⟩
    · rcases stopped with ⟨missing, -⟩ | ⟨different, -, -⟩
      · exact least fun hasBit => absurd hasBit missing
      · exact least fun _ => different
    · rcases stopped with ⟨missing, reason_eq⟩ | ⟨-, hasBit, reason_eq⟩
      · rw [misfitFault, if_neg missing, reason_eq]
      · rw [misfitFault, if_pos hasBit, reason_eq]

/-! ## Calls -/

/-- If the end of the range is not a number, nothing is changed. -/
theorem range_ends_at_misfit (map : Bitmap) (used : Bool) (fault : Nat → Fault)
    (start count : Nat) :
    Step.Ends (do
        let _ ← addSizes start count
        flipEach used fault start count) map
      (fun _ after => start + count < wordLimit ∧ map.misfits used start count = ∅ ∧
        map.Flipped start (start + count) after)
      fun reason after => (wordLimit ≤ start + count ∧ reason = .overflow ∧ after = map) ∨
        (start + count < wordLimit ∧ ∃ b, IsLeast (map.misfits used start count) b ∧
          reason = map.misfitFault fault b ∧ map.Flipped start b after) := by
  rw [Step.ends_bind, Step.ends_addSizes]
  by_cases fits : start + count < wordLimit
  · rw [if_pos fits]
    apply (map.flipEach_ends_at_misfit used fault start count).imp
    · exact fun _ _ ended => ⟨fits, ended⟩
    · exact fun _ _ ended => .inr ⟨fits, ended⟩
  · rw [if_neg fits]
    exact .inl ⟨Nat.not_lt.mp fits, rfl, rfl⟩

/-- A call that changes the bits of a range, if its end is a number at all, up to the first misfit.
`used` says how each bit has to be, and `fault` names one that is not. -/
structure ChangesRange (call : Step Bitmap Unit) (map : Bitmap) (used : Bool) (fault : Nat → Fault)
    (start count : Nat) : Prop where
  overflows : wordLimit ≤ start + count → call.run map = .error .overflow map
  succeeds : start + count < wordLimit → map.misfits used start count = ∅ →
    ∃ after, call.run map = .ok () after ∧ map.Flipped start (start + count) after
  fails : start + count < wordLimit → ∀ b, IsLeast (map.misfits used start count) b →
    ∃ after, call.run map = .error (map.misfitFault fault b) after ∧ map.Flipped start b after

theorem changesRange_flipEach (map : Bitmap) (used : Bool) (fault : Nat → Fault)
    (start count : Nat) :
    ChangesRange (do
        let _ ← addSizes start count
        flipEach used fault start count) map used fault start count := by
  have ends := map.range_ends_at_misfit used fault start count
  -- the three ways to end exclude each other
  cases run : EStateM.run (do
      let _ ← addSizes start count
      flipEach used fault start count : Step Bitmap Unit) map with
  | ok _ after =>
    obtain ⟨fits, none, flipped⟩ := ends.done_of_run run
    refine ⟨fun large => ?_, fun _ _ => ⟨after, run, flipped⟩, fun _ b least => ?_⟩
    · exact absurd fits (Nat.not_lt.mpr large)
    · rw [none] at least
      exact least.1.elim
  | error reason after =>
    rcases ends.stopped_of_run run with ⟨large, rfl, rfl⟩ | ⟨fits, b, least, rfl, flipped⟩
    · exact ⟨fun _ => run, fun fits => absurd fits (Nat.not_lt.mpr large),
        fun fits => absurd fits (Nat.not_lt.mpr large)⟩
    · refine ⟨fun large => ?_, fun _ none => ?_, fun _ other leastToo => ?_⟩
      · exact absurd fits (Nat.not_lt.mpr large)
      · rw [none] at least
        exact least.1.elim
      · rw [leastToo.unique least]
        exact ⟨after, run, flipped⟩

/-- Reserving and releasing a range, in any map.  If the end of the range does not fit a machine
word, nothing changes.  If all bits of the range are there and as they should be, they are changed
and no others.  Otherwise the call stops with a fault that names the lowest misfit; the bits of the
range below it are changed, and no others. -/
theorem ranges_are_changed_up_to_a_misfit (map : Bitmap) (start : SectorNo) (count : Nat) :
    ChangesRange (reserve start count) map false .sectorInUse start.toNat count ∧
      ChangesRange (release start count) map true .sectorNotAllocated start.toNat count :=
  ⟨changesRange_flipEach map false .sectorInUse start.toNat count,
    changesRange_flipEach map true .sectorNotAllocated start.toNat count⟩

end Residency.Bitmap
