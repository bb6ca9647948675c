import Mathlib.Order.Interval.Finset.Nat
import Residency.Proofs.Bitmap.Lending

/-!
# The map of free sectors as a first-fit set

A map `Represents` a set of sectors when its bits are those of the set and no others.

`first_fit_after_calls`: after any run of calls whose ranges lie inside the capacity, also of calls
that fail, the map represents a set, on which allocation is first-fit and reserving and releasing
add and remove a range.  The runs that were given out and not touched since lie apart (`Ledger`), and
what a sequence of allocations takes can be given back in any order, which leads back to the very
map that was there before.
-/

namespace Residency

namespace Bitmap

/-- The sectors of a run. -/
def run (start : SectorNo) (count : Nat) : Finset Nat :=
  Finset.Ico start.toNat (start.toNat + count)

theorem mem_run {start : SectorNo} {count t : Nat} :
    t ∈ run start count ↔ start.toNat ≤ t ∧ t < start.toNat + count :=
  Finset.mem_Ico

/-- A run below the capacity that has no sector in use. -/
def Fits (capacity : Nat) (used : Finset Nat) (start count : Nat) : Prop :=
  start + count ≤ capacity ∧ Disjoint (Finset.Ico start (start + count)) used

/-- The sectors in `used`, all below the capacity, are those whose bits are set. -/
structure Represents (map : Bitmap) (capacity : Nat) (used : Finset Nat) : Prop where
  size : map.capacity = capacity
  isUsed_iff : ∀ t, map.isUsed t = true ↔ t ∈ used
  inside : ∀ t ∈ used, t < capacity

variable {map : Bitmap} {capacity : Nat} {used : Finset Nat} {start : SectorNo} {count : Nat}

/-! ## Sets -/

namespace Represents

theorem empty (capacity : Nat) : (empty capacity).Represents capacity ∅ where
  size := rfl
  isUsed_iff t := by simp
  inside t := by simp

theorem isUsed_eq_false (represents : map.Represents capacity used) (t : Nat) :
    map.isUsed t = false ↔ t ∉ used := by
  rw [← represents.isUsed_iff, Bool.not_eq_true]

theorem isFreeRun_iff (represents : map.Represents capacity used) (start count : Nat) :
    map.IsFreeRun start count ↔ Fits capacity used start count := by
  rw [IsFreeRun, Fits, represents.size, Finset.disjoint_left]
  simp only [Finset.mem_Ico, represents.isUsed_eq_false, and_imp]

theorem freeSectors (represents : map.Represents capacity used) :
    map.freeSectors = capacity - used.card := by
  have lends : Lends (Bitmap.empty capacity) used.toList map := {
    capacity := represents.size
    used := by simp [represents.isUsed_iff]
    wasFree := fun t member =>
      ⟨represents.inside t (Finset.mem_toList.mp member), isUsed_empty capacity t⟩
    distinct := used.nodup_toList }
  have counted := lends.freeSectors_add
  rw [freeSectors_empty, Finset.length_toList] at counted
  omega

/-- A free run is taken. -/
theorem take (represents : map.Represents capacity used)
    (fits : Fits capacity used start.toNat count) :
    (map.flipRange start.toNat count).Represents capacity (used ∪ run start count) where
  size := (capacity_flipRange ..).trans represents.size
  isUsed_iff t := by
    rw [isUsed_flipRange_of_free ((represents.isFreeRun_iff ..).mpr fits), represents.isUsed_iff,
      Finset.mem_union, mem_run, List.mem_range'_1, or_comm]
  inside t member := by
    rcases Finset.mem_union.mp member with before | taken
    · exact represents.inside t before
    · exact Nat.lt_of_lt_of_le (mem_run.mp taken).2 fits.1

/-- A run in use is given back. -/
theorem give (represents : map.Represents capacity used) (below : start.toNat + count ≤ capacity)
    (inUse : run start count ⊆ used) :
    (map.flipRange start.toNat count).Represents capacity (used \ run start count) where
  size := (capacity_flipRange ..).trans represents.size
  isUsed_iff t := by
    have all : ∀ t ∈ List.range' start.toNat count, map.isUsed t = true := by
      intro t member
      rw [represents.isUsed_iff]
      exact inUse (mem_run.mpr (List.mem_range'_1.mp member))
    rw [isUsed_flipRange_of_used (represents.size ▸ below) all, represents.isUsed_iff,
      Finset.mem_sdiff, mem_run, List.mem_range'_1, and_comm]
  inside t member := represents.inside t (Finset.mem_sdiff.mp member).1

/-! ## Calls -/

/-- The first run that fits is taken, and if none does nothing happens. -/
theorem allocate_first_fit (represents : map.Represents capacity used)
    (addressable : capacity ≤ UInt32.size) (some_wanted : count ≠ 0) :
    (∃ (start : SectorNo) (after : Bitmap), map.allocate count = (some start, after) ∧
        Fits capacity used start.toNat count ∧
        (∀ earlier < start.toNat, ¬ Fits capacity used earlier count) ∧
        after.Represents capacity (used ∪ run start count)) ∨
      map.allocate count = (none, map) ∧ ∀ start, ¬ Fits capacity used start count := by
  simp only [← represents.isFreeRun_iff]
  rcases map.allocate_cases some_wanted with ⟨start, found, isFree, first⟩ | none_found
  · have fits := (represents.isFreeRun_iff start count).mp isFree
    have number : (SectorNo.ofNat start).toNat = start :=
      SectorNo.toNat_ofNat (by have := fits.1; omega)
    rw [← number] at isFree first fits found
    rw [SectorNo.ofNat_toNat] at found
    exact Or.inl ⟨.ofNat start, _, found, isFree, first, represents.take fits⟩
  · exact Or.inr none_found

theorem disjoint_iff (represents : map.Represents capacity used) :
    Disjoint (run start count) used ↔ ∀ t ∈ run start count, map.isUsed t = false := by
  simp only [Finset.disjoint_left, represents.isUsed_eq_false]

theorem subset_iff (represents : map.Represents capacity used) :
    run start count ⊆ used ↔ ∀ t ∈ run start count, map.isUsed t = true := by
  simp only [Finset.subset_iff, represents.isUsed_iff]

section Ranges

variable (represents : map.Represents capacity used) (below : start.toNat + count ≤ capacity)
  (addressable : capacity ≤ UInt32.size)
include represents below addressable

/-- Bits inside the capacity are changed as far as they are as they should be. -/
theorem flipEach_ends (wanted : Bool) (fault : Nat → Fault) :
    Step.Ends (do
        let _ ← addSizes start.toNat count
        flipEach wanted fault start.toNat count) map
      (fun _ after => (∀ t ∈ run start count, map.isUsed t = wanted) ∧
        after = map.flipRange start.toNat count)
      fun _ after => (¬ ∀ t ∈ run start count, map.isUsed t = wanted) ∧
        ∃ passed, start.toNat + passed ≤ capacity ∧
          (∀ t ∈ run start passed, map.isUsed t = wanted) ∧
          after = map.flipRange start.toNat passed := by
  have fits : start.toNat + count < wordLimit :=
    Nat.lt_of_le_of_lt (Nat.le_trans below addressable) (by decide)
  simp only [Step.ends_bind, Step.ends_addSizes, if_pos fits, mem_run]
  apply (map.flipEach_ends wanted fault start.toNat count).imp
  · rintro _ _ ⟨same, all⟩
    exact ⟨fun t member => (all t member.1 member.2).2, same⟩
  · rintro _ _ ⟨passed, few, same, all, stopped⟩
    refine ⟨fun whole => ?_, passed, by omega, fun t member => (all t member.1 member.2).2, same⟩
    rcases stopped with ⟨missing, -⟩ | ⟨different, -⟩
    · exact missing (hasBit_of_lt (by rw [represents.size]; omega))
    · exact different (whole _ (by omega))

/-- Reserving adds a range of which no sector is in use.  If one is, those before it are added. -/
theorem reserve_ends :
    Step.Ends (reserve start count) map
      (fun _ after => Disjoint (run start count) used ∧
        after.Represents capacity (used ∪ run start count))
      fun _ after => ¬ Disjoint (run start count) used ∧
        ∃ passed, after.Represents capacity (used ∪ run start passed) := by
  simp only [represents.disjoint_iff]
  apply (represents.flipEach_ends below addressable false .sectorInUse).imp
  · rintro _ _ ⟨free, rfl⟩
    exact ⟨free, represents.take ⟨below, represents.disjoint_iff.mpr free⟩⟩
  · rintro _ _ ⟨notAll, passed, belowToo, free, rfl⟩
    exact ⟨notAll, passed, represents.take ⟨belowToo, represents.disjoint_iff.mpr free⟩⟩

/-- Releasing removes a range that is in use.  If a sector of it is not, those before it are
removed. -/
theorem release_ends :
    Step.Ends (release start count) map
      (fun _ after => run start count ⊆ used ∧
        after.Represents capacity (used \ run start count))
      fun _ after => ¬ run start count ⊆ used ∧
        ∃ passed, after.Represents capacity (used \ run start passed) := by
  simp only [represents.subset_iff]
  apply (represents.flipEach_ends below addressable true .sectorNotAllocated).imp
  · rintro _ _ ⟨inUse, rfl⟩
    exact ⟨inUse, represents.give below (represents.subset_iff.mpr inUse)⟩
  · rintro _ _ ⟨notAll, passed, belowToo, inUse, rfl⟩
    exact ⟨notAll, passed, represents.give belowToo (represents.subset_iff.mpr inUse)⟩

end Ranges

end Represents

end Bitmap

/-! ## Runs of calls -/

inductive BitmapCall where
  | allocate (count : Nat)
  | reserve (start : SectorNo) (count : Nat)
  | release (start : SectorNo) (count : Nat)
deriving DecidableEq

namespace BitmapCall

/-- Makes a call; gives the run that was given out, if any was. -/
def step : BitmapCall → Step Bitmap (Option (SectorNo × Nat))
  | .allocate count => modifyGet fun map =>
    let found := map.allocate count
    (found.1.map (·, count), found.2)
  | .reserve start count => do
    Bitmap.reserve start count
    return none
  | .release start count => do
    Bitmap.release start count
    return none

/-- A range that is named lies inside the capacity. -/
def Within (capacity : Nat) : BitmapCall → Prop
  | .allocate _ => True
  | .reserve start count | .release start count => start.toNat + count ≤ capacity

instance (capacity : Nat) : DecidablePred (Within capacity)
  | .allocate _ => inferInstanceAs (Decidable True)
  | .reserve .. | .release .. => inferInstanceAs (Decidable (_ ≤ _))

open Bitmap in
/-- However a call ends, the map represents a set, and a run that was given out was free before. -/
theorem call_ends {map : Bitmap} {capacity : Nat} {used : Finset Nat}
    (represents : map.Represents capacity used) (addressable : capacity ≤ UInt32.size)
    {call : BitmapCall} (within : call.Within capacity) :
    Step.Ends call.step map
      (fun given after => (∃ usedAfter, after.Represents capacity usedAfter) ∧
        ∀ start count, given = some (start, count) →
          ∀ t ∈ run start count, map.isUsed t = false ∧ after.isUsed t = true)
      fun _ after => ∃ usedAfter, after.Represents capacity usedAfter := by
  cases call with
  | allocate count =>
    rw [step, Step.ends_modifyGet]
    by_cases none_wanted : count = 0
    · subst none_wanted
      refine ⟨⟨used, represents⟩, ?_⟩
      rintro _ _ ⟨⟩ t member
      exact absurd (mem_run.mp member).2 (Nat.not_lt.mpr (mem_run.mp member).1)
    · rcases represents.allocate_first_fit addressable none_wanted with
        ⟨start, after, found, fits, -, representsAfter⟩ | ⟨notFound, -⟩
      · rw [found]
        refine ⟨⟨_, representsAfter⟩, ?_⟩
        rintro _ _ ⟨⟩ t member
        refine ⟨(represents.isUsed_eq_false t).mpr (Finset.disjoint_left.mp fits.2 member), ?_⟩
        exact (representsAfter.isUsed_iff t).mpr (Finset.mem_union_right _ member)
      · rw [notFound]
        exact ⟨⟨used, represents⟩, fun _ _ impossible => by cases impossible⟩
  | reserve start count =>
    rw [step, Step.ends_bind]
    apply (represents.reserve_ends within addressable).imp
    · rintro _ after ⟨-, representsAfter⟩
      exact (Step.ends_pure _).mpr ⟨⟨_, representsAfter⟩, fun _ _ impossible => by cases impossible⟩
    · rintro _ after ⟨-, passed, representsAfter⟩
      exact ⟨_, representsAfter⟩
  | release start count =>
    rw [step, Step.ends_bind]
    apply (represents.release_ends within addressable).imp
    · rintro _ after ⟨-, representsAfter⟩
      exact (Step.ends_pure _).mpr ⟨⟨_, representsAfter⟩, fun _ _ impossible => by cases impossible⟩
    · rintro _ after ⟨-, passed, representsAfter⟩
      exact ⟨_, representsAfter⟩

end BitmapCall

/-- A map with the runs that it has given out and of which no sector was released since. -/
structure Ledger where
  map : Bitmap
  held : List (SectorNo × Nat) := []

namespace Ledger

/-- The runs that are still in use as a whole. -/
def stillHeld (held : List (SectorNo × Nat)) (map : Bitmap) : List (SectorNo × Nat) :=
  held.filter fun (start, count) => (List.range' start.toNat count).all map.isUsed

/-- The ledger after a call, whether or not it fails. -/
def after (ledger : Ledger) (call : BitmapCall) : Ledger :=
  match call.step.run ledger.map with
  | .ok given map => { map, held := given.toList ++ stillHeld ledger.held map }
  | .error _ map => { map, held := stillHeld ledger.held map }

def serve (ledger : Ledger) (calls : List BitmapCall) : Ledger :=
  calls.foldl Ledger.after ledger

def sectors (taken : SectorNo × Nat) : Finset Nat :=
  Bitmap.run taken.1 taken.2

structure Sound (ledger : Ledger) (capacity : Nat) : Prop where
  represents : ∃ used, ledger.map.Represents capacity used
  inUse : ∀ taken ∈ ledger.held, ∀ t ∈ sectors taken, ledger.map.isUsed t = true
  apart : ledger.held.Pairwise fun a b => Disjoint (sectors a) (sectors b)

theorem mem_stillHeld {held : List (SectorNo × Nat)} {map : Bitmap} {taken : SectorNo × Nat} :
    taken ∈ stillHeld held map ↔
      taken ∈ held ∧ ∀ t ∈ sectors taken, map.isUsed t = true := by
  simp only [stillHeld, sectors, List.mem_filter, List.all_eq_true, Bitmap.mem_run,
    List.mem_range'_1]

/-- What is still held stays apart, whatever the map has become. -/
theorem Sound.still {ledger : Ledger} {capacity : Nat} (sound : ledger.Sound capacity)
    {map : Bitmap} (represents : ∃ used, map.Represents capacity used) :
    Sound { map, held := stillHeld ledger.held map } capacity where
  represents := represents
  inUse _ member := (mem_stillHeld.mp member).2
  apart := sound.apart.filter _

theorem Sound.after {ledger : Ledger} {capacity : Nat} (sound : ledger.Sound capacity)
    (addressable : capacity ≤ UInt32.size) {call : BitmapCall} (within : call.Within capacity) :
    (ledger.after call).Sound capacity := by
  obtain ⟨used, represents⟩ := sound.represents
  have ends := call.call_ends represents addressable within
  unfold Ledger.after
  cases ran : call.step.run ledger.map with
  | error fault map => exact sound.still (ends.stopped_of_run ran)
  | ok given map =>
    obtain ⟨representsAfter, fresh⟩ := ends.done_of_run ran
    have still := sound.still representsAfter
    cases given with
    | none => exact still
    | some new =>
      have fresh := fresh new.1 new.2 rfl
      refine ⟨representsAfter, List.forall_mem_cons.mpr ⟨fun t member => (fresh t member).2, ?_⟩,
        List.pairwise_cons.mpr ⟨fun old member => ?_, still.apart⟩⟩
      · exact still.inUse
      · -- a run that was held was in use before, and the new one was free
        rw [Finset.disjoint_left]
        intro t inNew inOld
        have before := sound.inUse old (mem_stillHeld.mp member).1 t inOld
        rw [(fresh t inNew).1] at before
        cases before

theorem serve_sound {ledger : Ledger} {capacity : Nat} (sound : ledger.Sound capacity)
    (addressable : capacity ≤ UInt32.size) {calls : List BitmapCall}
    (within : ∀ call ∈ calls, call.Within capacity) : (ledger.serve calls).Sound capacity := by
  induction calls generalizing ledger with
  | nil => exact sound
  | cons call rest inductionHypothesis =>
    obtain ⟨first, others⟩ := List.forall_mem_cons.mp within
    exact inductionHypothesis (sound.after addressable first) others

end Ledger

open Bitmap in
/-- A new map, after any run of calls of which reserving and releasing name ranges inside the
capacity, represents a set `used` of sectors.  Allocating takes the first run that fits, adds it to
the set, and fails without a trace if none fits; nothing at all is found at sector zero.  Reserving
adds a range and releasing removes one, exactly if all of it is free or in use.  As many sectors are
free as are not in the set.  The runs that were given out and of which nothing was released since lie
apart.  What any sequence of allocations takes from there on can be given back in any order, and the
map is the same then, bit for bit. -/
theorem first_fit_after_calls {capacity : Nat} (addressable : capacity ≤ UInt32.size)
    {calls : List BitmapCall} (within : ∀ call ∈ calls, call.Within capacity) :
    let ledger := Ledger.serve { map := .empty capacity } calls
    let map := ledger.map
    ∃ used : Finset Nat, map.Represents capacity used ∧
      (∀ count, count ≠ 0 →
        (∃ (start : SectorNo) (after : Bitmap), map.allocate count = (some start, after) ∧
            Fits capacity used start.toNat count ∧
            (∀ earlier < start.toNat, ¬ Fits capacity used earlier count) ∧
            after.Represents capacity (used ∪ run start count)) ∨
          map.allocate count = (none, map) ∧ ∀ start, ¬ Fits capacity used start count) ∧
      map.allocate 0 = (some default, map) ∧
      (∀ (start : SectorNo) count, start.toNat + count ≤ capacity →
        Step.Ends (reserve start count) map
            (fun _ after => Disjoint (run start count) used ∧
              after.Represents capacity (used ∪ run start count))
            (fun _ _ => ¬ Disjoint (run start count) used) ∧
          Step.Ends (release start count) map
            (fun _ after => run start count ⊆ used ∧
              after.Represents capacity (used \ run start count))
            fun _ _ => ¬ run start count ⊆ used) ∧
      map.freeSectors = capacity - used.card ∧
      ledger.held.Pairwise (fun a b => Disjoint (run a.1 a.2) (run b.1 b.2)) ∧
      ∀ (counts : List Nat) (order : List (SectorNo × Nat)),
        order.Perm (map.allocateAll counts).1 →
        Step.Yields (releaseAll order) (map.allocateAll counts).2 fun _ after => after = map := by
  intro ledger map
  have fresh : Ledger.Sound { map := .empty capacity } capacity :=
    ⟨⟨∅, Represents.empty capacity⟩, fun _ none => absurd none List.not_mem_nil, .nil⟩
  have sound := Ledger.serve_sound fresh addressable within
  obtain ⟨used, represents⟩ := sound.represents
  refine ⟨used, represents, fun count => represents.allocate_first_fit addressable, rfl, ?_,
    represents.freeSectors, sound.apart, fun counts order => ?_⟩
  · intro start count below
    refine ⟨(represents.reserve_ends below addressable).imp (fun _ _ => id) fun _ _ => And.left, ?_⟩
    exact (represents.release_ends below addressable).imp (fun _ _ => id) fun _ _ => And.left
  · exact releaseAll_allocateAll (represents.size ▸ addressable) counts

open Bitmap in
/-- A run of which one end is released does not count as held any more, also when the release fails,
and its sectors are handed out again. -/
theorem first_fit_after_calls_on_ten_sectors :
    let calls : List BitmapCall := [.reserve ⟨0⟩ 1, .allocate 3, .release ⟨2⟩ 5, .allocate 1,
      .allocate 4]
    let ledger := Ledger.serve { map := .empty 10 } calls
    10 ≤ UInt32.size ∧ (∀ call ∈ calls, call.Within 10) ∧
      ledger.held = [(⟨3⟩, 4), (⟨2⟩, 1)] ∧ ledger.held.Pairwise (fun a b =>
        Disjoint (run a.1 a.2) (run b.1 b.2)) ∧
      ∀ (counts : List Nat) (order : List (SectorNo × Nat)),
        order.Perm (ledger.map.allocateAll counts).1 →
        Step.Yields (releaseAll order) (ledger.map.allocateAll counts).2 fun _ after =>
          after = ledger.map := by
  intro calls ledger
  have addressable : 10 ≤ UInt32.size := by decide
  have within : ∀ call ∈ calls, call.Within 10 := by decide
  obtain ⟨used, -, -, -, -, -, apart, restored⟩ := first_fit_after_calls addressable within
  exact ⟨addressable, within, rfl, apart, restored⟩

end Residency
