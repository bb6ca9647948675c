import Mathlib.Data.List.Nodup
import Residency.Proofs.Bitmap

/-!
# What a map has given out

`Lends origin lent map` compares a map with an earlier one, from which the sectors `lent` were given
out since.  A free run can be lent (`Lends.take`), a run that is lent can be given back
(`Lends.give`), and as many sectors are free as were at first and have not been lent
(`Lends.freeSectors_add`).  When everything was given back, in whichever order, the map is the
earlier one again (`releaseAll_allocateAll`).
-/

namespace Residency.Bitmap

variable {origin map : Bitmap} {lent others : List Nat} {start count : Nat}

/-! ## Runs -/

theorem isUsed_flipRange_of_free (isFree : map.IsFreeRun start count) (t : Nat) :
    (map.flipRange start count).isUsed t = true ↔
      t ∈ List.range' start count ∨ map.isUsed t = true := by
  rw [isUsed_flipRange isFree.1, List.mem_range'_1]
  split
  next inRun => simp [inRun, isFree.2 t inRun.1 inRun.2]
  next outside => simp [outside]

theorem isUsed_flipRange_of_used (inside : start + count ≤ map.capacity)
    (used : ∀ t ∈ List.range' start count, map.isUsed t = true) (t : Nat) :
    (map.flipRange start count).isUsed t = true ↔
      t ∉ List.range' start count ∧ map.isUsed t = true := by
  rw [isUsed_flipRange inside, List.mem_range'_1]
  split
  next inRun => simp [inRun, used t (List.mem_range'_1.mpr inRun)]
  next outside => simp [outside]

/-- The first free run is taken, also the empty one, which is found at sector zero. -/
theorem allocate_first_run (addressable : map.capacity ≤ UInt32.size) (count : Nat) :
    (∃ start : SectorNo, map.allocate count = (some start, map.flipRange start.toNat count) ∧
        map.IsFreeRun start.toNat count ∧
        ∀ earlier < start.toNat, ¬ map.IsFreeRun earlier count) ∨
      map.allocate count = (none, map) ∧ ∀ start, ¬ map.IsFreeRun start count := by
  by_cases none_wanted : count = 0
  · subst none_wanted
    exact Or.inl ⟨default, rfl, ⟨Nat.zero_le _, by omega⟩, by simp⟩
  · rcases map.allocate_cases none_wanted with ⟨start, found, isFree, first⟩ | notFound
    · have number : (SectorNo.ofNat start).toNat = start :=
        SectorNo.toNat_ofNat (by have := isFree.1; omega)
      rw [← number] at isFree first
      exact Or.inl ⟨.ofNat start, by rw [number]; exact found, isFree, first⟩
    · exact Or.inr notFound

theorem allocate_runs (addressable : map.capacity ≤ UInt32.size) (count : Nat) :
    (∃ start : SectorNo, map.allocate count = (some start, map.flipRange start.toNat count) ∧
        map.IsFreeRun start.toNat count) ∨
      map.allocate count = (none, map) :=
  (map.allocate_first_run addressable count).imp
    (fun ⟨start, found, isFree, _⟩ => ⟨start, found, isFree⟩) And.left

/-! ## Lending -/

/-- The sectors in use are those that were so in `origin` and those in `lent`, which were free then
and have been given out once each. -/
structure Lends (origin : Bitmap) (lent : List Nat) (map : Bitmap) : Prop where
  capacity : map.capacity = origin.capacity
  used : ∀ t, map.isUsed t = true ↔ t ∈ lent ∨ origin.isUsed t = true
  wasFree : ∀ t ∈ lent, t < origin.capacity ∧ origin.isUsed t = false
  distinct : lent.Nodup

namespace Lends

theorem nothing (origin : Bitmap) : Lends origin [] origin where
  capacity := rfl
  used t := by simp
  wasFree t := nofun
  distinct := List.nodup_nil

theorem perm (lends : Lends origin lent map) (same : lent.Perm others) :
    Lends origin others map where
  capacity := lends.capacity
  used t := by rw [lends.used, same.mem_iff]
  wasFree t member := lends.wasFree t (same.mem_iff.mpr member)
  distinct := same.nodup_iff.mp lends.distinct

theorem isUsed (lends : Lends origin lent map) {t : Nat} (member : t ∈ lent) :
    map.isUsed t = true :=
  (lends.used t).mpr (Or.inl member)

/-- A free run lies apart from all that is lent. -/
theorem apart (lends : Lends origin lent map) (isFree : map.IsFreeRun start count) {t : Nat}
    (member : t ∈ List.range' start count) : t ∉ lent ∧ origin.isUsed t = false := by
  obtain ⟨low, high⟩ := List.mem_range'_1.mp member
  have unused : ¬ map.isUsed t = true := Bool.eq_false_iff.mp (isFree.2 t low high)
  rw [lends.used, not_or, Bool.not_eq_true] at unused
  exact unused

theorem take (lends : Lends origin lent map) (isFree : map.IsFreeRun start count) :
    Lends origin (List.range' start count ++ lent) (map.flipRange start count) where
  capacity := by rw [capacity_flipRange, lends.capacity]
  used t := by rw [isUsed_flipRange_of_free isFree, lends.used, List.mem_append, or_assoc]
  wasFree := by
    intro t member
    rcases List.mem_append.mp member with inRun | inLent
    · have bound := isFree.1
      have high := (List.mem_range'_1.mp inRun).2
      rw [lends.capacity] at bound
      exact ⟨by omega, (lends.apart isFree inRun).2⟩
    · exact lends.wasFree t inLent
  distinct := List.nodup_append'.mpr
    ⟨List.nodup_range', lends.distinct, fun _ inRun => (lends.apart isFree inRun).1⟩

theorem give (lends : Lends origin (List.range' start count ++ lent) map)
    (inside : start + count ≤ map.capacity) : Lends origin lent (map.flipRange start count) where
  capacity := by rw [capacity_flipRange, lends.capacity]
  used t := by
    have apart := List.disjoint_of_nodup_append lends.distinct
    rw [isUsed_flipRange_of_used inside fun t inRun => lends.isUsed (List.mem_append_left _ inRun),
      lends.used, List.mem_append]
    constructor
    · rintro ⟨outside, (inRun | inLent) | used⟩
      · exact absurd inRun outside
      · exact Or.inl inLent
      · exact Or.inr used
    · rintro (inLent | used)
      · exact ⟨fun inRun => apart inRun inLent, Or.inl (Or.inr inLent)⟩
      · refine ⟨fun inRun => ?_, Or.inr used⟩
        rw [(lends.wasFree t (List.mem_append_left _ inRun)).2] at used
        cases used
  wasFree t member := lends.wasFree t (List.mem_append_right _ member)
  distinct := lends.distinct.of_append_right

theorem freeSectors_add (lends : Lends origin lent map) :
    map.freeSectors + lent.length = origin.freeSectors := by
  have divided : ((List.range origin.capacity).filter (!origin.isUsed ·)).Perm
      (lent ++ (List.range origin.capacity).filter (!map.isUsed ·)) := by
    rw [List.perm_ext_iff_of_nodup (List.nodup_range.filter _)]
    · intro t
      simp only [List.mem_filter, List.mem_range, List.mem_append, Bool.not_eq_true',
        Bool.eq_false_iff, ne_eq, lends.used t]
      constructor
      · rintro ⟨inside, free⟩
        by_cases inLent : t ∈ lent
        · exact Or.inl inLent
        · exact Or.inr ⟨inside, by simp [inLent, free]⟩
      · rintro (inLent | ⟨inside, free⟩)
        · obtain ⟨inside, free⟩ := lends.wasFree t inLent
          exact ⟨inside, by simp [free]⟩
        · exact ⟨inside, fun used => free (Or.inr used)⟩
    · rw [List.nodup_append']
      refine ⟨lends.distinct, List.nodup_range.filter _, fun t inLent inRest => ?_⟩
      have used := lends.isUsed inLent
      simp [used] at inRest
  rw [freeSectors, freeSectors, List.countP_eq_length_filter, List.countP_eq_length_filter,
    lends.capacity, divided.length_eq, List.length_append, Nat.add_comm]

end Lends

/-! ## Giving everything back -/

/-- Allocates runs one after the other; gives those that there was room for. -/
def allocateAll (map : Bitmap) : List Nat → List (SectorNo × Nat) × Bitmap
  | [] => ([], map)
  | count :: counts =>
    match map.allocate count with
    | (some start, after) =>
      ((start, count) :: (after.allocateAll counts).1, (after.allocateAll counts).2)
    | (none, after) => after.allocateAll counts

def releaseAll (runs : List (SectorNo × Nat)) : Step Bitmap Unit :=
  runs.forM fun (start, count) => release start count

/-- The sectors of the runs, one after the other. -/
def sectorsOf (runs : List (SectorNo × Nat)) : List Nat :=
  runs.flatMap fun (start, count) => List.range' start.toNat count

theorem sectorsOf_cons (start : SectorNo) (count : Nat) (runs : List (SectorNo × Nat)) :
    sectorsOf ((start, count) :: runs) = List.range' start.toNat count ++ sectorsOf runs :=
  List.flatMap_cons

theorem allocateAll_lends {origin : Bitmap} {lent : List Nat} (lends : Lends origin lent map)
    (addressable : origin.capacity ≤ UInt32.size) (counts : List Nat) :
    Lends origin (sectorsOf (map.allocateAll counts).1 ++ lent) (map.allocateAll counts).2 ∧
      ∀ taken ∈ (map.allocateAll counts).1, taken.1.toNat + taken.2 ≤ origin.capacity := by
  induction counts generalizing map lent with
  | nil => exact ⟨lends, fun _ none => absurd none List.not_mem_nil⟩
  | cons count counts inductionHypothesis =>
    rcases map.allocate_runs (lends.capacity ▸ addressable) count with
      ⟨start, found, isFree⟩ | notFound
    · obtain ⟨lendsAll, inside⟩ := inductionHypothesis (lends.take isFree)
      simp only [allocateAll, found]
      refine ⟨lendsAll.perm ?_, List.forall_mem_cons.mpr ⟨lends.capacity ▸ isFree.1, inside⟩⟩
      -- the latest run is taken last and listed last, but stands first in what is lent
      rw [sectorsOf_cons, ← List.append_assoc]
      exact List.perm_append_comm.append_right lent
    · simp only [allocateAll, notFound]
      exact inductionHypothesis lends

theorem releaseAll_yields {origin : Bitmap} {runs : List (SectorNo × Nat)}
    (lends : Lends origin (sectorsOf runs) map) (addressable : origin.capacity ≤ UInt32.size)
    (inside : ∀ taken ∈ runs, taken.1.toNat + taken.2 ≤ origin.capacity) :
    Step.Yields (releaseAll runs) map fun _ after => after = origin := by
  let invariant (left : List (SectorNo × Nat)) (reached : Bitmap) : Prop :=
    Lends origin (sectorsOf left) reached ∧
      ∀ taken ∈ left, taken.1.toNat + taken.2 ≤ origin.capacity
  have each (taken : SectorNo × Nat) (left : List (SectorNo × Nat)) (reached : Bitmap) :
      invariant (taken :: left) reached →
        Step.Yields (release taken.1 taken.2) reached fun _ after => invariant left after := by
    obtain ⟨start, count⟩ := taken
    rintro ⟨lends, inside⟩
    obtain ⟨insideFirst, insideRest⟩ := List.forall_mem_cons.mp inside
    rw [sectorsOf_cons] at lends
    have below : start.toNat + count ≤ reached.capacity := lends.capacity ▸ insideFirst
    have fits : start.toNat + count < wordLimit :=
      Nat.lt_of_le_of_lt (Nat.le_trans insideFirst addressable) (by decide)
    apply Step.Yields.imp (release_yields fits below fun t low high =>
      lends.isUsed (List.mem_append_left _ (List.mem_range'_1.mpr ⟨low, high⟩)))
    rintro _ _ rfl
    exact ⟨lends.give below, insideRest⟩
  apply Step.Yields.imp (Step.Ends.forM invariant each runs ⟨lends, inside⟩)
  rintro _ after ⟨lends, -⟩
  apply eq_of_isUsed lends.capacity
  intro t
  rw [Bool.eq_iff_iff, lends.used]
  exact or_iff_right List.not_mem_nil

/-- Runs that are given back in any order leave the map as it was before they were taken. -/
theorem releaseAll_allocateAll (addressable : map.capacity ≤ UInt32.size) (counts : List Nat)
    {order : List (SectorNo × Nat)} (same : order.Perm (map.allocateAll counts).1) :
    Step.Yields (releaseAll order) (map.allocateAll counts).2 fun _ after => after = map := by
  obtain ⟨lends, inside⟩ := allocateAll_lends (Lends.nothing map) addressable counts
  rw [List.append_nil] at lends
  exact releaseAll_yields (lends.perm (same.symm.flatMap_right _)) addressable
    fun taken member => inside taken (same.mem_iff.mp member)

/-! ## Counting -/

theorem freeSectors_empty (capacity : Nat) : (empty capacity).freeSectors = capacity := by
  rw [freeSectors, List.countP_eq_length.mpr fun t _ => by rw [isUsed_empty]; rfl,
    List.length_range]
  rfl

end Residency.Bitmap
