import Mathlib.Data.Nat.ModEq
import Residency.Cache.Sweep

/-!
# The way of the hand

Where the hand of the cache stops, and what it leaves behind.

* `inCircle` and `stepsTo` are places in the circle of slots, and the steps between them;
* `sparedFrom` is how many slots in a row the hand has to pass, which is as many as it passes
  (`passed_eq_sparedFrom`);
* `get_sweep_slots` is what becomes of each slot: those that are passed lose their marks.

The hand passes no slot twice, since a slot that was passed is no longer marked.  So it stops within
one round, and after a whole one where it has come from.
-/

namespace Residency

/-! ## Around the circle -/

/-- The place that `k` steps from `i` lead to in a circle of `n` places. -/
def inCircle {n : Nat} (i : Fin n) (k : Nat) : Fin n :=
  ⟨(i + k) % n, Nat.mod_lt _ i.pos⟩

section Circle

variable {n : Nat}

@[simp] theorem inCircle_zero (i : Fin n) : inCircle i 0 = i :=
  Fin.ext (Nat.mod_eq_of_lt i.isLt)

theorem inCircle_size (i : Fin n) : inCircle i n = i :=
  Fin.ext ((Nat.add_mod_right ..).trans (Nat.mod_eq_of_lt i.isLt))

theorem inCircle_inCircle (i : Fin n) (j k : Nat) :
    inCircle (inCircle i j) k = inCircle i (j + k) := by
  apply Fin.ext
  show ((i + j) % n + k) % n = (i + (j + k)) % n
  rw [Nat.mod_add_mod, Nat.add_assoc]

theorem inCircle_nextInCircle (i : Fin n) (k : Nat) :
    inCircle (nextInCircle i) k = inCircle i (k + 1) := by
  rw [Nat.add_comm]
  exact inCircle_inCircle i 1 k

theorem nextInCircle_inCircle (i : Fin n) (k : Nat) :
    nextInCircle (inCircle i k) = inCircle i (k + 1) :=
  inCircle_inCircle i k 1

/-- How many steps lead from one place to another. -/
def stepsTo (i j : Fin n) : Nat :=
  (j + (n - i)) % n

theorem stepsTo_lt (i j : Fin n) : stepsTo i j < n :=
  Nat.mod_lt _ i.pos

theorem inCircle_stepsTo (i j : Fin n) : inCircle i (stepsTo i j) = j := by
  apply Fin.ext
  show (i + (j + (n - i)) % n) % n = j
  rw [Nat.add_mod_mod, show (i : Nat) + (j + (n - i)) = j + n by omega, Nat.add_mod_right,
    Nat.mod_eq_of_lt j.isLt]

/-- Within one round no place comes twice, but for the one that the round starts from. -/
theorem round_of_inCircle_eq {i : Fin n} {j k : Nat} (same : inCircle i j = inCircle i k)
    (before : j < k) (within : k ≤ n) : j = 0 ∧ k = n := by
  have congruent : i + j ≡ i + k [MOD n] := congrArg Fin.val same
  have apart : n ∣ k - j :=
    (Nat.modEq_iff_dvd' (Nat.le_of_lt before)).mp (Nat.ModEq.add_left_cancel' _ congruent)
  have := Nat.le_of_dvd (by omega) apart
  omega

theorem stepsTo_inCircle (i : Fin n) {k : Nat} (within : k < n) : stepsTo i (inCircle i k) = k := by
  have same := inCircle_stepsTo i (inCircle i k)
  have steps := stepsTo_lt i (inCircle i k)
  rcases Nat.lt_trichotomy (stepsTo i (inCircle i k)) k with less | equal | more
  · have := round_of_inCircle_eq same less (Nat.le_of_lt within)
    omega
  · exact equal
  · have := round_of_inCircle_eq same.symm more (Nat.le_of_lt steps)
    omega

/-- Going on from a place on the way leaves the rest of the steps. -/
theorem stepsTo_of_inCircle {i j : Fin n} {k : Nat} (onTheWay : k ≤ stepsTo i j) :
    stepsTo (inCircle i k) j = stepsTo i j - k := by
  have rest : inCircle (inCircle i k) (stepsTo i j - k) = j := by
    rw [inCircle_inCircle, Nat.add_sub_cancel' onTheWay, inCircle_stepsTo]
  have short := Nat.lt_of_le_of_lt (Nat.sub_le (stepsTo i j) k) (stepsTo_lt i j)
  rw [← stepsTo_inCircle (inCircle i k) short, rest]

end Circle

/-! ## The way of the hand -/

namespace Slot

@[simp] theorem isSpared_pass (slot : Slot) : slot.pass.isSpared = false :=
  Bool.and_false _

end Slot

section Sweeping

variable {n : Nat} {slots : Vector Slot n} {hand : Fin n}

theorem sweep_chosen (slots : Vector Slot n) (hand : Fin n) :
    (sweep slots hand).chosen = inCircle hand (sweep slots hand).passed := by
  induction slots, hand using sweep.induct with
  | case1 slots hand spared inductionHypothesis =>
    rw [sweep_of_spared spared]
    exact inductionHypothesis.trans (inCircle_nextInCircle hand _)
  | case2 slots hand stop =>
    rw [sweep_of_not_spared stop]
    exact (inCircle_zero hand).symm

/-- The slots that are passed are spared ones, and the hand does not pass where it started again. -/
theorem isSpared_of_passed {k : Nat} (passed : k < (sweep slots hand).passed) :
    slots[inCircle hand k].isSpared ∧ (0 < k → inCircle hand k ≠ hand) := by
  induction slots, hand using sweep.induct generalizing k with
  | case1 slots hand spared inductionHypothesis =>
    rw [sweep_of_spared spared] at passed
    cases k with
    | zero => simpa using spared
    | succ k =>
      have later := (inductionHypothesis (Nat.lt_of_succ_lt_succ passed)).1
      simp only [inCircle_nextInCircle, Fin.getElem_fin, Vector.getElem_set] at later
      -- the slot at the hand has lost its mark, so it is not the one that is spared later
      split at later
      next same => rw [Slot.isSpared_pass] at later; cases later
      next different => exact ⟨later, fun _ same => different (congrArg Fin.val same.symm)⟩
  | case2 slots hand stop =>
    rw [sweep_of_not_spared stop] at passed
    exact absurd passed (Nat.not_lt_zero k)

theorem passed_le (slots : Vector Slot n) (hand : Fin n) : (sweep slots hand).passed ≤ n := by
  by_contra beyond
  exact (isSpared_of_passed (Nat.not_le.mp beyond)).2 hand.pos (inCircle_size hand)

/-- The slots that are passed lose their marks, the others stay as they are. -/
theorem get_sweep_slots (slots : Vector Slot n) (hand i : Fin n) :
    (sweep slots hand).slots.get i =
      if ∃ k < (sweep slots hand).passed, inCircle hand k = i then (slots.get i).pass
      else slots.get i := by
  show (sweep slots hand).slots[i] =
    if ∃ k < (sweep slots hand).passed, inCircle hand k = i then slots[i].pass else slots[i]
  induction slots, hand using sweep.induct with
  | case1 slots hand spared inductionHypothesis =>
    rw [sweep_of_spared spared]
    simp only [inCircle_nextInCircle, Fin.getElem_fin, Vector.getElem_set] at inductionHypothesis ⊢
    rw [inductionHypothesis]
    generalize (sweep _ (nextInCircle hand)).passed = passed
    by_cases atHand : hand = i
    · subst atHand
      have first : ∃ k < passed + 1, inCircle hand k = hand :=
        ⟨0, Nat.succ_pos passed, inCircle_zero hand⟩
      rw [if_pos rfl, if_pos first]
      exact ite_self _
    · have different : ¬ (hand : Nat) = i := fun same => atHand (Fin.ext same)
      -- the first slot that is passed is another one, so `i` is passed iff it is later on
      have later : (∃ k < passed, inCircle hand (k + 1) = i) ↔
          ∃ k < passed + 1, inCircle hand k = i := by
        constructor
        · rintro ⟨k, before, same⟩
          exact ⟨k + 1, Nat.succ_lt_succ before, same⟩
        · rintro ⟨k, before, same⟩
          cases k with
          | zero => exact absurd ((inCircle_zero hand).symm.trans same) atHand
          | succ k => exact ⟨k, Nat.lt_of_succ_lt_succ before, same⟩
      simp only [if_neg different]
      exact if_congr later rfl rfl
  | case2 slots hand stop =>
    rw [sweep_of_not_spared stop]
    have none : ¬ ∃ k < 0, inCircle hand k = i := by
      rintro ⟨k, passed, -⟩
      exact Nat.not_lt_zero k passed
    exact (if_neg none).symm

theorem not_isSpared_chosen (slots : Vector Slot n) (hand : Fin n) :
    (sweep slots hand).slots[(sweep slots hand).chosen].isSpared = false := by
  induction slots, hand using sweep.induct with
  | case1 slots hand spared inductionHypothesis =>
    simp only [sweep_of_spared spared]
    exact inductionHypothesis
  | case2 slots hand stop =>
    simp only [sweep_of_not_spared stop]
    exact Bool.eq_false_iff.mpr stop

/-- A slot that is spared is chosen only after a whole round, on which all were spared. -/
theorem passed_eq_of_isSpared_chosen (spared : slots[(sweep slots hand).chosen].isSpared) :
    (sweep slots hand).passed = n := by
  have lost : ((sweep slots hand).slots.get (sweep slots hand).chosen).isSpared = false :=
    not_isSpared_chosen slots hand
  rw [get_sweep_slots] at lost
  split at lost
  next passed =>
    obtain ⟨k, before, same⟩ := passed
    rw [sweep_chosen] at same
    exact (round_of_inCircle_eq same before (passed_le slots hand)).2
  next => cases lost.symm.trans spared

/-- How many slots in a row are spared, from the hand on: as many as there are before the first that
is empty or unmarked, or all. -/
def sparedFrom (slots : Vector Slot n) (hand : Fin n) : Nat :=
  (List.range n).findIdx fun k => !slots[inCircle hand k].isSpared

theorem sparedFrom_eq_size {slots : Vector Slot n} {hand : Fin n}
    (spared : ∀ k < n, slots[inCircle hand k].isSpared) : sparedFrom slots hand = n := by
  rw [sparedFrom]
  conv_rhs => rw [← List.length_range (n := n)]
  rw [List.findIdx_eq_length]
  intro k member
  rw [spared k (List.mem_range.mp member)]
  rfl

theorem passed_eq_sparedFrom (slots : Vector Slot n) (hand : Fin n) :
    (sweep slots hand).passed = sparedFrom slots hand := by
  rcases Nat.lt_or_eq_of_le (passed_le slots hand) with inside | round
  · -- short of a whole round the slot that is chosen was unmarked from the start
    have stops : slots[inCircle hand (sweep slots hand).passed].isSpared = false := by
      simp only [← sweep_chosen]
      apply Bool.eq_false_iff.mpr
      intro spared
      exact Nat.ne_of_lt inside (passed_eq_of_isSpared_chosen spared)
    symm
    rw [sparedFrom, List.findIdx_eq (by simpa using inside)]
    simp only [List.getElem_range, stops, Bool.not_false, Bool.not_eq_false', true_and]
    exact fun k before => (isSpared_of_passed before).1
  · rw [round, sparedFrom_eq_size]
    intro k within
    rw [← round] at within
    exact (isSpared_of_passed within).1

end Sweeping

end Residency
