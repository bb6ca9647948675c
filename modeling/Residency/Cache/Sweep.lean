import Residency.Cache.Slot

/-!
# The hand of the cache

The slots stand in a circle and a hand points at one of them.  `sweep` moves the hand to the slot
to be given up: a slot whose sector was used since the hand last passed is passed once more and
loses its mark, the first other one is chosen.  Each passed slot loses a mark, so the hand stops.
-/

namespace Residency

structure Sweep (n : Nat) where
  slots : Vector Slot n
  chosen : Fin n
  passed : Nat

theorem countP_accessed_pass_lt {n : Nat} {slots : Vector Slot n} {hand : Fin n}
    (h : slots[hand].isSpared) :
    (slots.set hand slots[hand].pass).countP (·.accessed) < slots.countP (·.accessed) := by
  have hmarked : slots[hand.val].accessed = true := by
    simp only [Slot.isSpared, Bool.and_eq_true] at h
    exact h.2
  have hpos : 0 < slots.countP (·.accessed) :=
    Vector.countP_pos_iff.mpr ⟨_, Vector.getElem_mem hand.isLt, hmarked⟩
  rw [Vector.countP_set]
  simp only [Slot.pass, hmarked, if_true, Bool.false_eq_true, if_false]
  omega

/-- The place behind `i` in a circle of `n` places. -/
def nextInCircle {n : Nat} (i : Fin n) : Fin n :=
  ⟨(i + 1) % n, Nat.mod_lt _ i.pos⟩

/-- Moves the hand to the first slot that is empty or unmarked, taking the marks of the slots it
    passes. -/
def sweep {n : Nat} (slots : Vector Slot n) (hand : Fin n) : Sweep n :=
  if _h : slots[hand].isSpared then
    let rest := sweep (slots.set hand slots[hand].pass) (nextInCircle hand)
    { rest with passed := rest.passed + 1 }
  else
    { slots, chosen := hand, passed := 0 }
termination_by slots.countP (·.accessed)
decreasing_by exact countP_accessed_pass_lt _h

theorem sweep_of_spared {n : Nat} {slots : Vector Slot n} {hand : Fin n}
    (spared : slots[hand].isSpared) :
    sweep slots hand =
      let rest := sweep (slots.set hand slots[hand].pass) (nextInCircle hand)
      { rest with passed := rest.passed + 1 } := by
  rw [sweep, dif_pos spared]

theorem sweep_of_not_spared {n : Nat} {slots : Vector Slot n} {hand : Fin n}
    (stop : ¬ slots[hand].isSpared) :
    sweep slots hand = { slots, chosen := hand, passed := 0 } := by
  rw [sweep, dif_neg stop]

/-- What the passing hand leaves of a slot: an empty slot is not passed. -/
theorem sweep_slots {n : Nat} (slots : Vector Slot n) (hand i : Fin n) :
    (sweep slots hand).slots[i] = slots[i] ∨
      slots[i].sector.isSome ∧ (sweep slots hand).slots[i] = slots[i].pass := by
  fun_induction sweep slots hand with
  | case1 slots hand spared rest inductionHypothesis =>
    have marked : slots[hand].sector.isSome := by
      simp only [Slot.isSpared, Bool.and_eq_true] at spared
      exact spared.1
    simp only [Fin.getElem_fin, Vector.getElem_set] at inductionHypothesis ⊢
    by_cases passed : hand = i
    · subst passed
      refine Or.inr ⟨marked, ?_⟩
      rcases inductionHypothesis with same | ⟨-, same⟩
      · simpa [rest] using same
      · simpa [rest, Slot.pass] using same
    · have different : ¬ (hand : Nat) = i := fun equal => passed (Fin.ext equal)
      simpa [rest, different] using inductionHypothesis
  | case2 slots hand stop => exact Or.inl rfl

end Residency
