import Residency.Proofs.Step

/-!
# Steps that agree

`Step.Agree` compares two runs: both give the same result or both stop with the same fault, and
the states that they end in are related.  Steps that agree one after the other agree as a whole
(`Step.Agree.bind`), and a run of steps each of which keeps two states related cannot tell the
states apart (`Step.runAll_agree`).
-/

namespace Residency.Step

variable {σ τ α β : Type}

/-- Run from `a` and from `b`, the steps end alike: with one result or with one fault, and in
related states. -/
def Agree (related : σ → σ → Prop) (first second : Step σ α) (a b : σ) : Prop :=
  Ends first a
    (fun result a' => Yields second b fun other b' => result = other ∧ related a' b')
    fun fault a' => Ends second b (fun _ _ => False) fun other b' => fault = other ∧ related a' b'

namespace Agree

variable {related : σ → σ → Prop} {first second : Step σ α} {a b : σ}

protected theorem pure (result : α) (holds : related a b) :
    Agree related (pure result) (pure result) a b :=
  (ends_pure _).mpr ((ends_pure _).mpr ⟨rfl, holds⟩)

protected theorem set {a' b' : σ} (holds : related a' b') :
    Agree related (set a') (set b') a b :=
  (ends_set _).mpr ((ends_set _).mpr ⟨rfl, holds⟩)

protected theorem modify {f g : σ → σ} (holds : related (f a) (g b)) :
    Agree related (modify f) (modify g) a b :=
  (ends_modify f).mpr ((ends_modify g).mpr ⟨rfl, holds⟩)

protected theorem modifyGet {f g : σ → α × σ}
    (ended : (f a).1 = (g b).1 ∧ related (f a).2 (g b).2) :
    Agree related (modifyGet f) (modifyGet g) a b :=
  (ends_modifyGet f).mpr ((ends_modifyGet g).mpr ended)

protected theorem ensure (condition : Bool) (fault : Fault) (holds : related a b) :
    Agree related (ensure condition fault) (ensure condition fault) a b := by
  rw [Agree, ends_ensure]
  split
  next true => exact (ends_ensure condition fault).mpr (by rw [if_pos true]; exact ⟨rfl, holds⟩)
  next false => exact (ends_ensure condition fault).mpr (by rw [if_neg false]; exact ⟨rfl, holds⟩)

protected theorem getOrFault (value : Option α) (fault : Fault) (holds : related a b) :
    Agree related (getOrFault value fault) (getOrFault value fault) a b := by
  cases value with
  | some result => exact Agree.pure result holds
  | none => exact (ends_throw fault).mpr ((ends_throw fault).mpr ⟨rfl, holds⟩)

/-- A state that is looked at may be a different one in each run. -/
theorem get {rest rest' : σ → Step σ α} (agree : Agree related (rest a) (rest' b) a b) :
    Agree related (get >>= rest) (get >>= rest') a b := by
  simp only [Agree, ends_bind, ends_get]
  exact agree

theorem bind {rest rest' : α → Step σ β} (agree : Agree related first second a b)
    (continues : ∀ result a' b', related a' b' → Agree related (rest result) (rest' result) a' b') :
    Agree related (first >>= rest) (second >>= rest') a b := by
  rw [Agree, ends_bind]
  apply agree.imp
  · intro result a' ended
    obtain ⟨_, b', run, rfl, holds⟩ := ended.run
    apply (continues result a' b' holds).imp
    · intro last after yields
      rw [Yields, ends_bind]
      exact Ends.of_run run yields
    · intro fault after stops
      rw [ends_bind]
      exact Ends.of_run run stops
  · intro fault a' stops
    rw [ends_bind]
    exact Ends.imp stops (fun _ _ => False.elim) fun _ _ => id

/-- Steps on parts of two states agree if the parts fit back into related states. -/
theorem on {part : τ → τ → Prop} {step step' : Step τ α} {get : σ → τ} {put : τ → σ → σ}
    (agree : Agree part step step' (get a) (get b))
    (back : ∀ p q, part p q → related (put p a) (put q b)) :
    Agree related (Step.on get put step) (Step.on get put step') a b := by
  simp only [Agree, ends_on]
  apply Ends.imp agree
  · intro result p ended
    exact Yields.imp ended fun _ q both => ⟨both.1, back p q both.2⟩
  · intro fault p ended
    exact Ends.imp ended (fun _ _ => id) fun _ q both => ⟨both.1, back p q both.2⟩

end Agree

/-- States that every step keeps related answer a run in the same way. -/
theorem runAll_agree (related : σ → σ → Prop) {steps : List (Step σ α)}
    (each : ∀ step ∈ steps, ∀ a b, related a b → Agree related step step a b) {a b : σ}
    (start : related a b) :
    (runAll steps a).1 = (runAll steps b).1 ∧ related (runAll steps a).2 (runAll steps b).2 := by
  induction steps generalizing a b with
  | nil => exact ⟨rfl, start⟩
  | cons step rest inductionHypothesis =>
    have continues {a' b' : σ} (holds : related a' b') :=
      inductionHypothesis (fun later member => each later (List.mem_cons_of_mem _ member)) holds
    have agree := each step (List.mem_cons_self ..) a b start
    cases run : step.run a with
    | ok result a' =>
      obtain ⟨_, b', run', rfl, holds⟩ := (agree.done_of_run run).run
      rw [runAll_cons_of_ok run, runAll_cons_of_ok run', (continues holds).1]
      exact ⟨rfl, (continues holds).2⟩
    | error fault a' =>
      obtain ⟨_, b', run', rfl, holds⟩ := (agree.stopped_of_run run).fault
      rw [runAll_cons_of_error run, runAll_cons_of_error run', (continues holds).1]
      exact ⟨rfl, (continues holds).2⟩

end Residency.Step
