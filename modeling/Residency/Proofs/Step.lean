import Residency.Fault

/-!
# How steps end

`Step.Ends` says of a step both what holds where it gives a result and what holds where it stops
with a fault; `Step.Yields` is the same for a step that gives a result in any case.  The `ends_`
lemmas take a step apart, and `Step.Ends.bind` continues behind a step of which a lemma is known.
Loops over a list have `Step.Ends.forM`.

`Step.runAll` takes steps one after the other, whether or not they stop: what every step preserves,
a run preserves.
-/

namespace Residency.Step

variable {σ τ α β ι : Type}

/-- From `state` on, the step ends with a result and a state as `done` says, or with a fault and a
state as `stopped` says. -/
def Ends (step : Step σ α) (state : σ) (done : α → σ → Prop) (stopped : Fault → σ → Prop) :
    Prop :=
  match step.run state with
  | .ok result after => done result after
  | .error fault after => stopped fault after

/-- From `state` on, the step ends without a fault, with a result and a state as `done` says. -/
abbrev Yields (step : Step σ α) (state : σ) (done : α → σ → Prop) : Prop :=
  Ends step state done fun _ _ => False

/-! ## Taking steps apart -/

section Rules

variable {state : σ} {done : α → σ → Prop} {stopped : Fault → σ → Prop}

@[simp] theorem ends_pure (a : α) :
    Ends (pure a : Step σ α) state done stopped ↔ done a state := Iff.rfl

@[simp] theorem ends_throw (fault : Fault) :
    Ends (throw fault : Step σ α) state done stopped ↔ stopped fault state := Iff.rfl

@[simp] theorem ends_bind {next : β → σ → Prop} (first : Step σ α) (rest : α → Step σ β) :
    Ends (first >>= rest) state next stopped ↔
      Ends first state (fun a after => Ends (rest a) after next stopped) stopped := by
  unfold Ends
  simp only [EStateM.run, bind, EStateM.bind]
  cases first state <;> rfl

@[simp] theorem ends_get {done : σ → σ → Prop} :
    Ends (get : Step σ σ) state done stopped ↔ done state state := Iff.rfl

@[simp] theorem ends_getThe {done : σ → σ → Prop} :
    Ends (getThe σ : Step σ σ) state done stopped ↔ done state state := Iff.rfl

@[simp] theorem ends_set {done : PUnit → σ → Prop} (after : σ) :
    Ends (set after : Step σ PUnit) state done stopped ↔ done ⟨⟩ after := Iff.rfl

@[simp] theorem ends_modify {done : PUnit → σ → Prop} (f : σ → σ) :
    Ends (modify f : Step σ PUnit) state done stopped ↔ done ⟨⟩ (f state) := Iff.rfl

@[simp] theorem ends_modifyGet (f : σ → α × σ) :
    Ends (modifyGet f : Step σ α) state done stopped ↔ done (f state).1 (f state).2 := Iff.rfl

@[simp] theorem ends_ensure {done : Unit → σ → Prop} (condition : Bool) (fault : Fault) :
    Ends (ensure condition fault : Step σ Unit) state done stopped ↔
      if condition then done () state else stopped fault state := by
  cases condition <;> rfl

@[simp] theorem ends_getOrFault_some (a : α) (fault : Fault) :
    Ends (getOrFault (some a) fault : Step σ α) state done stopped ↔ done a state := Iff.rfl

@[simp] theorem ends_addSizes {done : Nat → σ → Prop} (a b : Nat) :
    Ends (addSizes a b : Step σ Nat) state done stopped ↔
      if a + b < wordLimit then done (a + b) state else stopped .overflow state := by
  unfold Ends
  rw [run_addSizes]
  by_cases fits : a + b < wordLimit
  · rw [if_pos fits, if_pos fits]
  · rw [if_neg fits, if_neg fits]

@[simp] theorem ends_mulSizes {done : Nat → σ → Prop} (a b : Nat) :
    Ends (mulSizes a b : Step σ Nat) state done stopped ↔
      if a * b < wordLimit then done (a * b) state else stopped .overflow state := by
  unfold Ends
  rw [run_mulSizes]
  by_cases fits : a * b < wordLimit
  · rw [if_pos fits, if_pos fits]
  · rw [if_neg fits, if_neg fits]

@[simp] theorem ends_on (get : σ → τ) (put : τ → σ → σ) (step : Step τ α) :
    Ends (on get put step) state done stopped ↔
      Ends step (get state) (fun a part => done a (put part state))
        fun fault part => stopped fault (put part state) := by
  unfold Ends
  rw [run_on]
  cases step.run (get state) <;> rfl

@[simp] theorem ends_ite {condition : Prop} [Decidable condition] (first second : Step σ α) :
    Ends (if condition then first else second) state done stopped ↔
      if condition then Ends first state done stopped else Ends second state done stopped := by
  split <;> rfl

end Rules

/-! ## Putting steps together -/

section Composition

variable {state : σ} {first : Step σ α} {done done' : α → σ → Prop}
  {stopped stopped' : Fault → σ → Prop}

theorem Ends.imp (ends : Ends first state done stopped)
    (results : ∀ a after, done a after → done' a after)
    (faults : ∀ fault after, stopped fault after → stopped' fault after) :
    Ends first state done' stopped' := by
  unfold Ends at *
  cases run : first.run state with
  | ok a after => rw [run] at ends; exact results a after ends
  | error fault after => rw [run] at ends; exact faults fault after ends

/-- A step that gives a result in any case may be followed by steps that stop in any way. -/
theorem Yields.imp (yields : Yields first state done)
    (results : ∀ a after, done a after → done' a after) :
    Ends first state done' stopped :=
  Ends.imp yields results fun _ _ impossible => impossible.elim

theorem Ends.bind {rest : α → Step σ β} {next : β → σ → Prop}
    (ends : Ends first state done stopped)
    (continues : ∀ a after, done a after → Ends (rest a) after next stopped) :
    Ends (first >>= rest) state next stopped := by
  rw [ends_bind]
  exact ends.imp continues fun _ _ => id

theorem Yields.bind {rest : α → Step σ β} {next : β → σ → Prop} (yields : Yields first state done)
    (continues : ∀ a after, done a after → Ends (rest a) after next stopped) :
    Ends (first >>= rest) state next stopped := by
  rw [ends_bind]
  exact Yields.imp yields continues

theorem Yields.returning (yields : Yields first state done) (result : β) :
    Yields (do
      let _ ← first
      return result) state fun b after => b = result ∧ ∃ a, done a after := by
  apply yields.bind
  exact fun a after holds => (ends_pure _).mpr ⟨rfl, a, holds⟩

theorem Yields.run (yields : Yields first state done) :
    ∃ a after, first.run state = .ok a after ∧ done a after := by
  unfold Yields Ends at yields
  cases run : first.run state with
  | ok a after => rw [run] at yields; exact ⟨a, after, rfl, yields⟩
  | error fault after => rw [run] at yields; exact yields.elim

theorem Ends.fault (stops : Ends first state (fun _ _ => False) stopped) :
    ∃ fault after, first.run state = .error fault after ∧ stopped fault after := by
  unfold Ends at stops
  cases run : first.run state with
  | ok a after => rw [run] at stops; exact stops.elim
  | error fault after => rw [run] at stops; exact ⟨fault, after, rfl, stops⟩

theorem Ends.of_run {a : α} {after : σ} (run : first.run state = .ok a after)
    (holds : done a after) : Ends first state done stopped := by
  unfold Ends
  rw [run]
  exact holds

theorem Ends.of_fault {fault : Fault} {after : σ} (run : first.run state = .error fault after)
    (holds : stopped fault after) : Ends first state done stopped := by
  unfold Ends
  rw [run]
  exact holds

theorem Ends.done_of_run {a : α} {after : σ} (ends : Ends first state done stopped)
    (run : first.run state = .ok a after) : done a after := by
  unfold Ends at ends
  rw [run] at ends
  exact ends

theorem Ends.stopped_of_run {fault : Fault} {after : σ} (ends : Ends first state done stopped)
    (run : first.run state = .error fault after) : stopped fault after := by
  unfold Ends at ends
  rw [run] at ends
  exact ends

/-- The rule for loops over a list: `invariant` speaks of the elements that are left. -/
theorem Ends.forM {step : ι → Step σ PUnit} (invariant : List ι → σ → Prop)
    (each : ∀ a rest state, invariant (a :: rest) state →
      Ends (step a) state (fun _ after => invariant rest after) stopped)
    (elements : List ι) {state : σ} (start : invariant elements state) :
    Ends (elements.forM step) state (fun _ after => invariant [] after) stopped := by
  induction elements generalizing state with
  | nil => exact (ends_pure _).mpr start
  | cons a rest inductionHypothesis =>
    -- behind the first element the loop is one over the rest, from the state reached by then
    show Ends (step a >>= fun _ => rest.forM step) state _ _
    exact Ends.bind (each a rest state start) fun _ _ holds => inductionHypothesis holds

/-- A step that is looked at in two ways. -/
theorem Ends.and (ends : Ends first state done stopped) (ends' : Ends first state done' stopped') :
    Ends first state (fun a after => done a after ∧ done' a after)
      fun fault after => stopped fault after ∧ stopped' fault after := by
  unfold Ends at *
  cases run : first.run state with
  | ok a after => rw [run] at ends ends'; exact ⟨ends, ends'⟩
  | error fault after => rw [run] at ends ends'; exact ⟨ends, ends'⟩

/-- A step that gives a result in any case may be looked at as one that might not. -/
theorem Yields.and (yields : Yields first state done) (ends : Ends first state done' stopped') :
    Yields first state fun a after => done a after ∧ done' a after :=
  (Ends.and yields ends).imp (fun _ _ => id) fun _ _ => And.left

/-- Of a step about which nothing is known, how it ran. -/
theorem ends_run (first : Step σ α) (state : σ) :
    Ends first state (fun a after => first.run state = .ok a after)
      fun fault after => first.run state = .error fault after := by
  unfold Ends
  cases first.run state <;> rfl

theorem ends_somehow (first : Step σ α) (state : σ) :
    Ends first state (fun _ _ => True) fun _ _ => True :=
  (ends_run first state).imp (fun _ _ _ => trivial) fun _ _ _ => trivial

theorem run_bind_of_ok {rest : α → Step σ β} {a : α} {after : σ}
    (run : first.run state = .ok a after) :
    (first >>= rest).run state = (rest a).run after := by
  simp only [EStateM.run, bind, EStateM.bind] at run ⊢
  rw [run]

theorem run_bind_of_error {rest : α → Step σ β} {fault : Fault} {after : σ}
    (run : first.run state = .error fault after) :
    (first >>= rest).run state = .error fault after := by
  simp only [EStateM.run, bind, EStateM.bind] at run ⊢
  rw [run]

end Composition

/-! ## Runs -/

/-- Takes steps one after the other, each from the state in which the one before it ended, with a
result or with a fault. -/
def runAll : List (Step σ α) → σ → List (Except Fault α) × σ
  | [], state => ([], state)
  | step :: rest, state =>
    match step.run state with
    | .ok a after => ((.ok a :: (runAll rest after).1), (runAll rest after).2)
    | .error fault after => ((.error fault :: (runAll rest after).1), (runAll rest after).2)

theorem runAll_cons_of_ok {step : Step σ α} {state after : σ} {a : α}
    (run : step.run state = .ok a after) (rest : List (Step σ α)) :
    runAll (step :: rest) state = (.ok a :: (runAll rest after).1, (runAll rest after).2) := by
  rw [runAll, run]

theorem runAll_cons_of_error {step : Step σ α} {state after : σ} {fault : Fault}
    (run : step.run state = .error fault after) (rest : List (Step σ α)) :
    runAll (step :: rest) state =
      (.error fault :: (runAll rest after).1, (runAll rest after).2) := by
  rw [runAll, run]

/-- The steps behind others are taken from the state in which those end. -/
theorem runAll_append (first second : List (Step σ α)) (state : σ) :
    runAll (first ++ second) state =
      ((runAll first state).1 ++ (runAll second (runAll first state).2).1,
        (runAll second (runAll first state).2).2) := by
  induction first generalizing state with
  | nil => rfl
  | cons step rest inductionHypothesis =>
    cases run : step.run state with
    | ok a after =>
      rw [List.cons_append, runAll_cons_of_ok run, runAll_cons_of_ok run, inductionHypothesis]
      rfl
    | error fault after =>
      rw [List.cons_append, runAll_cons_of_error run, runAll_cons_of_error run,
        inductionHypothesis]
      rfl

/-- What every step preserves, whether or not it stops, a run preserves. -/
theorem runAll_invariant (invariant : σ → Prop) {steps : List (Step σ α)}
    (preserved : ∀ step ∈ steps, ∀ state, invariant state →
      Ends step state (fun _ after => invariant after) fun _ after => invariant after)
    {state : σ} (start : invariant state) : invariant (runAll steps state).2 := by
  induction steps generalizing state with
  | nil => exact start
  | cons step rest inductionHypothesis =>
    have ends := preserved step (List.mem_cons_self ..) state start
    -- a fault does not end the run, so both exits continue in the same way
    have continues : ∀ after, invariant after → invariant (runAll rest after).2 := fun _ holds =>
      inductionHypothesis (fun later member => preserved later (List.mem_cons_of_mem _ member)) holds
    unfold Ends at ends
    cases run : step.run state with
    | ok a after =>
      rw [run] at ends
      rw [runAll_cons_of_ok run]
      exact continues after ends
    | error fault after =>
      rw [run] at ends
      rw [runAll_cons_of_error run]
      exact continues after ends

-- from here on steps are taken apart by the lemmas, and never run by unfolding
attribute [irreducible] Ends

end Residency.Step
