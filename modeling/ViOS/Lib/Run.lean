import Mathlib.Data.List.Basic

/-! # Runs of a labelled transition system

A run is recorded as the list of its operations, each paired with the state it
leads to, so that "every state reached" and "every step taken" are both
recursive predicates over one list.  The step relation is arbitrary: a legality
condition on the operation, or the choice an allocator makes, is part of it.

* `IsRun`, `runStates`, `EveryStep` — the runs, the states they pass through,
  and a condition imposed on each step.
* `inv_of_everyStep`, `everyStep_of_inv`, `inv_of_isRun` — the invariant rules.
* `good_iff_everyStep` — the exactness rule: when an allowed step keeps the
  invariant and any other step spoils the property, a run is good precisely when
  all its steps are allowed.
* `StepsMeet`, `stepsMeet_iff_everyStep` — the same for what each step does.
-/

namespace ViOS.Lib

variable {σ ω : Type*}

/-- `run` is a run of `step` from the given state. -/
def IsRun (step : σ → ω → σ → Prop) : σ → List (ω × σ) → Prop
  | _, [] => True
  | s, (op, t) :: rest => step s op t ∧ IsRun step t rest

/-- The states of a run, the first one included. -/
def runStates (s : σ) (run : List (ω × σ)) : List σ := s :: run.map Prod.snd

/-- Every operation of the run meets `ok` in the state it is applied to. -/
def EveryStep (ok : σ → ω → Prop) : σ → List (ω × σ) → Prop
  | _, [] => True
  | s, (op, t) :: rest => ok s op ∧ EveryStep ok t rest

/-- Every step of the run, with the state it leads to, meets `spec`. -/
def StepsMeet (spec : σ → ω → σ → Prop) : σ → List (ω × σ) → Prop
  | _, [] => True
  | s, (op, t) :: rest => spec s op t ∧ StepsMeet spec t rest

@[simp] theorem runStates_nil (s : σ) : runStates s ([] : List (ω × σ)) = [s] := rfl

@[simp] theorem runStates_cons (s t : σ) (op : ω) (rest : List (ω × σ)) :
    runStates s ((op, t) :: rest) = s :: runStates t rest := rfl

/-- The invariant rule for runs whose steps all meet `ok`. -/
theorem inv_of_everyStep {step : σ → ω → σ → Prop} {ok : σ → ω → Prop} {Inv : σ → Prop}
    (preserves : ∀ s op t, step s op t → ok s op → Inv s → Inv t)
    {s : σ} {run : List (ω × σ)} (isRun : IsRun step s run) (allOk : EveryStep ok s run)
    (initial : Inv s) : ∀ t ∈ runStates s run, Inv t := by
  induction run generalizing s with
  | nil =>
    intro t member
    rw [runStates_nil, List.mem_singleton] at member
    exact member ▸ initial
  | cons head rest ih =>
    obtain ⟨op, u⟩ := head
    intro t member
    rw [runStates_cons] at member
    rcases List.mem_cons.mp member with same | later
    · exact same ▸ initial
    · exact ih isRun.2 allOk.2 (preserves s op u isRun.1 allOk.1 initial) t later

/-- What holds of a step from any state with the invariant holds of every step of a run. -/
theorem everyStep_of_inv {step : σ → ω → σ → Prop} {ok : σ → ω → Prop} {Inv : σ → Prop}
    (preserves : ∀ s op t, step s op t → Inv s → Inv t)
    (holds : ∀ s op t, step s op t → Inv s → ok s op)
    {s : σ} {run : List (ω × σ)} (isRun : IsRun step s run) (initial : Inv s) :
    EveryStep ok s run := by
  induction run generalizing s with
  | nil => trivial
  | cons head rest ih =>
    obtain ⟨op, t⟩ := head
    exact ⟨holds s op t isRun.1 initial, ih isRun.2 (preserves s op t isRun.1 initial)⟩

/-- The invariant rule for all runs. -/
theorem inv_of_isRun {step : σ → ω → σ → Prop} {Inv : σ → Prop}
    (preserves : ∀ s op t, step s op t → Inv s → Inv t) {s : σ} {run : List (ω × σ)}
    (isRun : IsRun step s run) (initial : Inv s) : ∀ t ∈ runStates s run, Inv t := by
  have allOk : EveryStep (fun _ _ => True) s run :=
    everyStep_of_inv preserves (fun _ _ _ _ _ => trivial) isRun initial
  exact inv_of_everyStep (fun s op t step _ => preserves s op t step) isRun allOk initial

/-- Conditions that agree on every step of a run are met by the same runs. -/
theorem everyStep_congr {ok ok' : σ → ω → Prop} {s : σ} {run : List (ω × σ)}
    (agree : EveryStep (fun s op => ok s op ↔ ok' s op) s run) :
    EveryStep ok s run ↔ EveryStep ok' s run := by
  induction run generalizing s with
  | nil => exact Iff.rfl
  | cons head rest ih =>
    obtain ⟨op, t⟩ := head
    exact and_congr agree.1 (ih agree.2)

/-- A condition that every step of a run meets can be made a part of the step. -/
theorem isRun_of_everyStep {step : σ → ω → σ → Prop} {ok : σ → ω → Prop} {s : σ} {run : List (ω × σ)}
    (isRun : IsRun step s run) (allOk : EveryStep ok s run) :
    IsRun (fun s op t => ok s op ∧ step s op t) s run := by
  induction run generalizing s with
  | nil => trivial
  | cons head rest ih =>
    obtain ⟨op, t⟩ := head
    exact ⟨⟨allOk.1, isRun.1⟩, ih isRun.2 allOk.2⟩

/-- The exactness rule.  The invariant gives the property, allowed steps keep the
invariant, and a step that is not allowed leads to a state without the property. -/
theorem good_iff_everyStep {step : σ → ω → σ → Prop} {ok : σ → ω → Prop} {Inv Good : σ → Prop}
    (good : ∀ s, Inv s → Good s)
    (preserves : ∀ s op t, step s op t → ok s op → Inv s → Inv t)
    (spoils : ∀ s op t, step s op t → ¬ ok s op → Inv s → ¬ Good t)
    {s : σ} {run : List (ω × σ)} (isRun : IsRun step s run) (initial : Inv s) :
    (∀ t ∈ runStates s run, Good t) ↔ EveryStep ok s run := by
  constructor
  · intro allGood
    induction run generalizing s with
    | nil => trivial
    | cons head rest ih =>
      obtain ⟨op, u⟩ := head
      rw [runStates_cons] at allGood
      have goodNext : Good u :=
        allGood u (List.mem_cons_of_mem _ (by cases rest <;> simp [runStates]))
      have allowed : ok s op := by
        by_contra forbidden
        exact spoils s op u isRun.1 forbidden initial goodNext
      exact ⟨allowed, ih isRun.2 (preserves s op u isRun.1 allowed initial)
        (fun t member => allGood t (List.mem_cons_of_mem _ member))⟩
  · intro allOk t member
    exact good t (inv_of_everyStep preserves isRun allOk initial t member)

/-- The exactness rule for a specification of the steps, which contains the invariant of the next
state: allowed steps meet it, and no other step does. -/
theorem stepsMeet_iff_everyStep {step spec : σ → ω → σ → Prop} {ok : σ → ω → Prop} {Inv : σ → Prop}
    (meets : ∀ s op t, step s op t → ok s op → Inv s → spec s op t)
    (keeps : ∀ s op t, spec s op t → Inv t)
    (fails : ∀ s op t, step s op t → ¬ ok s op → Inv s → ¬ spec s op t)
    {s : σ} {run : List (ω × σ)} (isRun : IsRun step s run) (initial : Inv s) :
    StepsMeet spec s run ↔ EveryStep ok s run := by
  induction run generalizing s with
  | nil => exact Iff.rfl
  | cons head rest ih =>
    obtain ⟨op, t⟩ := head
    constructor
    · intro ⟨here, later⟩
      have allowed : ok s op := by
        by_contra forbidden
        exact fails s op t isRun.1 forbidden initial here
      exact ⟨allowed, (ih isRun.2 (keeps s op t here)).mp later⟩
    · intro ⟨allowed, later⟩
      have here := meets s op t isRun.1 allowed initial
      exact ⟨here, (ih isRun.2 (keeps s op t here)).mpr later⟩

end ViOS.Lib
