import Mathlib.Data.List.Forall2

/-! # Functional simulation

A machine whose operations may be undefined and return results, against a total
specification on abstract states.  An operation is allowed or not in the abstract
state it is applied to.

* `runOps`, `specOps` — the results and the last state of a sequence of operations.
* `EveryAllowed` — every operation is allowed where it is applied.
* `runOps_refines` — the simulation rule; `specOps_refines` for a machine that is total.
-/

namespace ViOS.Lib

variable {σ τ ω ρ ρ' : Type*}

/-- The results of a sequence of operations and the state they end in. -/
def runOps (step : σ → ω → Option (ρ × σ)) : σ → List ω → Option (List ρ × σ)
  | s, [] => some ([], s)
  | s, op :: ops =>
    match step s op with
    | none => none
    | some (result, t) => (runOps step t ops).map fun (results, u) => (result :: results, u)

/-- The same for a specification, which is total. -/
def specOps (spec : τ → ω → ρ' × τ) : τ → List ω → List ρ' × τ
  | a, [] => ([], a)
  | a, op :: ops =>
    ((spec a op).1 :: (specOps spec (spec a op).2 ops).1, (specOps spec (spec a op).2 ops).2)

/-- Every operation meets `allowed` in the abstract state it is applied to. -/
def EveryAllowed (spec : τ → ω → ρ' × τ) (allowed : τ → ω → Prop) : τ → List ω → Prop
  | _, [] => True
  | a, op :: ops => allowed a op ∧ EveryAllowed spec allowed (spec a op).2 ops

/-- A machine whose allowed steps follow the specification follows it along a whole sequence. -/
theorem runOps_refines {step : σ → ω → Option (ρ × σ)} {spec : τ → ω → ρ' × τ}
    {allowed : τ → ω → Prop} {Rel : σ → τ → Prop} {Agree : ρ → ρ' → Prop}
    (simulates : ∀ s a op, Rel s a → allowed a op →
      ∃ result t, step s op = some (result, t) ∧ Agree result (spec a op).1 ∧ Rel t (spec a op).2)
    (ops : List ω) {s : σ} {a : τ} (related : Rel s a) (allAllowed : EveryAllowed spec allowed a ops) :
    ∃ results t, runOps step s ops = some (results, t) ∧
      List.Forall₂ Agree results (specOps spec a ops).1 ∧ Rel t (specOps spec a ops).2 := by
  induction ops generalizing s a with
  | nil => exact ⟨[], s, rfl, .nil, related⟩
  | cons op ops ih =>
    obtain ⟨result, t, stepped, agree, relatedNext⟩ := simulates s a op related allAllowed.1
    obtain ⟨results, u, ran, agreeRest, relatedEnd⟩ := ih relatedNext allAllowed.2
    refine ⟨result :: results, u, ?_, .cons agree agreeRest, relatedEnd⟩
    simp only [runOps, stepped, ran, Option.map_some]

theorem specOps_append (spec : τ → ω → ρ' × τ) (a : τ) (ops more : List ω) :
    specOps spec a (ops ++ more) =
      ((specOps spec a ops).1 ++ (specOps spec (specOps spec a ops).2 more).1,
        (specOps spec (specOps spec a ops).2 more).2) := by
  induction ops generalizing a with
  | nil => rfl
  | cons op ops ih => simp [specOps, ih]

theorem everyAllowed_append {spec : τ → ω → ρ' × τ} {allowed : τ → ω → Prop} {a : τ}
    {ops more : List ω} :
    EveryAllowed spec allowed a (ops ++ more) ↔
      EveryAllowed spec allowed a ops ∧ EveryAllowed spec allowed (specOps spec a ops).2 more := by
  induction ops generalizing a with
  | nil => simp [EveryAllowed, specOps]
  | cons op ops ih => simp [EveryAllowed, specOps, ih, and_assoc]

/-- Every operation is allowed when it is allowed behind the operations before it. -/
theorem everyAllowed_of_forall {spec : τ → ω → ρ' × τ} {allowed : τ → ω → Prop} {a : τ}
    {ops : List ω} (each : ∀ before op after, ops = before ++ op :: after →
      allowed (specOps spec a before).2 op) : EveryAllowed spec allowed a ops := by
  induction ops generalizing a with
  | nil => trivial
  | cons op ops ih =>
    refine ⟨each [] op ops rfl, ih fun before next after split => ?_⟩
    exact each (op :: before) next after (by rw [split, List.cons_append])

/-- The simulation rule for a total machine with the results of its specification. -/
theorem specOps_refines {impl : σ → ω → ρ × σ} {spec : τ → ω → ρ × τ} {allowed : τ → ω → Prop}
    {Rel : σ → τ → Prop}
    (simulates : ∀ s a op, Rel s a → allowed a op →
      (impl s op).1 = (spec a op).1 ∧ Rel (impl s op).2 (spec a op).2)
    (ops : List ω) {s : σ} {a : τ} (related : Rel s a)
    (allAllowed : EveryAllowed spec allowed a ops) :
    (specOps impl s ops).1 = (specOps spec a ops).1 ∧
      Rel (specOps impl s ops).2 (specOps spec a ops).2 := by
  induction ops generalizing s a with
  | nil => exact ⟨rfl, related⟩
  | cons op ops ih =>
    obtain ⟨same, relatedNext⟩ := simulates s a op related allAllowed.1
    obtain ⟨sameRest, relatedEnd⟩ := ih relatedNext allAllowed.2
    exact ⟨by simp only [specOps, same, sameRest], relatedEnd⟩

end ViOS.Lib
