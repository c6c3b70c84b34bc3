import Mathlib.Data.List.Nodup
import Mathlib.Logic.Function.Basic
import Mathlib.Tactic.Basic

/-! # Chains in a table

A table gives every node its successor, or a value that ends the chain.  A chain is the
list of its nodes; it is changed by linking a node that is in no chain behind the last
one, and it is not changed by what happens at other nodes.

* `Chain` — the chains, with the empty list as the chain without nodes.
* `Chain.congr`, `Chain.link` — frame and extension.
* `Chain.next_getElem` — following a chain.
* `Chain.unique`, `Chain.nodup` — a chain is determined by its first node, and does not meet itself.
-/

namespace ViOS.Lib

variable {α : Type*}

/-- The list follows the table to its end. -/
def Chain (next : α → α) (stop : α → Prop) : List α → Prop
  | [] => True
  | [last] => stop (next last)
  | node :: succ :: rest => next node = succ ∧ Chain next stop (succ :: rest)

namespace Chain

variable {next next' : α → α} {stop : α → Prop} {l : List α}

theorem congr (chain : Chain next stop l) (same : ∀ node ∈ l, next' node = next node) :
    Chain next' stop l := by
  induction l with
  | nil => trivial
  | cons node rest ih =>
    have here := same node List.mem_cons_self
    cases rest with
    | nil =>
      change stop (next' node)
      rw [here]
      exact chain
    | cons succ rest =>
      exact ⟨here.trans chain.1, ih chain.2 fun other member => same other (List.mem_cons_of_mem _ member)⟩

/-- A chain followed from any of its nodes. -/
theorem next_getElem (chain : Chain next stop l) {i : Nat} (inside : i + 1 < l.length) :
    next l[i] = l[i + 1] := by
  induction l generalizing i with
  | nil => exact absurd inside (by simp)
  | cons node rest ih =>
    cases rest with
    | nil => exact absurd inside (by simp)
    | cons succ rest =>
      cases i with
      | zero => exact chain.1
      | succ i => exact ih chain.2 (by simpa using inside)

theorem stop_getLast (chain : Chain next stop l) (notEmpty : l ≠ []) : stop (next (l.getLast notEmpty)) := by
  induction l with
  | nil => exact absurd rfl notEmpty
  | cons node rest ih =>
    cases rest with
    | nil => exact chain
    | cons succ rest =>
      rw [List.getLast_cons (List.cons_ne_nil succ rest)]
      exact ih chain.2 (List.cons_ne_nil succ rest)

/-- A node's entry is the next node or the end. -/
theorem next_mem (chain : Chain next stop l) {node : α} (member : node ∈ l) :
    next node ∈ l ∨ stop (next node) := by
  induction l with
  | nil => exact absurd member List.not_mem_nil
  | cons head rest ih =>
    cases rest with
    | nil =>
      obtain rfl := List.mem_singleton.mp member
      exact .inr chain
    | cons succ rest =>
      rcases List.mem_cons.mp member with rfl | later
      · exact .inl (chain.1 ▸ List.mem_cons_of_mem _ List.mem_cons_self)
      · exact (ih chain.2 later).imp (List.mem_cons_of_mem _) id

theorem tail {node : α} (chain : Chain next stop (node :: l)) : Chain next stop l := by
  cases l with
  | nil => trivial
  | cons succ rest => exact chain.2

theorem suffix {before : List α} (chain : Chain next stop (before ++ l)) : Chain next stop l := by
  induction before with
  | nil => exact chain
  | cons node rest ih => exact ih chain.tail

/-- Two chains that begin at one node, none of whose nodes ends a chain. -/
theorem unique {node : α} {m : List α} (chain : Chain next stop (node :: l))
    (chain' : Chain next stop (node :: m)) (links : ∀ node ∈ l, ¬ stop node)
    (links' : ∀ node ∈ m, ¬ stop node) : l = m := by
  induction l generalizing node m with
  | nil =>
    cases m with
    | nil => rfl
    | cons succ rest =>
      have isEnd : stop (next node) := chain
      rw [chain'.1] at isEnd
      exact absurd isEnd (links' succ List.mem_cons_self)
  | cons succ rest ih =>
    cases m with
    | nil =>
      have isEnd : stop (next node) := chain'
      rw [chain.1] at isEnd
      exact absurd isEnd (links succ List.mem_cons_self)
    | cons succ' rest' =>
      obtain rfl : succ = succ' := chain.1.symm.trans chain'.1
      rw [ih chain.2 chain'.2 (fun other member => links other (List.mem_cons_of_mem _ member))
        fun other member => links' other (List.mem_cons_of_mem _ member)]

/-- A chain that comes to an end has no node twice. -/
theorem nodup (chain : Chain next stop l) (links : ∀ node ∈ l, ¬ stop node) : l.Nodup := by
  induction l with
  | nil => exact List.nodup_nil
  | cons node rest ih =>
    have linksRest := fun other member => links other (List.mem_cons_of_mem node member)
    refine List.nodup_cons.mpr ⟨fun again => ?_, ih chain.tail linksRest⟩
    -- from the second occurrence on the chain would go on as from the first
    obtain ⟨before, behind, split⟩ := List.mem_iff_append.mp again
    have chainAgain : Chain next stop (node :: behind) := by
      have chainRest := chain.tail
      rw [split] at chainRest
      exact chainRest.suffix
    have linksBehind : ∀ other ∈ behind, ¬ stop other := by
      intro other member
      apply linksRest
      rw [split]
      exact List.mem_append_right _ (List.mem_cons_of_mem _ member)
    have same := chain.unique chainAgain linksRest linksBehind
    have lengths := congrArg List.length same
    rw [split, List.length_append, List.length_cons] at lengths
    omega

/-- A node that was in no chain is linked behind the last one. -/
theorem link [DecidableEq α] {last new ending : α} (chain : Chain next stop (l ++ [last]))
    (nodup : (l ++ [last]).Nodup) (isNew : new ∉ l ++ [last]) (ends : stop ending) :
    Chain (Function.update (Function.update next new ending) last new) stop (l ++ [last, new]) := by
  have different : new ≠ last := fun same => isNew (same ▸ List.mem_append_right _ List.mem_cons_self)
  induction l with
  | nil =>
    refine ⟨Function.update_self _ _ _, ?_⟩
    change stop (Function.update (Function.update next new ending) last new new)
    rw [Function.update_of_ne different, Function.update_self]
    exact ends
  | cons node rest ih =>
    have inRest := ih ?_ (List.nodup_cons.mp nodup).2 fun member => isNew (List.mem_cons_of_mem _ member)
    · have notLast : node ≠ last := fun same =>
        (List.nodup_cons.mp nodup).1 (same ▸ List.mem_append_right _ List.mem_cons_self)
      have notNew : node ≠ new := fun same => isNew (same ▸ List.mem_cons_self)
      have kept : Function.update (Function.update next new ending) last new node = next node := by
        rw [Function.update_of_ne notLast, Function.update_of_ne notNew]
      cases rest with
      | nil => exact ⟨kept.trans chain.1, inRest⟩
      | cons succ rest => exact ⟨kept.trans chain.1, inRest⟩
    · cases rest with
      | nil => exact chain.2
      | cons succ rest => exact chain.2

end Chain

end ViOS.Lib
