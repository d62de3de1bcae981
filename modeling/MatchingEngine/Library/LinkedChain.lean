import Mathlib.Tactic.TypeStar
import Mathlib.Data.List.Basic

/-!
# Null-terminated chains of links

A singly linked list is read off a partial map from nodes to links: `Chain`
says which nodes a pointer leads to, and `collect` walks the links with a bound
on the number of steps.  A chain is determined by its start, depends only on
the links of its own nodes, and is what the walk collects.
-/

namespace MatchingEngine
namespace LinkedChain

variable {α : Type*}

/-- The nodes that a pointer leads to before the null pointer is met. -/
def Chain (link : α → Option (Option α)) : Option α → List α → Prop
  | start, [] => start = none
  | start, node :: rest =>
      start = some node ∧ ∃ next, link node = some next ∧ Chain link next rest

/-- Walk the links for at most so many nodes. -/
def collect (link : α → Option (Option α)) : Nat → Option α → List α
  | 0, _ => []
  | _ + 1, none => []
  | fuel + 1, some node =>
      node :: match link node with
        | some next => collect link fuel next
        | none => []

variable {link link' : α → Option (Option α)} {start : Option α} {nodes : List α}

@[simp] theorem chain_nil : Chain link start [] ↔ start = none := Iff.rfl

/-- A chain starts at its first node. -/
theorem Chain.start_eq (chain : Chain link start nodes) : start = nodes.head? := by
  cases nodes with
  | nil => exact chain
  | cons node rest => exact chain.1

/-- A chain depends only on the links of its own nodes. -/
theorem Chain.congr
    (chain : Chain link start nodes)
    (same : ∀ node ∈ nodes, link' node = link node) :
    Chain link' start nodes := by
  induction nodes generalizing start with
  | nil => exact chain
  | cons node rest inductionHypothesis =>
      obtain ⟨startEquality, next, linked, tail⟩ := chain
      refine ⟨startEquality, next, (same node List.mem_cons_self).trans linked,
        inductionHypothesis tail fun other member =>
          same other (List.mem_cons_of_mem _ member)⟩

/-- With enough steps the walk collects the chain. -/
theorem Chain.collect_eq
    (chain : Chain link start nodes)
    {fuel : Nat}
    (enough : nodes.length ≤ fuel) :
    collect link fuel start = nodes := by
  induction nodes generalizing start fuel with
  | nil =>
      obtain rfl := chain
      cases fuel <;> rfl
  | cons node rest inductionHypothesis =>
      obtain ⟨rfl, next, linked, tail⟩ := chain
      cases fuel with
      | zero => simp at enough
      | succ fuel =>
          simp only [collect, linked]
          rw [inductionHypothesis tail (Nat.le_of_succ_le_succ enough)]

/-- The walk takes no more steps than it may. -/
theorem length_collect_le
    (link : α → Option (Option α)) (fuel : Nat) (start : Option α) :
    (collect link fuel start).length ≤ fuel := by
  induction fuel generalizing start with
  | zero => exact Nat.le_refl _
  | succ fuel inductionHypothesis =>
      cases start with
      | none => exact Nat.zero_le _
      | some node =>
          simp only [collect, List.length_cons]
          refine Nat.succ_le_succ ?_
          split
          · exact inductionHypothesis _
          · exact Nat.zero_le _

end LinkedChain
end MatchingEngine
