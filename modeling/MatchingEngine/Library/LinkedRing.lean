import Mathlib.Data.List.Basic
import Mathlib.Data.List.Nodup
import Mathlib.Data.List.Induction
import MatchingEngine.Library.LinkedChain

/-!
# Doubly linked lists as rings through the null pointer

A null-terminated doubly linked list with a head and a tail pointer is read
here as a ring through the null pointer: the successor of `none` is the head,
the predecessor of `none` is the tail, and every two neighbours of
`none, first, …, last, none` point at each other.  Unlinking a node and linking
one in are then each a change of one successor and one predecessor, whether or
not the node is at an end of the list.
-/

namespace MatchingEngine
namespace LinkedRing

variable {α : Type*}

/-- Neighbouring pointers of the list point at each other. -/
def Links (next previous : Option α → Option α) : List (Option α) → Prop
  | left :: right :: rest =>
      next left = right ∧ previous right = left ∧
        Links next previous (right :: rest)
  | _ => True

/-- The null-terminated list with the given nodes. -/
def Ring (next previous : Option α → Option α) (nodes : List α) : Prop :=
  Links next previous (none :: (nodes.map some ++ [none]))

variable {next previous next' previous' : Option α → Option α}

@[simp] theorem links_singleton (pointer : Option α) :
    Links next previous [pointer] := trivial

@[simp] theorem links_cons_cons
    {left right : Option α} {rest : List (Option α)} :
    Links next previous (left :: right :: rest) ↔
      next left = right ∧ previous right = left ∧
        Links next previous (right :: rest) := Iff.rfl

/-- Links of a concatenation are the links of both halves through the shared
pointer. -/
theorem links_append
    (left : List (Option α)) (middle : Option α) (right : List (Option α)) :
    Links next previous (left ++ middle :: right) ↔
      Links next previous (left ++ [middle]) ∧
        Links next previous (middle :: right) := by
  induction left with
  | nil => simp
  | cons first rest inductionHypothesis =>
      cases rest with
      | nil => simp [and_assoc]
      | cons second rest =>
          simp only [List.cons_append, links_cons_cons] at inductionHypothesis ⊢
          rw [inductionHypothesis]
          simp only [and_assoc]

/-- Links read backwards are links in the other direction. -/
theorem links_reverse
    {pointers : List (Option α)}
    (links : Links next previous pointers) :
    Links previous next pointers.reverse := by
  induction pointers with
  | nil => trivial
  | cons first rest inductionHypothesis =>
      cases rest with
      | nil => trivial
      | cons second rest =>
          obtain ⟨forward, backward, links⟩ := links
          have reversed := inductionHypothesis links
          rw [List.reverse_cons] at reversed
          rw [List.reverse_cons, List.reverse_cons, List.append_assoc,
            List.singleton_append, links_append]
          exact ⟨reversed, backward, forward, trivial⟩

/-- Links only read the successor of every pointer but the last and the
predecessor of every pointer but the first. -/
theorem Links.transport
    {front : List (Option α)} {last : Option α}
    (links : Links next previous (front ++ [last]))
    (nextSame : ∀ pointer ∈ front, next' pointer = next pointer)
    (previousSame : ∀ pointer ∈ (front ++ [last]).tail,
      previous' pointer = previous pointer) :
    Links next' previous' (front ++ [last]) := by
  induction front with
  | nil => trivial
  | cons first rest inductionHypothesis =>
      cases rest with
      | nil =>
          obtain ⟨forward, backward, _⟩ := links
          exact ⟨(nextSame first (by simp)).trans forward,
            (previousSame last (by simp)).trans backward, trivial⟩
      | cons second rest =>
          obtain ⟨forward, backward, links⟩ := links
          refine ⟨(nextSame first (by simp)).trans forward,
            (previousSame second (by simp)).trans backward,
            inductionHypothesis links (fun pointer member => ?_)
              (fun pointer member => ?_)⟩
          · exact nextSame pointer (List.mem_cons_of_mem _ member)
          · exact previousSame pointer (by
              simp only [List.cons_append, List.tail_cons] at member ⊢
              exact List.mem_cons_of_mem _ member)

namespace Ring

/-- The empty list is the null pointer pointing at itself. -/
theorem nil_iff :
    Ring next previous [] ↔ next none = none ∧ previous none = none := by
  simp [Ring]

/-- A ring depends only on the pointers of its own nodes and of the null
pointer. -/
theorem congr
    {nodes : List α}
    (ring : Ring next previous nodes)
    (same : ∀ pointer, (pointer = none ∨ ∃ node ∈ nodes, pointer = some node) →
      next' pointer = next pointer ∧ previous' pointer = previous pointer) :
    Ring next' previous' nodes := by
  unfold Ring at ring ⊢
  rw [← List.cons_append] at ring ⊢
  refine Links.transport ring (fun pointer member => (same pointer ?_).1)
    (fun pointer member => (same pointer ?_).2)
  · simpa [eq_comm] using member
  · simpa [eq_comm, or_comm] using member

/-- Both neighbours of a node, read off its place in the list. -/
theorem neighbours
    {front rest : List α} {node : α}
    (ring : Ring next previous (front ++ node :: rest)) :
    next (some node) = rest.head? ∧ previous (some node) = front.getLast? := by
  unfold Ring at ring
  rw [List.map_append, List.map_cons, List.append_assoc, List.cons_append,
    ← List.cons_append, links_append] at ring
  obtain ⟨before, after⟩ := ring
  constructor
  · cases rest with
    | nil => exact after.1
    | cons second rest => exact after.1
  · cases front using List.reverseRecOn with
    | nil => exact before.2.1
    | append_singleton earlier last =>
        rw [List.map_append, List.map_singleton, ← List.cons_append,
          List.append_assoc, List.singleton_append, links_append] at before
        simpa using before.2.2.1

/-- The head pointer. -/
theorem next_none
    {nodes : List α}
    (ring : Ring next previous nodes) :
    next none = nodes.head? := by
  cases nodes with
  | nil => exact (nil_iff.mp ring).1
  | cons first rest => exact ring.1

/-- The tail pointer. -/
theorem previous_none
    {nodes : List α}
    (ring : Ring next previous nodes) :
    previous none = nodes.getLast? := by
  cases nodes using List.reverseRecOn with
  | nil => exact (nil_iff.mp ring).2
  | append_singleton front last =>
      unfold Ring at ring
      rw [List.map_append, List.map_singleton, List.append_assoc,
        List.singleton_append, ← List.cons_append, links_append] at ring
      simpa using ring.2.2.1

/-- Unlinking a node: its predecessor takes over its successor and the other
way round, and every other pointer is kept. -/
theorem unlink
    {front rest : List α} {node : α}
    (ring : Ring next previous (front ++ node :: rest))
    (nodup : (front ++ node :: rest).Nodup)
    (predecessor : next' front.getLast? = rest.head?)
    (successor : previous' rest.head? = front.getLast?)
    (nextFrame : ∀ pointer, pointer ≠ some node → pointer ≠ front.getLast? →
      next' pointer = next pointer)
    (previousFrame : ∀ pointer, pointer ≠ some node → pointer ≠ rest.head? →
      previous' pointer = previous pointer) :
    Ring next' previous' (front ++ rest) := by
  obtain ⟨frontNodup, restNodup, apart⟩ := List.nodup_append.mp nodup
  obtain ⟨nodeFresh, restNodup⟩ := List.nodup_cons.mp restNodup
  unfold Ring at ring ⊢
  rw [List.map_append, List.map_cons, List.append_assoc, List.cons_append,
    ← List.cons_append, links_append] at ring
  obtain ⟨before, after⟩ := ring
  have frontLinks : Links next' previous' (none :: front.map some) := by
    cases front using List.reverseRecOn with
    | nil => trivial
    | append_singleton earlier last =>
        rw [List.map_append, List.map_singleton, ← List.cons_append,
          List.append_assoc, List.singleton_append, links_append] at before
        have lastFresh : last ∉ earlier := by
          intro member
          exact (List.nodup_append.mp frontNodup).2.2 last member last (by simp) rfl
        rw [List.map_append, List.map_singleton, ← List.cons_append]
        refine before.1.transport (fun pointer member => ?_) (fun pointer member => ?_)
        · apply nextFrame
          · rintro rfl
            have inEarlier : node ∈ earlier := by simpa using member
            exact apart node (by simp [inEarlier]) node (by simp) rfl
          · rintro rfl
            exact lastFresh (by simpa using member)
        · have inFront : ∃ other ∈ earlier ++ [last], pointer = some other := by
            simpa [eq_comm] using member
          obtain ⟨other, otherMember, rfl⟩ := inFront
          apply previousFrame
          · simp only [ne_eq, Option.some.injEq]
            exact apart other otherMember node (by simp)
          · intro equal
            exact apart other otherMember other
              (List.mem_cons_of_mem _ (List.mem_of_mem_head? equal.symm)) rfl
  have restLinks : Links next' previous'
      (front.getLast? :: (rest.map some ++ [none])) := by
    cases rest with
    | nil => exact ⟨predecessor, successor, trivial⟩
    | cons first rest =>
        obtain ⟨_, _, restLinks⟩ := after
        refine ⟨predecessor, successor, ?_⟩
        obtain ⟨firstFresh, _⟩ := List.nodup_cons.mp restNodup
        have restLinks : Links next previous ((some first :: rest.map some) ++ [none]) :=
          restLinks
        refine restLinks.transport
          (fun pointer member => ?_) (fun pointer member => ?_)
        · have inRest : ∃ other ∈ first :: rest, pointer = some other := by
            simpa [eq_comm] using member
          obtain ⟨other, otherMember, rfl⟩ := inRest
          apply nextFrame
          · rintro ⟨⟩
            exact nodeFresh otherMember
          · intro equal
            exact apart other (List.mem_of_mem_getLast? equal.symm) other
              (List.mem_cons_of_mem _ otherMember) rfl
        · apply previousFrame
          · rintro rfl
            have inRest : node ∈ rest := by simpa using member
            exact nodeFresh (List.mem_cons_of_mem _ inRest)
          · rintro rfl
            exact firstFresh (by simpa using member)
  cases front using List.reverseRecOn with
  | nil => exact restLinks
  | append_singleton earlier last =>
      rw [List.map_append, List.map_singleton, ← List.cons_append] at frontLinks
      rw [List.getLast?_concat] at restLinks
      rw [List.append_assoc, List.map_append, List.singleton_append, List.map_cons,
        List.append_assoc, List.cons_append, ← List.cons_append, links_append]
      exact ⟨frontLinks, restLinks⟩

/-- Linking a node in at the end of the list. -/
theorem pushBack
    {nodes : List α} {node : α}
    (ring : Ring next previous nodes)
    (fresh : node ∉ nodes)
    (nodup : nodes.Nodup)
    (lastNext : next' nodes.getLast? = some node)
    (newPrevious : previous' (some node) = nodes.getLast?)
    (newNext : next' (some node) = none)
    (tail : previous' none = some node)
    (nextFrame : ∀ pointer, pointer ≠ some node → pointer ≠ nodes.getLast? →
      next' pointer = next pointer)
    (previousFrame : ∀ pointer, pointer ≠ some node → pointer ≠ none →
      previous' pointer = previous pointer) :
    Ring next' previous' (nodes ++ [node]) := by
  unfold Ring at ring ⊢
  cases nodes using List.reverseRecOn with
  | nil =>
      exact ⟨lastNext, newPrevious, newNext, tail, trivial⟩
  | append_singleton earlier last =>
      have lastFresh : last ∉ earlier := by
        intro member
        exact (List.nodup_append.mp nodup).2.2 last member last (by simp) rfl
      rw [List.map_append, List.map_singleton, List.append_assoc,
        List.singleton_append, ← List.cons_append, links_append] at ring
      rw [List.map_append, List.map_append, List.map_singleton, List.map_singleton,
        List.append_assoc, List.append_assoc, List.singleton_append,
        List.singleton_append, ← List.cons_append, links_append]
      rw [List.getLast?_concat] at lastNext newPrevious nextFrame
      refine ⟨ring.1.transport (fun pointer member => ?_) (fun pointer member => ?_),
        lastNext, newPrevious, newNext, tail, trivial⟩
      · apply nextFrame
        · rintro rfl
          have inEarlier : node ∈ earlier := by simpa using member
          exact fresh (by simp [inEarlier])
        · rintro rfl
          exact lastFresh (by simpa using member)
      · have inNodes : ∃ other ∈ earlier ++ [last], pointer = some other := by
          simpa [eq_comm] using member
        obtain ⟨other, otherMember, rfl⟩ := inNodes
        apply previousFrame
        · rintro ⟨⟩
          exact fresh otherMember
        · simp

/-- Read backwards, a ring is a ring with the two directions exchanged. -/
theorem reverse
    {nodes : List α}
    (ring : Ring next previous nodes) :
    Ring previous next nodes.reverse := by
  have links := links_reverse ring
  unfold Ring
  simpa using links

open LinkedChain in
/-- Followed from the null pointer, a ring is a null-terminated chain. -/
theorem chain
    {nodes : List α}
    (ring : Ring next previous nodes)
    (link : α → Option (Option α))
    (linked : ∀ node ∈ nodes, link node = some (next (some node))) :
    Chain link (next none) nodes := by
  have follow : ∀ (pointer : Option α) (nodes : List α),
      Links next previous (pointer :: (nodes.map some ++ [none])) →
      (∀ node ∈ nodes, link node = some (next (some node))) →
      Chain link (next pointer) nodes := by
    intro pointer nodes
    induction nodes generalizing pointer with
    | nil =>
        rintro ⟨forward, _⟩ _
        exact forward
    | cons node rest inductionHypothesis =>
        rintro ⟨forward, _, links⟩ linked
        exact ⟨forward, _, linked node List.mem_cons_self,
          inductionHypothesis (some node) links fun other member =>
            linked other (List.mem_cons_of_mem _ member)⟩
  exact follow none nodes ring linked

end Ring

end LinkedRing
end MatchingEngine
