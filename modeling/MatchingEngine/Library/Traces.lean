import Mathlib.Logic.Relation
import MatchingEngine.Library.Run

/-!
# Rearranging independent inputs

A machine takes inputs one after another, each with an answer.  Two inputs are
independent when taking them in either order gives the same answers and the same
state.  Then a list of inputs may be rearranged by trading independent neighbours:
the state at the end stays the same, and every input keeps its answer.
-/

namespace MatchingEngine
namespace Traces

variable {α σ ι ο : Type*}

/-- One pair of independent neighbours has traded places. -/
inductive Trades (independent : α → α → Prop) : List α → List α → Prop
  | here {first second : α} (apart : independent first second) (rest : List α) :
      Trades independent (first :: second :: rest) (second :: first :: rest)
  | later (head : α) {before after : List α} (trades : Trades independent before after) :
      Trades independent (head :: before) (head :: after)

/-- Independent neighbours have traded places, any number of times. -/
abbrev Rearranged (independent : α → α → Prop) : List α → List α → Prop :=
  Relation.ReflTransGen (Trades independent)

variable {independent : α → α → Prop} {before after : List α}

theorem Trades.perm (trades : Trades independent before after) : before.Perm after := by
  induction trades with
  | here _ rest => exact .swap _ _ rest
  | later head _ inductionHypothesis => exact inductionHypothesis.cons head

theorem Rearranged.perm (rearranged : Rearranged independent before after) :
    before.Perm after := by
  induction rearranged with
  | refl => exact .refl _
  | tail _ trades inductionHypothesis => exact inductionHypothesis.trans trades.perm

/-! ## Machines -/

variable (step : σ → ι → ο × σ)

/-- The inputs with their answers, and the state after them. -/
def transduce (state : σ) : List ι → List (ι × ο) × σ
  | [] => ([], state)
  | input :: inputs =>
      let next := (step state input).2
      ((input, (step state input).1) :: (transduce next inputs).1, (transduce next inputs).2)

@[simp] theorem transduce_nil (state : σ) : transduce step state [] = ([], state) := rfl

@[simp] theorem transduce_cons (state : σ) (input : ι) (inputs : List ι) :
    transduce step state (input :: inputs) =
      ((input, (step state input).1) :: (transduce step (step state input).2 inputs).1,
        (transduce step (step state input).2 inputs).2) := rfl

theorem transduce_append (state : σ) (earlier later : List ι) :
    transduce step state (earlier ++ later) =
      ((transduce step state earlier).1 ++
          (transduce step (transduce step state earlier).2 later).1,
        (transduce step (transduce step state earlier).2 later).2) := by
  induction earlier generalizing state with
  | nil => rfl
  | cons input earlier inductionHypothesis =>
      rw [List.cons_append, transduce_cons, inductionHypothesis]
      rfl

/-- The events of a run of the machine are what it transduces. -/
theorem transduce_of_run
    {taken : σ → ι → ο → σ → Prop} {start last : σ} {events : List (Event σ ι ο)}
    (stepped : ∀ state input output next,
      taken state input output next → step state input = (output, next))
    (run : Run (· = start) taken events last) :
    transduce step start (events.map Event.input) =
      (events.map fun event => (event.input, event.output), last) := by
  induction run with
  | start isStart =>
      rw [isStart]
      rfl
  | step _ takenStep inductionHypothesis =>
      rw [List.map_append, transduce_append, inductionHypothesis]
      simp [stepped _ _ _ _ takenStep]

/-- In the states of an invariant, independent inputs that are allowed may be taken in
either order. -/
structure Commutes (good : σ → Prop) (allowed : ι → Prop) (independent : ι → ι → Prop) :
    Prop where
  preserved : ∀ {state input}, good state → allowed input → good (step state input).2
  firstAnswer : ∀ {state first second}, good state → allowed first → allowed second →
    independent first second → (step (step state second).2 first).1 = (step state first).1
  secondAnswer : ∀ {state first second}, good state → allowed first → allowed second →
    independent first second → (step (step state first).2 second).1 = (step state second).1
  sameState : ∀ {state first second}, good state → allowed first → allowed second →
    independent first second →
    (step (step state first).2 second).2 = (step (step state second).2 first).2

variable {step} {good : σ → Prop} {allowed : ι → Prop} {apart : ι → ι → Prop}
variable {state : σ} {inputs inputs' : List ι}

theorem Commutes.trades
    (commutes : Commutes step good allowed apart)
    (trades : Trades apart inputs inputs')
    (isGood : good state)
    (allAllowed : ∀ input ∈ inputs, allowed input) :
    (transduce step state inputs').2 = (transduce step state inputs).2 ∧
      Trades (fun first second => apart first.1 second.1)
        (transduce step state inputs).1 (transduce step state inputs').1 := by
  induction trades generalizing state with
  | @here first second independent rest =>
      obtain ⟨firstAllowed, others⟩ := List.forall_mem_cons.mp allAllowed
      obtain ⟨secondAllowed, _⟩ := List.forall_mem_cons.mp others
      have same := commutes.sameState isGood firstAllowed secondAllowed independent
      simp only [transduce_cons]
      rw [commutes.firstAnswer isGood firstAllowed secondAllowed independent,
        commutes.secondAnswer isGood firstAllowed secondAllowed independent, same]
      refine ⟨rfl, ?_⟩
      apply Trades.here
      exact independent
  | later head _ inductionHypothesis =>
      obtain ⟨headAllowed, others⟩ := List.forall_mem_cons.mp allAllowed
      obtain ⟨sameState, answers⟩ :=
        inductionHypothesis (commutes.preserved isGood headAllowed) others
      exact ⟨sameState, .later _ answers⟩

/-- Rearranging independent inputs changes neither the last state nor any answer. -/
theorem Commutes.rearranged
    (commutes : Commutes step good allowed apart)
    (rearranged : Rearranged apart inputs inputs')
    (isGood : good state)
    (allAllowed : ∀ input ∈ inputs, allowed input) :
    (transduce step state inputs').2 = (transduce step state inputs).2 ∧
      Rearranged (fun first second => apart first.1 second.1)
        (transduce step state inputs).1 (transduce step state inputs').1 := by
  induction rearranged with
  | refl => exact ⟨rfl, .refl⟩
  | @tail between last earlier trades inductionHypothesis =>
      obtain ⟨sameState, answers⟩ := inductionHypothesis
      have betweenAllowed : ∀ input ∈ between, allowed input := fun input member =>
        allAllowed input ((Rearranged.perm earlier).mem_iff.mpr member)
      obtain ⟨sameLast, lastAnswers⟩ := commutes.trades trades isGood betweenAllowed
      exact ⟨sameLast.trans sameState, answers.tail lastAnswers⟩

end Traces
end MatchingEngine
