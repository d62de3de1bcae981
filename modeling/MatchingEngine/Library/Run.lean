import Mathlib.Tactic.TypeStar
import Mathlib.Data.List.Induction

/-!
# Runs of a step relation

A run starts in an initial state and takes one step after another.  It carries
the list of its events, each with the state before and after the step, so that
statements about the history of a run can be made from the run alone.  What
every step preserves holds throughout, which is proved here once.
-/

namespace MatchingEngine

/-- One step of a run. -/
structure Event (σ ι ο : Type*) where
  before : σ
  input : ι
  output : ο
  after : σ

/-- Runs from an initial state, with their events in order. -/
inductive Run {σ ι ο : Type*}
    (initial : σ → Prop)
    (step : σ → ι → ο → σ → Prop) : List (Event σ ι ο) → σ → Prop
  | start {state : σ} (isInitial : initial state) : Run initial step [] state
  | step {events : List (Event σ ι ο)} {state : σ}
      (run : Run initial step events state)
      {input : ι} {output : ο} {after : σ}
      (taken : step state input output after) :
      Run initial step (events ++ [⟨state, input, output, after⟩]) after

namespace Run

variable {σ ι ο : Type*} {initial : σ → Prop} {step : σ → ι → ο → σ → Prop}
variable {events : List (Event σ ι ο)} {state : σ}

/-- What holds initially and is preserved by every step holds at the end of
every run. -/
theorem invariant
    (property : σ → Prop)
    (initially : ∀ state, initial state → property state)
    (preserved : ∀ state input output after,
      property state → step state input output after → property after)
    (run : Run initial step events state) :
    property state := by
  induction run with
  | start isInitial => exact initially _ isInitial
  | step _ taken inductionHypothesis =>
      exact preserved _ _ _ _ inductionHypothesis taken

/-- A run under a stronger step relation is a run under a weaker one. -/
theorem mono
    {weaker : σ → ι → ο → σ → Prop}
    (weaken : ∀ state input output after,
      step state input output after → weaker state input output after)
    (run : Run initial step events state) :
    Run initial weaker events state := by
  induction run with
  | start isInitial => exact .start isInitial
  | step _ taken inductionHypothesis =>
      exact .step inductionHypothesis (weaken _ _ _ _ taken)

/-- Cutting off the last event of a run leaves a run to the state before it. -/
theorem of_append_singleton
    {event : Event σ ι ο}
    (run : Run initial step (events ++ [event]) state) :
    Run initial step events event.before ∧
      step event.before event.input event.output event.after ∧
      state = event.after := by
  generalize extended : events ++ [event] = allEvents at run
  cases run with
  | start => simp at extended
  | step run taken =>
      obtain ⟨rfl, last⟩ := List.append_inj' extended rfl
      obtain rfl := List.singleton_inj.mp last
      exact ⟨run, taken, rfl⟩

/-- A run up to one of its events is a run, and the event is a step. -/
theorem of_split
    {earlier later : List (Event σ ι ο)} {event : Event σ ι ο}
    (run : Run initial step (earlier ++ event :: later) state) :
    Run initial step earlier event.before ∧
      step event.before event.input event.output event.after := by
  induction later using List.reverseRecOn generalizing state with
  | nil =>
      obtain ⟨runBefore, taken, _⟩ := run.of_append_singleton
      exact ⟨runBefore, taken⟩
  | append_singleton later last inductionHypothesis =>
      rw [← List.cons_append, ← List.append_assoc] at run
      exact inductionHypothesis run.of_append_singleton.1

/-- A run goes on where it has ended. -/
theorem append
    {earlier later : List (Event σ ι ο)} {middle : σ}
    (run : Run initial step earlier middle)
    (continued : Run (· = middle) step later state) :
    Run initial step (earlier ++ later) state := by
  induction continued with
  | start isInitial =>
      rw [List.append_nil, isInitial]
      exact run
  | step _ taken inductionHypothesis =>
      rw [← List.append_assoc]
      exact .step inductionHypothesis taken

/-- The events of a run from one of them on are a run from the state before it. -/
theorem continues
    {earlier later : List (Event σ ι ο)} {event : Event σ ι ο}
    (run : Run initial step (earlier ++ event :: later) state) :
    Run (· = event.before) step (event :: later) state := by
  induction later using List.reverseRecOn generalizing state with
  | nil =>
      obtain ⟨_, taken, rfl⟩ := run.of_append_singleton
      have begins : Run (· = event.before) step [] event.before := .start rfl
      exact begins.step taken
  | append_singleton later last inductionHypothesis =>
      rw [← List.cons_append, ← List.append_assoc] at run
      obtain ⟨runBefore, taken, rfl⟩ := run.of_append_singleton
      exact .step (inductionHypothesis runBefore) taken

/-- A simulation that is good in the states of an invariant takes runs to runs,
event by event. -/
theorem simulate
    {τ : Type*} {initial' : τ → Prop} {step' : τ → ι → ο → τ → Prop}
    {property : σ → Prop} (abstraction : σ → τ)
    (initially : ∀ state, initial state → property state ∧ initial' (abstraction state))
    (simulates : ∀ state input output after,
      property state → step state input output after →
        property after ∧ step' (abstraction state) input output (abstraction after))
    (run : Run initial step events state) :
    Run initial' step'
      (events.map fun event =>
        ⟨abstraction event.before, event.input, event.output, abstraction event.after⟩)
      (abstraction state) := by
  induction run with
  | start isInitial => exact .start (initially _ isInitial).2
  | step run taken inductionHypothesis =>
      rw [List.map_append]
      refine .step inductionHypothesis (simulates _ _ _ _ ?_ taken).2
      exact run.invariant property (fun state isInitial => (initially state isInitial).1)
        fun state input output after holds taken => (simulates _ _ _ _ holds taken).1

end Run
end MatchingEngine
