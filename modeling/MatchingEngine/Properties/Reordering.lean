import MatchingEngine.Properties.Interchange
import MatchingEngine.Reference.Independence

/-!
# The order of independent calls does not matter

Two replicas of a book may receive one set of replay calls and cancellations in
different orders.  As long as calls that name one order, or that may queue orders
in one place, come in one order, both replicas give every call the same answer and
have the same orders at the end.
-/

namespace MatchingEngine
namespace Properties

open OrderBook (BookRun PublicCalls Steps sampleSession sampleRun_public withinCapacity_of_few)
open Reference (Order)
open Refinement
open Traces (Rearranged)

variable {start book left right leftStart rightStart : OrderBook}
variable {earlier events leftEarlier rightEarlier leftEvents rightEvents :
  List (Event OrderBook Operation Output)}

/-- A call with its answer. -/
def answeredCall (event : Event OrderBook Operation Output) : Operation × Output :=
  (event.input, event.output)

/-- The calls that continue a run transduce the view of the book before them. -/
theorem transduce_of_continued
    (run : BookRun PublicCalls earlier start)
    (continued : Run (· = start) (Steps PublicCalls) events book) :
    Traces.transduce Reference.Book.execute start.view (events.map Event.input) =
      (events.map answeredCall, book.view) := by
  have initially : ∀ state, state = start → Sane state ∧ state.view = start.view := by
    rintro state rfl
    exact ⟨Sane.of_run safeCalls_publicCalls run, rfl⟩
  have simulated : Run (· = start.view)
      (fun spec operation output next => spec.execute operation = (output, next))
      (events.map fun event =>
        ⟨event.before.view, event.input, event.output, event.after.view⟩) book.view :=
    continued.simulate OrderBook.view initially fun _ _ _ _ sane steps =>
      sane.of_steps safeCalls_publicCalls steps
  have transduced := Traces.transduce_of_run Reference.Book.execute (fun _ _ _ _ => id) simulated
  rwa [List.map_map, List.map_map] at transduced

theorem positive_of_continued
    (continued : Run (· = start) (Steps PublicCalls) events book) :
    ∀ operation ∈ events.map Event.input, operation.PositiveQuantities := by
  intro operation member
  obtain ⟨event, inEvents, rfl⟩ := List.mem_map.mp member
  obtain ⟨before, after, rfl⟩ := List.append_of_mem inEvents
  exact continued.of_split.2.1

/-- Two replay calls, then a cancellation. -/
def reduceThenCancel : List Operation :=
  [.replayReduceVisibleOrder 1 1, .replayAddVisibleOrder 7 0 4 .buy, .cancelOrder ⟨6⟩]

/-- The same calls with the cancellation first. -/
def cancelThenReduce : List Operation :=
  [.cancelOrder ⟨6⟩, .replayReduceVisibleOrder 1 1, .replayAddVisibleOrder 7 0 4 .buy]

theorem rearranged_cancelThenReduce :
    Rearranged Operation.Independent reduceThenCancel cancelThenReduce := by
  have addCancel : (Operation.replayAddVisibleOrder 7 0 4 .buy).Independent (.cancelOrder ⟨6⟩) :=
    ⟨by simp [Operation.Names], by simp [Operation.MayQueueAt]⟩
  have reduceCancel : (Operation.replayReduceVisibleOrder 1 1).Independent (.cancelOrder ⟨6⟩) :=
    ⟨by simp [Operation.Names], by simp [Operation.MayQueueAt]⟩
  exact .tail (.single (.later _ (.here addCancel []))) (.here reduceCancel _)

/-- The sample book after the calls in their first sequence. -/
def leftReplica : List (Event OrderBook Operation Output) × OrderBook :=
  (sampleSession.2.perform reduceThenCancel).toOption.get (by decide +kernel)

/-- The sample book after the calls in their second sequence. -/
def rightReplica : List (Event OrderBook Operation Output) × OrderBook :=
  (sampleSession.2.perform cancelThenReduce).toOption.get (by decide +kernel)

/-- Public calls on the sample book that return go on from it, if they need few blocks. -/
theorem continued_of_performed
    {operations : List Operation}
    (performed : sampleSession.2.perform operations = .ok (events, book))
    (allowed : ∀ event ∈ events, PublicCalls event.before event.input)
    (few : ∀ event ∈ events, event.after.memoryPool.currentlyAllocated < 4294967296) :
    Run (· = sampleSession.2) (Steps PublicCalls) events book := by
  have begins : Run (· = sampleSession.2) (Steps PublicCalls) [] sampleSession.2 := .start rfl
  exact run_of_performed begins performed fun event member executed =>
    ⟨allowed event member, executed, withinCapacity_of_few (few event member)⟩

end Properties
end MatchingEngine
