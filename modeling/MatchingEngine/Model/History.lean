import Mathlib.Algebra.Order.BigOperators.Group.List
import MatchingEngine.Library.Run
import MatchingEngine.Model.Basic

/-!
# What a run reports about its orders

The history of a run is told by the requests and the answers of its calls: which
order entered the book with which call, and what was executed against it.  It
does not look at the books, so it can be read off the events of the source and of
the reference alike.
-/

namespace MatchingEngine

/-- The submission left an order in the book. -/
def SubmissionResult.rests (result : SubmissionResult) : Bool :=
  decide (result.status = .resting ∨ result.status = .partiallyFilledResting)

/-- The submission with which a call left an order in the book. -/
def Output.rested : Output → Option SubmissionResult
  | submission result => some result |>.filter SubmissionResult.rests
  | modification result => result.resubmissionResult.filter SubmissionResult.rests
  | cancellation _ | sessionEnd _ | replay _ => none

/-- The order that enters the book with a call. -/
def Operation.entered (operation : Operation) (output : Output) : Option OrderID :=
  match operation with
  | submitLimitOrder limitRequest => output.rested.map fun _ => limitRequest.id
  | modifyOrder modificationRequest => output.rested.map fun _ => modificationRequest.id
  | replayAddVisibleOrder id _ _ _ => if output = .replay true then some id else none
  | replayReplaceVisibleOrder _ newId _ _ => if output = .replay true then some newId else none
  | submitMarketOrder _ | cancelOrder _ | onSessionEnd | replayDeleteVisibleOrder _
  | replayReduceVisibleOrder .. => none

/-- The quantity with which a call reports that it took an order out of the book. -/
def Operation.reportedExit (operation : Operation) (output : Output) (id : OrderID) :
    Option Quantity :=
  match operation, output with
  | cancelOrder cancelRequest, .cancellation result =>
      if cancelRequest.id = id ∧ result.status = .canceled then
        some result.quantityCancelled
      else none
  | modifyOrder modificationRequest, .modification result =>
      if modificationRequest.id = id ∧
          (result.status = .resubmitted ∨ result.status = .canceled) then
        some result.originalQuantity
      else none
  | _, _ => none

/-- The quantity with which an order leaves the book, given the one that it has before
and after a call.  An order that is gone without a report has been pruned at the end
of the session, or else fully executed. -/
def Operation.exitQuantity (operation : Operation) (output : Output) (id : OrderID)
    (before after : Option Quantity) : Option Quantity :=
  match operation.reportedExit output id, before, after with
  | some quantity, _, _ => some quantity
  | none, some quantity, none => some (if operation = .onSessionEnd then quantity else 0)
  | none, _, _ => none

variable {σ : Type*}

/-- The times of the last entries, when an order may have entered at time `now`. -/
def enterAt (now : Nat) (times : OrderID → Nat) : Option OrderID → OrderID → Nat
  | some id => Function.update times id now
  | none => times

/-- The time of the last entry of every order: the number of calls before it. -/
def entryTimes (events : List (Event σ Operation Output)) : OrderID → Nat :=
  events.zipIdx.foldl
    (fun times numbered =>
      enterAt numbered.2 times (numbered.1.input.entered numbered.1.output))
    fun _ => 0

@[simp] theorem entryTimes_nil : entryTimes ([] : List (Event σ Operation Output)) = fun _ => 0 :=
  rfl

theorem entryTimes_append_singleton
    (events : List (Event σ Operation Output)) (event : Event σ Operation Output) :
    entryTimes (events ++ [event]) =
      enterAt events.length (entryTimes events) (event.input.entered event.output) := by
  simp [entryTimes, List.zipIdx_append]

/-- Entry times depend on requests and answers only. -/
theorem entryTimes_map
    {τ : Type*} (view : Event σ Operation Output → Event τ Operation Output)
    (input : ∀ event, (view event).input = event.input)
    (output : ∀ event, (view event).output = event.output)
    (events : List (Event σ Operation Output)) :
    entryTimes (events.map view) = entryTimes events := by
  induction events using List.reverseRecOn with
  | nil => rfl
  | append_singleton events event inductionHypothesis =>
      rw [List.map_append, List.map_singleton, entryTimes_append_singleton,
        entryTimes_append_singleton, inductionHypothesis, List.length_map, input, output]

/-- The order that a submission leaves in the book, with the side and the time in
force of the request.  A modification is not a submission. -/
def Operation.submitted (operation : Operation) (output : Output) :
    Option (OrderID × Side × TimeInForce) :=
  match operation with
  | submitLimitOrder limitRequest =>
      output.rested.map fun _ => (limitRequest.id, limitRequest.side, limitRequest.tif)
  | submitMarketOrder _ | cancelOrder _ | modifyOrder _ | onSessionEnd
  | replayAddVisibleOrder .. | replayDeleteVisibleOrder _ | replayReduceVisibleOrder ..
  | replayReplaceVisibleOrder .. => none

/-- Note a submission. -/
def noteSubmission (origins : OrderID → Option (Side × TimeInForce)) :
    Option (OrderID × Side × TimeInForce) → OrderID → Option (Side × TimeInForce)
  | some (id, origin) => Function.update origins id (some origin)
  | none => origins

/-- The side and the time in force of the last submission of an order that left it in
the book. -/
def submittedAs (events : List (Event σ Operation Output)) :
    OrderID → Option (Side × TimeInForce) :=
  events.foldl
    (fun origins event => noteSubmission origins (event.input.submitted event.output))
    fun _ => none

@[simp] theorem submittedAs_nil :
    submittedAs ([] : List (Event σ Operation Output)) = fun _ => none := rfl

theorem submittedAs_append_singleton
    (events : List (Event σ Operation Output)) (event : Event σ Operation Output) :
    submittedAs (events ++ [event]) =
      noteSubmission (submittedAs events) (event.input.submitted event.output) := by
  simp [submittedAs]

/-- Shares that executions take from an order. -/
def executedAgainst (id : OrderID) (executions : List ExecutionResult) : Quantity :=
  ((executions.filter fun execution => execution.makerOrderID = id).map
    ExecutionResult.executedQuantity).sum

@[simp] theorem executedAgainst_nil (id : OrderID) : executedAgainst id [] = 0 := rfl

theorem executedAgainst_append (id : OrderID) (first second : List ExecutionResult) :
    executedAgainst id (first ++ second) =
      executedAgainst id first + executedAgainst id second := by
  simp [executedAgainst]

/-- One execution is at most all of them. -/
theorem le_executedAgainst
    {execution : ExecutionResult} {executions : List ExecutionResult}
    (nonneg : ∀ other ∈ executions, 0 ≤ other.executedQuantity)
    (member : execution ∈ executions) :
    execution.executedQuantity ≤ executedAgainst execution.makerOrderID executions := by
  apply List.single_le_sum
  · intro quantity inQuantities
    obtain ⟨other, filtered, rfl⟩ := List.mem_map.mp inQuantities
    exact nonneg other (List.mem_of_mem_filter filtered)
  · exact List.mem_map_of_mem (List.mem_filter.mpr ⟨member, decide_eq_true rfl⟩)

theorem executedAgainst_of_not_mem
    {id : OrderID} {executions : List ExecutionResult}
    (absent : ∀ execution ∈ executions, execution.makerOrderID ≠ id) :
    executedAgainst id executions = 0 := by
  have none : executions.filter (fun execution => execution.makerOrderID = id) = [] :=
    List.filter_eq_nil_iff.mpr fun execution member => by simpa using absent execution member
  simp [executedAgainst, none]

end MatchingEngine
