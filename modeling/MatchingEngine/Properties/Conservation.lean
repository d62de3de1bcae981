import MatchingEngine.Reference.Accounts
import MatchingEngine.Refinement.Run

/-!
# Shares between the reports and the book

Whatever a submission or a modification leaves in the book is accounted for by
the reports of the calls after it: the quantity that was requested is what was
filled at once, what later calls report as executed against the order, and what
it has left or leaves with.
-/

namespace MatchingEngine
namespace Properties

open OrderBook (BookRun MatchingCalls Steps sampleEvent sampleSession sampleSession_split
  sampleRun)
open Refinement

variable {events : List (Event OrderBook Operation Output)} {book : OrderBook}

/-- The quantity with which an order leaves the book in a call. -/
def leavesWith (id : OrderID) (event : Event OrderBook Operation Output) : Option Quantity :=
  event.input.exitQuantity event.output id (event.before.quantityOf id)
    (event.after.quantityOf id)

/-- The executions that a part of a run reports. -/
def reportedExecutions (events : List (Event OrderBook Operation Output)) :
    List ExecutionResult :=
  events.flatMap fun event => event.output.executions

theorem reportedExecutions_append_singleton
    (events : List (Event OrderBook Operation Output))
    (event : Event OrderBook Operation Output) :
    reportedExecutions (events ++ [event]) =
      reportedExecutions events ++ event.output.executions := by
  simp [reportedExecutions]

/-- The id map leads to the quantity of the reference. -/
theorem quantityOf_eq
    {spec : Reference.Book}
    (refines : Refines book spec)
    (id : OrderID) :
    book.quantityOf id = spec.quantityOf id := by
  cases found : spec.quantityOf id with
  | none =>
      have absent : id ∉ book.idToOrderMap :=
        refines.mem_idMap.not.mpr (Reference.Book.quantityOf_eq_none.mp found)
      rw [OrderBook.quantityOf, Finmap.lookup_eq_none.mpr absent]
      rfl
  | some quantity =>
      obtain ⟨side, order, member, rfl, rfl⟩ := Reference.Book.quantityOf_eq_some found
      obtain ⟨addr, _, block, _, _, _, _, inMap, stored, contents, _⟩ :=
        refines.carries.resting member
      have quantity : block.quantity = order.quantity :=
        congrArg RestingOrder.quantity contents
      rw [OrderBook.quantityOf, inMap, Option.bind_some, OrderBook.orderAt, stored,
        Option.map_some, quantity]

/-! ## Calls -/

section Calls

variable {operation : Operation} {output : Output} {next : OrderBook} {id : OrderID}

/-- The account of an order over one call. -/
theorem account_of_steps
    {before : Quantity}
    (sane : Sane book)
    (steps : Steps MatchingCalls book operation output next)
    (found : book.quantityOf id = some before) :
    match leavesWith id ⟨book, operation, output, next⟩ with
    | some leaving => before = executedAgainst id output.executions + leaving
    | none =>
        ∃ left, next.quantityOf id = some left ∧
          before = executedAgainst id output.executions + left := by
  obtain ⟨⟨refinesAfter, _⟩, answer⟩ := sane.of_steps safeCalls_matchingCalls steps
  have foundInView := (quantityOf_eq sane.refines id).symm.trans found
  have account := sane.refines.valid.account steps.1.1
    (safeCalls_matchingCalls book operation sane.refines steps.1) foundInView
  rw [answer] at account
  rwa [leavesWith, found, quantityOf_eq refinesAfter]

/-- An order enters with what is not filled at once. -/
theorem quantityOf_of_steps
    {result : SubmissionResult}
    (sane : Sane book)
    (steps : Steps MatchingCalls book operation output next)
    (entered : operation.entered output = some id)
    (rested : output.rested = some result) :
    ∃ quantity, next.quantityOf id = some quantity ∧
      result.quantityRequested = result.quantityFilled + quantity := by
  obtain ⟨⟨refinesAfter, _⟩, answer⟩ := sane.of_steps safeCalls_matchingCalls steps
  have safe := safeCalls_matchingCalls book operation sane.refines steps.1
  have executed : (book.view.execute operation).1 = output := congrArg Prod.fst answer
  rw [← executed] at entered rested
  have enters := sane.refines.valid.quantityOf_entered steps.1.1 safe entered rested
  rwa [answer, ← quantityOf_eq refinesAfter] at enters

end Calls

/-! ## Runs -/

/-- As long as an order stays in the book, it has what was requested, less what was
filled and what was executed against it. -/
theorem quantityOf_of_run
    {earlier later : List (Event OrderBook Operation Output)}
    {entry : Event OrderBook Operation Output} {id : OrderID} {result : SubmissionResult}
    (run : BookRun MatchingCalls (earlier ++ entry :: later) book)
    (entered : entry.input.entered entry.output = some id)
    (rested : entry.output.rested = some result)
    (stays : ∀ event ∈ later, leavesWith id event = none) :
    ∃ quantity, book.quantityOf id = some quantity ∧
      result.quantityRequested = result.quantityFilled +
        executedAgainst id (reportedExecutions later) + quantity := by
  induction later using List.reverseRecOn generalizing book with
  | nil =>
      obtain ⟨runBefore, steps, rfl⟩ := run.of_append_singleton
      obtain ⟨quantity, found, balance⟩ := quantityOf_of_steps
        (Sane.of_run safeCalls_matchingCalls runBefore) steps entered rested
      refine ⟨quantity, found, balance.trans ?_⟩
      simp [reportedExecutions]
  | append_singleton later event inductionHypothesis =>
      rw [← List.cons_append, ← List.append_assoc] at run
      obtain ⟨runBefore, steps, rfl⟩ := run.of_append_singleton
      obtain ⟨before, found, balance⟩ := inductionHypothesis runBefore
        fun other member => stays other (List.mem_append_left _ member)
      have account := account_of_steps (Sane.of_run safeCalls_matchingCalls runBefore) steps found
      rw [stays event (List.mem_append_right _ (List.mem_singleton_self _))] at account
      obtain ⟨left, foundAfter, accounted⟩ := account
      refine ⟨left, foundAfter, ?_⟩
      rw [reportedExecutions_append_singleton, executedAgainst_append]
      lia

/-- Every order that enters the book is accounted for, as long as it rests and at the
call with which it leaves. -/
theorem shares_conserved
    {earlier later : List (Event OrderBook Operation Output)}
    {entry : Event OrderBook Operation Output} {id : OrderID} {result : SubmissionResult}
    (run : BookRun MatchingCalls (earlier ++ entry :: later) book)
    (entered : entry.input.entered entry.output = some id)
    (rested : entry.output.rested = some result) :
    ((∀ event ∈ later, leavesWith id event = none) →
      ∃ quantity, book.quantityOf id = some quantity ∧
        result.quantityRequested = result.quantityFilled +
          executedAgainst id (reportedExecutions later) + quantity) ∧
    ∀ stay exit rest leaving, later = stay ++ exit :: rest →
      (∀ event ∈ stay, leavesWith id event = none) → leavesWith id exit = some leaving →
        result.quantityRequested = result.quantityFilled +
          executedAgainst id (reportedExecutions (stay ++ [exit])) + leaving := by
  refine ⟨quantityOf_of_run run entered rested, ?_⟩
  rintro stay exit rest leaving rfl stays leaves
  rw [← List.cons_append, ← List.append_assoc] at run
  obtain ⟨runBefore, steps⟩ := run.of_split
  obtain ⟨before, found, balance⟩ := quantityOf_of_run runBefore entered rested stays
  have account := account_of_steps (Sane.of_run safeCalls_matchingCalls runBefore) steps found
  rw [leaves] at account
  have accounted : before = executedAgainst id exit.output.executions + leaving := account
  rw [reportedExecutions_append_singleton, executedAgainst_append]
  lia

/-- An ask that is filled in part and rests, and one that is used up. -/
theorem shares_conserved_sample :
    (∃ quantity, sampleSession.2.quantityOf 1 = some quantity ∧
      5 = 0 + executedAgainst 1 (reportedExecutions (sampleSession.1.drop 1)) + quantity) ∧
    2 = 0 + executedAgainst 3 (reportedExecutions [sampleEvent 3, sampleEvent 4]) + 0 := by
  have firstRun := sampleSession_split 0 ▸ sampleRun
  have thirdRun := sampleSession_split 2 ▸ sampleRun
  have first : (sampleEvent 0).output.rested = some ⟨5, 0, .resting, []⟩ := by decide +kernel
  have third : (sampleEvent 2).output.rested = some ⟨2, 0, .resting, []⟩ := by decide +kernel
  constructor
  · exact (shares_conserved firstRun (by decide +kernel) first).1 (by decide +kernel)
  · have after : sampleSession.1.drop 3 =
        [sampleEvent 3] ++ sampleEvent 4 :: sampleSession.1.drop 5 :=
      (OrderBook.sampleSession_drop 3).trans
        (congrArg (sampleEvent 3 :: ·) (OrderBook.sampleSession_drop 4))
    exact (shares_conserved thirdRun (by decide +kernel) third).2 [sampleEvent 3]
      (sampleEvent 4) (sampleSession.1.drop 5) 0 after (by decide +kernel) (by decide +kernel)

end Properties
end MatchingEngine
