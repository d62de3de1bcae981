import MatchingEngine.Refinement.Settlement

/-!
# Failed calls

A call that reports a failure returns the very book it was given, links, caches
and free list included, whatever the quantity it was given.
-/

namespace MatchingEngine
namespace Refinement

variable {book next : OrderBook} {spec : Reference.Book}

/-! ## Submissions -/

/-- Makers that were taken from gave some shares, so taking none leaves no maker met. -/
theorem taken_eq_nil
    {start : SubmissionResult} {demand : Quantity} {exit : OrderBook.LoopExit}
    {taken : List (Reference.Order × Quantity)}
    (settled : Orderly.Settled book spec start demand exit taken)
    (nothing : (taken.map Prod.snd).sum ≤ 0) :
    taken = [] := by
  have positive : ∀ entry ∈ taken, 0 < entry.2 := fun entry member =>
    settled.covers.positive _ (List.mem_map_of_mem member)
  cases taken with
  | nil => rfl
  | cons entry rest =>
      have first := positive entry List.mem_cons_self
      have others : 0 ≤ (rest.map Prod.snd).sum := by
        refine List.sum_nonneg fun amount member => ?_
        obtain ⟨other, inRest, rfl⟩ := List.mem_map.mp member
        exact (positive other (List.mem_cons_of_mem _ inRest)).le
      rw [List.map_cons, List.sum_cons] at nothing
      lia

/-- A finished loop that drops its remainder and reports a failure has done nothing. -/
theorem eq_of_dropped
    {quantity : Quantity} {exit : OrderBook.LoopExit}
    {taken : List (Reference.Order × Quantity)}
    (settled : Orderly.Settled book spec { quantityRequested := quantity } quantity exit taken)
    (failed : (Output.submission (OrderBook.droppedResult quantity exit)).Failed) :
    exit.book = book := by
  have result : OrderBook.droppedResult quantity exit =
      Reference.Book.report ⟨taken, []⟩ quantity
        (Reference.Book.droppedStatus (quantity - (taken.map Prod.snd).sum) quantity) := by
    have same := settled.matched.dropped
    rw [OrderBook.drop_eq_ok] at same
    exact congrArg Prod.fst (Except.ok.inj same)
  refine settled.matched.untouched (taken_eq_nil settled ?_)
  simp only [result, Output.Failed, Reference.Book.report, Reference.Book.droppedStatus] at failed
  split at failed
  · simp at failed
  · split at failed
    · simp at failed
    · lia

theorem submitMarketOrder_failed
    (orderly : Orderly book spec)
    {request : MarketOrderRequest} {result : SubmissionResult}
    (range : request.quantity ≤ 2147483647)
    (submitted : book.submitMarketOrder request = .ok (result, next))
    (failed : (Output.submission result).Failed) :
    next = book := by
  rcases OrderBook.submitMarketOrder_ok submitted with ⟨_, rfl⟩ | ⟨exit, ran, rfl, rfl⟩
  · rfl
  obtain ⟨taken, settled⟩ := orderly.settled_of_ran range ran
  exact eq_of_dropped settled failed

/-- A loop that has returned has filled the taker. -/
theorem not_failed_of_filled
    {exit : OrderBook.LoopExit} {result : SubmissionResult}
    (filled : exit.returned = true → exit.subResult.status = .filled)
    (outcome : exit.returned = true ∧ result = exit.subResult ∨
      exit.remainingShares = 0 ∧ result = { exit.subResult with status := .filled }) :
    ¬ (Output.submission result).Failed := by
  rcases outcome with ⟨returned, rfl⟩ | ⟨_, rfl⟩
  · simp [Output.Failed, filled returned]
  · simp [Output.Failed]

/-- A loop that returns from inside reports the taker as filled. -/
theorem filled_of_returned
    (orderly : Orderly book spec)
    {side : Side} {takes : Price → Bool} {quantity : Quantity} {exit : OrderBook.LoopExit}
    (range : quantity ≤ 2147483647)
    (ran : book.runMatching side takes quantity = .ok exit) :
    exit.returned = true → exit.subResult.status = .filled := by
  obtain ⟨taken, settled⟩ := orderly.settled_of_ran range ran
  exact fun returned => (settled.matched.returned returned).1

/-- A submission whose remainder may rest never fails. -/
theorem submitLimitOrderResting_succeeds
    (orderly : Orderly book spec)
    {request : LimitOrderRequest} {result : SubmissionResult}
    (range : request.quantity ≤ 2147483647)
    (submitted : OrderBook.submitLimitOrderResting request.side book request =
      .ok (result, next)) :
    ¬ (Output.submission result).Failed := by
  obtain ⟨exit, ran, ⟨_, outcome⟩ | ⟨_, _, rfl⟩⟩ :=
    OrderBook.submitLimitOrderResting_ok submitted
  · exact not_failed_of_filled (filled_of_returned orderly range ran) outcome
  · simp only [Output.Failed]
    split <;> simp

theorem submitLimitOrderFok_failed
    (orderly : Orderly book spec)
    {request : LimitOrderRequest} {result : SubmissionResult}
    (range : request.quantity ≤ 2147483647)
    (submitted : OrderBook.submitLimitOrderFok request.side book request =
      .ok (result, next))
    (failed : (Output.submission result).Failed) :
    next = book := by
  rcases OrderBook.submitLimitOrderFok_ok submitted with ⟨_, rfl⟩ | ⟨exit, ran, outcome, _⟩
  · rfl
  · exact absurd failed (not_failed_of_filled (filled_of_returned orderly range ran) outcome)

theorem submitLimitOrder_failed
    (orderly : Orderly book spec)
    {request : LimitOrderRequest} {result : SubmissionResult}
    (range : request.quantity ≤ 2147483647)
    (submitted : book.submitLimitOrder request = .ok (result, next))
    (failed : (Output.submission result).Failed) :
    next = book := by
  rcases OrderBook.submitLimitOrder_ok submitted with
    ⟨_, _, rfl⟩ | ⟨_, ⟨_, resting⟩ | immediate | allOrNothing⟩
  · rfl
  · exact absurd failed (submitLimitOrderResting_succeeds orderly range resting)
  · obtain ⟨exit, ran, rfl, rfl⟩ := OrderBook.submitLimitOrderIoc_ok immediate
    obtain ⟨taken, settled⟩ := orderly.settled_of_ran range ran
    exact eq_of_dropped settled failed
  · exact submitLimitOrderFok_failed orderly range allOrNothing failed

/-! ## Cancelling and modifying -/

theorem cancelOrder_failed
    (carries : Carries book spec)
    {request : CancelOrderRequest} {result : CancelResult}
    (cancelled : book.cancelOrder request = .ok (result, next))
    (failed : result.status = .notFound) :
    next = book := by
  cases located : spec.locate request.id with
  | none =>
      simp only [OrderBook.cancelOrder, carries.lookup_eq_none located] at cancelled
      exact (Prod.mk.inj (Except.ok.inj cancelled)).2.symm
  | some found =>
      obtain ⟨side, order⟩ := found
      obtain ⟨member, equal⟩ := Reference.Book.locate_eq_some located
      obtain ⟨book', done, _⟩ := carries.cancelOrder_of_mem member
      rw [equal] at done
      obtain ⟨rfl, _⟩ := Prod.mk.inj (Except.ok.inj (done.symm.trans cancelled))
      cases failed

/-- A modification that fails has passed neither guard. -/
theorem modifyOrder_failed
    {request : ModifyOrderRequest} {result : ModificationResult}
    (modified : book.modifyOrder request = .ok (result, next))
    (failed : (Output.modification result).Failed) :
    next = book := by
  rcases OrderBook.modifyOrder_ok modified with
    unchanged | ⟨_, _, _, _, _, _, _, ⟨_, _, canceled⟩ | ⟨_, resubmitted, _⟩⟩
  · exact unchanged
  · simp [Output.Failed, canceled] at failed
  · simp [Output.Failed, resubmitted] at failed

/-! ## Replaying -/

theorem replayDeleteVisibleOrder_failed
    (carries : Carries book spec)
    {id : OrderID}
    (deleted : book.replayDeleteVisibleOrder id = .ok (false, next)) :
    next = book := by
  obtain ⟨result, cancelled, notCanceled⟩ := OrderBook.replayDeleteVisibleOrder_ok deleted
  refine cancelOrder_failed carries cancelled ?_
  cases status : result.status with
  | canceled => simp [status] at notCanceled
  | notFound => rfl

theorem replayReduceVisibleOrder_failed
    (carries : Carries book spec)
    {id : OrderID} {quantityReduced : Quantity}
    (reduced : book.replayReduceVisibleOrder id quantityReduced = .ok (false, next)) :
    next = book := by
  rcases OrderBook.replayReduceVisibleOrder_ok reduced with ⟨_, rfl⟩ | deleted | ⟨succeeded, _⟩
  · rfl
  · exact replayDeleteVisibleOrder_failed carries deleted
  · cases succeeded

theorem replayAddVisibleOrder_failed
    {id : OrderID} {price : Price} {quantity : Quantity} {side : Side}
    (added : book.replayAddVisibleOrder id price quantity side = .ok (false, next)) :
    next = book := by
  rcases OrderBook.replayAddVisibleOrder_ok added with ⟨_, rfl⟩ | ⟨succeeded, _⟩
  · rfl
  · cases succeeded

theorem replayReplaceVisibleOrder_failed
    (carries : Carries book spec)
    {originalId newId : OrderID} {newPrice : Price} {newQuantity : Quantity}
    (replaced : book.replayReplaceVisibleOrder originalId newId newPrice newQuantity =
      .ok (false, next)) :
    next = book := by
  by_cases refused : newQuantity = 0 ∨ newPrice < book.minPrice ∨ newPrice > book.maxPrice ∨
      newId ∈ book.idToOrderMap
  · rw [OrderBook.replayReplaceVisibleOrder, if_pos refused] at replaced
    exact (Prod.mk.inj (Except.ok.inj replaced)).2.symm
  cases located : spec.locate originalId with
  | none =>
      rw [OrderBook.replayReplaceVisibleOrder, if_neg refused,
        carries.lookup_eq_none located] at replaced
      exact (Prod.mk.inj (Except.ok.inj replaced)).2.symm
  | some found =>
      obtain ⟨side, order⟩ := found
      obtain ⟨member, rfl⟩ := Reference.Book.locate_eq_some located
      rw [carries.mem_idMap, carries.minPrice, carries.maxPrice] at refused
      simp only [not_or, not_lt] at refused
      obtain ⟨nonzero, lower, upper, fresh⟩ := refused
      obtain ⟨book', done, _⟩ := carries.replayReplaceVisibleOrder_of_accepted member
        nonzero ⟨lower, upper⟩ fresh
      cases done.symm.trans replaced

/-! ## Any call -/

/-- A call that fails leaves the book exactly as it was. -/
theorem execute_failed
    (orderly : Orderly book spec)
    {operation : Operation} {output : Output}
    (representable : operation.RepresentableQuantities)
    (executed : book.execute operation = .ok (output, next))
    (failed : output.Failed) :
    next = book := by
  cases operation with
  | submitLimitOrder request =>
      obtain ⟨⟨result, after⟩, submitted, executed⟩ := bind_eq_ok executed
      obtain ⟨rfl, rfl⟩ := Prod.mk.inj (Except.ok.inj executed)
      exact submitLimitOrder_failed orderly representable.2 submitted failed
  | submitMarketOrder request =>
      obtain ⟨⟨result, after⟩, submitted, executed⟩ := bind_eq_ok executed
      obtain ⟨rfl, rfl⟩ := Prod.mk.inj (Except.ok.inj executed)
      exact submitMarketOrder_failed orderly representable.2 submitted failed
  | cancelOrder request =>
      obtain ⟨⟨result, after⟩, cancelled, executed⟩ := bind_eq_ok executed
      obtain ⟨rfl, rfl⟩ := Prod.mk.inj (Except.ok.inj executed)
      exact cancelOrder_failed orderly.carries cancelled failed
  | modifyOrder request =>
      obtain ⟨⟨result, after⟩, modified, executed⟩ := bind_eq_ok executed
      obtain ⟨rfl, rfl⟩ := Prod.mk.inj (Except.ok.inj executed)
      exact modifyOrder_failed modified failed
  | onSessionEnd =>
      obtain ⟨⟨result, after⟩, _, executed⟩ := bind_eq_ok executed
      obtain ⟨rfl, _⟩ := Prod.mk.inj (Except.ok.inj executed)
      exact failed.elim
  | replayAddVisibleOrder id price quantity side =>
      obtain ⟨⟨succeeded, after⟩, added, executed⟩ := bind_eq_ok executed
      obtain ⟨rfl, rfl⟩ := Prod.mk.inj (Except.ok.inj executed)
      obtain rfl : succeeded = false := failed
      exact replayAddVisibleOrder_failed added
  | replayDeleteVisibleOrder id =>
      obtain ⟨⟨succeeded, after⟩, deleted, executed⟩ := bind_eq_ok executed
      obtain ⟨rfl, rfl⟩ := Prod.mk.inj (Except.ok.inj executed)
      obtain rfl : succeeded = false := failed
      exact replayDeleteVisibleOrder_failed orderly.carries deleted
  | replayReduceVisibleOrder id quantityReduced =>
      obtain ⟨⟨succeeded, after⟩, reduced, executed⟩ := bind_eq_ok executed
      obtain ⟨rfl, rfl⟩ := Prod.mk.inj (Except.ok.inj executed)
      obtain rfl : succeeded = false := failed
      exact replayReduceVisibleOrder_failed orderly.carries reduced
  | replayReplaceVisibleOrder originalId newId newPrice newQuantity =>
      obtain ⟨⟨succeeded, after⟩, replaced, executed⟩ := bind_eq_ok executed
      obtain ⟨rfl, rfl⟩ := Prod.mk.inj (Except.ok.inj executed)
      obtain rfl : succeeded = false := failed
      exact replayReplaceVisibleOrder_failed orderly.carries replaced

end Refinement
end MatchingEngine
