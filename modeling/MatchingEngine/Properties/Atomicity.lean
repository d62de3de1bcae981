import MatchingEngine.Refinement.Failures
import MatchingEngine.Refinement.Storage

/-!
# Failed calls leave the book as it is

A call that reports a failure returns the very book it was given, links, caches
and free list included, whatever the quantity it was given and however many orders
the levels hold.  The two operations that delete an order before they insert
another do not fail in between: what they leave is told order by order.
-/

namespace MatchingEngine
namespace Properties

open OrderBook (UnboundedRun StorableCalls run_of_session sampleCalls sampleConfig sampleSession)
open Refinement

variable {events : List (Event OrderBook Operation Output)} {book : OrderBook}

/-- In every reached book whose orders have some shares, failed calls are atomic, and the
operations that delete an order before they insert another go through.  A modification is
resubmitted without being rejected: it takes from the other orders what its executions
say, and what they leave of it rests.  A replacement rests in the place of the order that
it has deleted, and every other order stays. -/
theorem failures_atomic
    (run : UnboundedRun StorableCalls events book)
    (positive : ∀ side, ∀ order ∈ book.view.orders side, 1 ≤ order.quantity) :
    (∀ operation output next, operation.RepresentableQuantities →
      book.execute operation = .ok (output, next) → output.Failed → next = book) ∧
    (∀ request : ModifyOrderRequest, InInt32 request.newQuantity →
      request.id ∈ book.idToOrderMap → 0 < request.newQuantity →
      book.minPrice ≤ request.newPrice → request.newPrice ≤ book.maxPrice →
        ∃ side order resubmission next,
          book.view.locate request.id = some (side, order) ∧
          book.modifyOrder request =
            .ok (⟨order.quantity, .resubmitted, some resubmission⟩, next) ∧
          resubmission.status ≠ .rejected ∧
          (book.view.remove request.id).Settles side
            ⟨request.id, request.newPrice, request.newQuantity, order.lifetime⟩ resubmission
            next.view) ∧
    ∀ originalId newId newPrice newQuantity,
      originalId ∈ book.idToOrderMap → newId ∉ book.idToOrderMap → newQuantity ≠ 0 →
      book.minPrice ≤ newPrice → newPrice ≤ book.maxPrice →
        ∃ side order next,
          book.view.locate originalId = some (side, order) ∧
          book.replayReplaceVisibleOrder originalId newId newPrice newQuantity =
            .ok (true, next) ∧
          next.view =
            (book.view.remove originalId).rest side ⟨newId, newPrice, newQuantity, .gtc⟩ := by
  obtain ⟨spec, stores⟩ := stores_of_run run
  obtain rfl : book.view = spec := stores.carries.view_eq
  have orderly := orderly_of_stores stores positive
  have carries := orderly.carries
  rw [carries.minPrice, carries.maxPrice]
  refine ⟨fun operation output next => execute_failed orderly,
    fun request range present wanted lower upper => ?_,
    fun originalId newId newPrice newQuantity present fresh nonzero lower upper => ?_⟩
  · obtain ⟨id, newQuantity, newPrice⟩ := request
    obtain ⟨side, order, member, rfl⟩ :=
      Reference.Book.contains_iff.mp (carries.mem_idMap.mp present)
    obtain ⟨resubmission, next, after, modified, orderlyAfter, settles⟩ :=
      orderly.modifyOrder_settles member wanted range.2 ⟨lower, upper⟩
    obtain rfl : next.view = after := orderlyAfter.carries.view_eq
    exact ⟨side, order, resubmission, next, carries.distinct.locate_of_mem member, modified,
      settles.status_ne_rejected, settles⟩
  · obtain ⟨side, order, member, rfl⟩ :=
      Reference.Book.contains_iff.mp (carries.mem_idMap.mp present)
    obtain ⟨next, replaced, carriesAfter, _⟩ := carries.replayReplaceVisibleOrder_of_accepted
      member nonzero ⟨lower, upper⟩ (carries.mem_idMap.not.mp fresh)
    exact ⟨side, order, next, carries.distinct.locate_of_mem member, replaced,
      carriesAfter.view_eq⟩

/-- A cancellation of an order that does not rest, a modification that is resubmitted
at a price that crosses the other side, and a replacement. -/
theorem failures_atomic_sample :
    (∀ next, sampleSession.2.cancelOrder ⟨9⟩ = .ok ({ status := .notFound }, next) →
      next = sampleSession.2) ∧
    (∃ resubmission next,
      sampleSession.2.modifyOrder ⟨6, 5, 3⟩ =
        .ok (⟨3, .resubmitted, some resubmission⟩, next) ∧
      resubmission.status ≠ .rejected ∧
      (sampleSession.2.view.remove 6).Settles .buy ⟨6, 3, 5, .day⟩ resubmission next.view) ∧
    ∃ next, sampleSession.2.replayReplaceVisibleOrder 1 7 2 4 = .ok (true, next) ∧
      next.view = ⟨-1, 4, [⟨6, 1, 3, .day⟩], [⟨7, 2, 4, .gtc⟩, ⟨2, 4, 6, .day⟩]⟩ := by
  have run : UnboundedRun StorableCalls sampleSession.1 sampleSession.2 :=
    (run_of_session sampleConfig sampleCalls rfl (by decide +kernel) (by decide +kernel)).unbounded
  have positive : ∀ side, ∀ order ∈ sampleSession.2.view.orders side, 1 ≤ order.quantity := by
    intro side
    cases side <;> decide +kernel
  obtain ⟨atomic, resubmits, replaces⟩ := failures_atomic run positive
  refine ⟨fun next cancelled => ?_, ?_, ?_⟩
  · refine atomic (.cancelOrder ⟨9⟩) (.cancellation { status := .notFound }) next trivial ?_ rfl
    rw [OrderBook.execute, cancelled, ok_bind]
  · obtain ⟨side, order, resubmission, next, located, modified, notRejected, settles⟩ :=
      resubmits ⟨6, 5, 3⟩ (by decide) (by decide +kernel) (by decide) (by decide +kernel)
        (by decide +kernel)
    have resting : sampleSession.2.view.locate 6 = some (.buy, ⟨6, 1, 3, .day⟩) := by
      decide +kernel
    obtain ⟨rfl, rfl⟩ := Prod.mk.inj (Option.some.inj (resting.symm.trans located))
    exact ⟨resubmission, next, modified, notRejected, settles⟩
  · obtain ⟨side, order, next, located, replaced, after⟩ :=
      replaces 1 7 2 4 (by decide +kernel) (by decide +kernel) (by decide)
        (by decide +kernel) (by decide +kernel)
    have resting : sampleSession.2.view.locate 1 = some (.sell, ⟨1, 3, 3, .gtc⟩) := by
      decide +kernel
    obtain ⟨rfl, rfl⟩ := Prod.mk.inj (Option.some.inj (resting.symm.trans located))
    have orders : (sampleSession.2.view.remove 1).rest .sell ⟨7, 2, 4, .gtc⟩ =
        ⟨-1, 4, [⟨6, 1, 3, .day⟩], [⟨7, 2, 4, .gtc⟩, ⟨2, 4, 6, .day⟩]⟩ := by
      decide +kernel
    exact ⟨next, replaced, after.trans orders⟩

end Properties
end MatchingEngine
