import MatchingEngine.Refinement.Ahead

/-!
# Cancelling undoes a passive submission

An order is submitted and rests, others rest after it, and then it is cancelled.
Beside this run goes the run of the others alone.  It stays one order and one
allocation behind, and when the order is cancelled both runs have the same book.
-/

namespace MatchingEngine
namespace Properties

open OrderBook (BookRun PublicCalls crosses sampleSession sampleRun_public)
open Refinement

variable {events : List (Event OrderBook Operation Output)} {book : OrderBook}
variable {request : LimitOrderRequest}

/-- Submitting a passive order, resting others after it and cancelling it leaves the book
that the others alone leave, and the cancellation reports all shares. -/
theorem cancel_undoes_submit
    (run : BookRun PublicCalls events book)
    (fresh : request.id ∉ book.idToOrderMap)
    (lower : book.minPrice ≤ request.price)
    (upper : request.price ≤ book.maxPrice)
    (passive : Passive book request.side request.price)
    (lifetime : request.tif = .gtc ∨ request.tif = .day)
    (positive : 1 ≤ request.quantity)
    (range : InInt32 request.quantity)
    {result : SubmissionResult} {first last : OrderBook}
    (submitted : book.submitLimitOrder request = .ok (result, first))
    (firstCapacity : first.WithinCapacity)
    {requests : List LimitOrderRequest}
    {others : List (Event OrderBook Operation Output)}
    (performed : first.perform (requests.map .submitLimitOrder) = .ok (others, last))
    (otherIds : ∀ other ∈ requests, other.id ≠ request.id)
    (otherQuantities : ∀ other ∈ requests, 1 ≤ other.quantity ∧ InInt32 other.quantity)
    (rest : ∀ event ∈ others, RestsWhole event.output)
    (capacity : ∀ event ∈ others, event.after.WithinCapacity) :
    ∃ left alone right,
      last.cancelOrder ⟨request.id⟩ = .ok (⟨request.quantity, .canceled⟩, left) ∧
      book.perform (requests.map .submitLimitOrder) = .ok (alone, right) ∧
      alone.map Event.output = others.map Event.output ∧
      SameUpToBlocks left right := by
  have sane := Sane.of_run safeCalls_publicCalls run
  have restable : Restable book request := by
    refine ⟨fun rejects => ?_, lifetime, passive⟩
    rcases rejects with present | above | below
    · exact fresh present
    · exact above.not_ge upper
    · exact below.not_ge lower
  obtain ⟨_, rests⟩ := restable.restsOrder sane positive range submitted
  have view := rests.refines.view_eq
  obtain ⟨absent, _⟩ := restable.fresh_inRange sane
  have ahead : Ahead request.side (wholeOrder request) first book := by
    refine ⟨⟨?_, ?_⟩, ?_, ?_, rests.available, rests.capacity⟩
    · rw [view]
      exact rests.refines
    · rw [view]
      exact rests.refines.roomy firstCapacity
    · rw [view]
      exact Reference.Book.mem_orders_rest.mpr (Or.inl ⟨rfl, rfl⟩)
    · rw [view, Reference.Book.remove_rest_self request.side absent]
      exact sane.refines
  obtain ⟨alone, right, performed', sameOutputs, ahead⟩ :=
    ahead.perform performed otherIds otherQuantities rest capacity
  obtain ⟨left, cancelled, _, _, refines⟩ :=
    ahead.sane.refines.carries.cancelOrder_of_mem ahead.member
  exact ⟨left, alone, right, cancelled, performed', sameOutputs,
    sameUpToBlocks_of_refines (refines ahead.sane.refines ahead.sane.roomy) ahead.refines
      (ahead.sane.roomy.remove _)⟩

/-- A new best bid of the sample session. -/
def undoneRequest : LimitOrderRequest := ⟨9, 2, 5, .buy, .day⟩

/-- A bid behind it, and an ask that makes a level of its own. -/
def laterRequests : List LimitOrderRequest := [⟨10, 2, 1, .buy, .gtc⟩, ⟨11, 4, 2, .sell, .day⟩]

/-- What the new bid leaves. -/
def undoneFirst : SubmissionResult × OrderBook :=
  (sampleSession.2.submitLimitOrder undoneRequest).toOption.get (by decide +kernel)

/-- What the others leave after it. -/
def undoneLast : List (Event OrderBook Operation Output) × OrderBook :=
  (undoneFirst.2.perform (laterRequests.map .submitLimitOrder)).toOption.get (by decide +kernel)

theorem cancel_undoes_submit_sample :
    ∃ left alone right,
      undoneLast.2.cancelOrder ⟨9⟩ = .ok (⟨5, .canceled⟩, left) ∧
      sampleSession.2.perform (laterRequests.map .submitLimitOrder) = .ok (alone, right) ∧
      alone.map Event.output = undoneLast.1.map Event.output ∧
      SameUpToBlocks left right := by
  have bestAsk : (sampleSession.2.ladder .sell).bestPrice = some 3 := by decide +kernel
  have fresh : undoneRequest.id ∉ sampleSession.2.idToOrderMap := by decide +kernel
  refine cancel_undoes_submit sampleRun_public fresh (by decide +kernel)
    (by decide +kernel) (fun best isBest => ?_) (Or.inr rfl) (by decide) (by decide)
    (eq_ok_of_isSome (by decide +kernel))
    (OrderBook.withinCapacity_of_few (by decide +kernel)) (eq_ok_of_isSome (by decide +kernel))
    (by decide) (by decide) (by decide +kernel)
    fun event member => OrderBook.withinCapacity_of_few ?_
  · obtain rfl := Option.some.inj (isBest.symm.trans bestAsk)
    rfl
  · have few : ∀ event ∈ undoneLast.1,
        event.after.memoryPool.currentlyAllocated < 4294967296 := by decide +kernel
    exact few event member

end Properties
end MatchingEngine
