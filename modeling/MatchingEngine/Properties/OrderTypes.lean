import MatchingEngine.Properties.Mirror
import MatchingEngine.Refinement.Remainder

/-!
# Order types in terms of each other

Market orders and orders that may rest have loops of their own in the source.  A
market order is an order that is immediate or cancelled at the worst price of the
range; an order that may rest is immediate or cancelled first, and its remainder
is then submitted as an order that trades with nobody.
-/

namespace MatchingEngine
namespace Properties

open OrderBook (StorableCalls UnboundedRun sampleSession sampleConfig sampleCalls run_of_session)
open Refinement

variable {book : OrderBook} {events : List (Event OrderBook Operation Output)}

/-! ## Market orders -/

/-- The price of the range that is worst for an order of a side. -/
def worstPrice (book : OrderBook) : Side → Price
  | .buy => book.maxPrice
  | .sell => book.minPrice

/-- A market order as a limit order. -/
def marketAsLimit (book : OrderBook) (request : MarketOrderRequest) : LimitOrderRequest :=
  ⟨request.id, worstPrice book request.side, request.quantity, request.side, .ioc⟩

/-- The worst price of the range accepts all its prices. -/
theorem crosses_worstPrice
    (side : Side) {price : Price}
    (lower : book.minPrice ≤ price)
    (upper : price ≤ book.maxPrice) :
    OrderBook.crosses side (worstPrice book side) price = true := by
  cases side with
  | buy => exact decide_eq_true upper
  | sell => exact decide_eq_true lower

/-- In every reachable book a market order of any quantity is the order at the worst price
of the range that is immediate or cancelled, answer, book and faults included. -/
theorem market_as_limit
    (run : UnboundedRun StorableCalls events book) (request : MarketOrderRequest) :
    book.submitMarketOrder request = book.submitLimitOrder (marketAsLimit book request) := by
  obtain ⟨spec, stores⟩ := stores_of_run run
  have framed := framedBook_of_carries stores.carries (bounded_of_run run)
  have ordered : book.minPrice ≤ book.maxPrice := by
    have ladder := framed.ladders.bids
    rw [framed.minPrice, framed.maxPrice, ← ladder.minPrice, ← ladder.maxPrice]
    exact ladder.ordered
  have rejects : book.rejects (marketAsLimit book request) ↔ request.id ∈ book.idToOrderMap := by
    have inRange : book.minPrice ≤ worstPrice book request.side ∧
        worstPrice book request.side ≤ book.maxPrice := by
      cases request.side with
      | buy => exact ⟨ordered, le_rfl⟩
      | sell => exact ⟨le_rfl, ordered⟩
    simp only [OrderBook.rejects, marketAsLimit, gt_iff_lt, inRange.1.not_gt, inRange.2.not_gt,
      or_false]
  have sameMatching :
      book.runMatching request.side.opposite (fun _ => true) request.quantity =
        book.runMatching request.side.opposite
          (OrderBook.crosses request.side (worstPrice book request.side)) request.quantity :=
    OrderBook.matchingLoop_congr
      (fun price lower upper => (crosses_worstPrice request.side lower upper).symm)
      framed.ladders _ _ _
  unfold OrderBook.submitMarketOrder OrderBook.submitLimitOrder
  simp only [rejects, sameMatching]
  rfl

/-- A market order that sweeps the asks of the sample session. -/
theorem market_as_limit_sample :
    sampleSession.2.submitMarketOrder ⟨9, 100, .buy⟩ =
      sampleSession.2.submitLimitOrder (marketAsLimit sampleSession.2 ⟨9, 100, .buy⟩) := by
  have run : UnboundedRun StorableCalls sampleSession.1 sampleSession.2 :=
    (run_of_session sampleConfig sampleCalls rfl (by decide +kernel) (by decide +kernel)).unbounded
  exact market_as_limit run ⟨9, 100, .buy⟩

/-! ## Orders that may rest -/

/-- The answer to an order that may rest, put together from the answers to its immediate
part and to its remainder. -/
def continued (immediate remainder : SubmissionResult) : SubmissionResult :=
  { immediate with
    status :=
      if remainder.quantityRequested < immediate.quantityRequested then .partiallyFilledResting
      else .resting }

/-- An order that may rest, as two calls: one that is immediate or cancelled, and one for
the shares that it has not filled. -/
def submitInTwoCalls (book : OrderBook) (request : LimitOrderRequest) :
    Except Fault (SubmissionResult × OrderBook) := do
  let (immediate, middle) ← book.submitLimitOrder { request with tif := .ioc }
  if immediate.status = .rejected ∨ immediate.quantityFilled = request.quantity then
    .ok (immediate, middle)
  else do
    let (remainder, last) ← middle.submitLimitOrder
      { request with quantity := toInt32 (request.quantity - immediate.quantityFilled) }
    .ok (continued immediate remainder, last)

/-- The second call trades with nobody. -/
theorem remainder_rests
    {request : LimitOrderRequest} {immediate remainder : SubmissionResult}
    {middle last : OrderBook}
    (mayRest : request.tif = .gtc ∨ request.tif = .day)
    (range : InInt32 request.quantity)
    (first : book.submitLimitOrder { request with tif := .ioc } = .ok (immediate, middle))
    (notRejected : immediate.status ≠ .rejected)
    (unfilled : immediate.quantityFilled ≠ request.quantity)
    (second : middle.submitLimitOrder { request with
        quantity := toInt32 (request.quantity - immediate.quantityFilled) } =
      .ok (remainder, last)) :
    remainder.executions = [] ∧ remainder.status = .resting := by
  have accepted : ¬ book.rejects request := by
    intro rejected
    obtain ⟨rfl, _⟩ := Prod.mk.inj (Except.ok.inj ((if_pos rejected).symm.trans first))
    exact notRejected rfl
  rw [submitLimitOrder_immediate accepted] at first
  obtain ⟨exit, ran, rfl, rfl⟩ := OrderBook.submitLimitOrderIoc_ok first
  have leaves := (OrderBook.iterations_of_matchingLoop ran).leavesRemainder range
    (show InInt32 0 by decide)
  have sameFilled : (OrderBook.droppedResult request.quantity exit).quantityFilled =
      exit.subResult.quantityFilled := by
    unfold OrderBook.droppedResult
    split <;> rfl
  rw [sameFilled] at unfilled second
  have hasLeft : exit.returned = false :=
    Bool.eq_false_iff.mpr fun returned => unfilled (full_of_returned leaves range returned)
  rw [submitRemainder leaves mayRest accepted hasLeft
    (mt (nothingLeft_iff leaves range hasLeft).mp unfilled)] at second
  obtain ⟨next, _, returned⟩ := bind_eq_ok second
  obtain ⟨rfl, _⟩ := Prod.mk.inj (Except.ok.inj returned)
  exact ⟨rfl, rfl⟩

theorem submitLimitOrder_eq_submitInTwoCalls
    (book : OrderBook) {request : LimitOrderRequest}
    (mayRest : request.tif = .gtc ∨ request.tif = .day)
    (range : InInt32 request.quantity) :
    book.submitLimitOrder request = submitInTwoCalls book request := by
  unfold submitInTwoCalls
  by_cases rejected : book.rejects request
  · have immediate : book.submitLimitOrder { request with tif := .ioc } =
        .ok ({ quantityRequested := request.quantity, status := .rejected }, book) :=
      if_pos rejected
    rw [immediate, ok_bind]
    exact if_pos rejected
  rw [submitLimitOrder_immediate rejected,
    OrderBook.submitLimitOrder_of_mayRest mayRest rejected]
  unfold OrderBook.submitLimitOrderResting OrderBook.submitLimitOrderIoc
  cases ran : book.runMatching request.side.opposite
      (OrderBook.crosses request.side request.price) request.quantity with
  | error fault => rfl
  | ok exit =>
      have leaves := (OrderBook.iterations_of_matchingLoop ran).leavesRemainder range
        (show InInt32 0 by decide)
      simp only [ok_bind]
      cases returned : exit.returned with
      | true =>
          simp only [if_true, ok_bind, full_of_returned leaves range returned, or_true]
      | false =>
          have filled := nothingLeft_iff leaves range returned
          by_cases nothingLeft : exit.remainingShares = 0
          · have dropped : OrderBook.dropStatus 0 request.quantity = .filled := if_pos rfl
            simp only [Bool.false_eq_true, if_false, nothingLeft, if_true, ok_bind, dropped,
              filled.mp nothingLeft, or_true]
          · have dropped : OrderBook.dropStatus exit.remainingShares request.quantity ≠
                SubmitStatus.rejected := by
              unfold OrderBook.dropStatus
              split_ifs <;> decide
            simp only [Bool.false_eq_true, if_false, nothingLeft, ok_bind, dropped,
              mt filled.mpr nothingLeft, or_self,
              submitRemainder leaves mayRest rejected returned nothingLeft, bind_assoc]
            apply bind_congr
            intro last
            simp only [continued, leaves.quantityRequested]

/-- In every book whatsoever, submitting an order that may rest is submitting it as
immediate or cancelled and then resting what is left, answer, book and faults included.
The second call trades with nobody. -/
theorem resting_as_two_calls
    (book : OrderBook) {request : LimitOrderRequest}
    (mayRest : request.tif = .gtc ∨ request.tif = .day)
    (range : InInt32 request.quantity) :
    book.submitLimitOrder request = submitInTwoCalls book request ∧
      ∀ immediate middle remainder last,
        book.submitLimitOrder { request with tif := .ioc } = .ok (immediate, middle) →
        immediate.status ≠ .rejected →
        immediate.quantityFilled ≠ request.quantity →
        middle.submitLimitOrder { request with
            quantity := toInt32 (request.quantity - immediate.quantityFilled) } =
          .ok (remainder, last) →
        remainder.executions = [] ∧ remainder.status = .resting :=
  ⟨submitLimitOrder_eq_submitInTwoCalls book mayRest range,
    fun _ _ _ _ first notRejected unfilled second =>
      remainder_rests mayRest range first notRejected unfilled second⟩

/-- A bid that takes the nine shares of the sample session and rests with the other two. -/
theorem resting_as_two_calls_sample :
    sampleSession.2.submitLimitOrder ⟨9, 4, 11, .buy, .day⟩ =
        submitInTwoCalls sampleSession.2 ⟨9, 4, 11, .buy, .day⟩ ∧
      ((submitInTwoCalls sampleSession.2 ⟨9, 4, 11, .buy, .day⟩).toOption.map
        fun answer => (answer.1.quantityFilled, answer.1.status)) =
          some (9, .partiallyFilledResting) :=
  ⟨(resting_as_two_calls sampleSession.2 (Or.inr rfl) (by decide)).1, by decide +kernel⟩

end Properties
end MatchingEngine
