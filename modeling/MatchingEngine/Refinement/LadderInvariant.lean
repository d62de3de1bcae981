import MatchingEngine.Refinement.Capacity

/-!
# What every call preserves of the ladders

The calls change a ladder in three ways: they store a level, raise the best price,
or refresh it by a scan.  What these three preserve, every call preserves.
-/

namespace MatchingEngine
namespace Refinement

open OrderBook (Registry)

/-- A property of ladders that the three ways to change one preserve. -/
structure LadderInvariant (property : PriceLadder → Prop) : Prop where
  setLevel : ∀ {ladder} (index level), property ladder → property (ladder.setLevel index level)
  setBestPrice : ∀ {ladder price ladder'}, property ladder →
    ladder.setBestPrice price = .ok ladder' → property ladder'
  updateBestPriceFromGiven : ∀ {ladder price ladder'}, property ladder →
    ladder.updateBestPriceFromGiven price = .ok ladder' → property ladder'

/-- Both ladders of a book have a property. -/
structure OnLadders (property : PriceLadder → Prop) (book : OrderBook) : Prop where
  bids : property book.bidLevels
  asks : property book.askLevels

variable {property : PriceLadder → Prop} {book book' : OrderBook} {side : Side}

namespace OnLadders

theorem ladder (holds : OnLadders property book) (side : Side) : property (book.ladder side) := by
  cases side with
  | buy => exact holds.bids
  | sell => exact holds.asks

theorem setLadder
    (holds : OnLadders property book)
    {ladder : PriceLadder}
    (ladderHolds : property ladder)
    (side : Side) :
    OnLadders property (book.setLadder side ladder) := by
  cases side with
  | buy => exact ⟨ladderHolds, holds.asks⟩
  | sell => exact ⟨holds.bids, ladderHolds⟩

/-- The ladders do not depend on the other members. -/
theorem withMembers
    (holds : OnLadders property book)
    (heap : Heap) (memoryPool : MemoryPool) (idToOrderMap : IdMap) :
    OnLadders property { book with heap, memoryPool, idToOrderMap } :=
  ⟨holds.bids, holds.asks⟩

end OnLadders

namespace LadderInvariant

variable (invariant : LadderInvariant property)

include invariant

theorem setBookLevel
    (holds : OnLadders property book)
    (address : LevelAddress) (level : PriceLevel) :
    OnLadders property (book.setLevel address level) :=
  holds.setLadder (invariant.setLevel _ _ (holds.ladder _)) _

theorem restOrder
    (holds : OnLadders property book)
    {id : OrderID} {price : Price} {quantity : Quantity} {lifetime : RestingLifetime}
    {side restingSide comparedSide : Side}
    (rested : book.restOrder id price quantity lifetime side restingSide comparedSide =
      .ok book') :
    OnLadders property book' := by
  obtain ⟨_, _, _, index, level, _, levels, _, raised, rfl⟩ := OrderBook.restOrder_ok rested
  have stored := invariant.setLevel index level (holds.ladder restingSide)
  refine (holds.withMembers ..).setLadder ?_ _
  split at raised
  · exact invariant.setBestPrice stored raised
  · exact Except.ok.inj raised ▸ stored

theorem takeFromMaker
    (holds : OnLadders property book)
    {address : LevelAddress} {matchingLevel : PriceLevel} {remainingShares : Quantity}
    (taken : book.takeFromMaker address matchingLevel remainingShares = .ok book') :
    OnLadders property book' := by
  obtain ⟨level, heap, _, rfl⟩ := OrderBook.takeFromMaker_ok taken
  exact invariant.setBookLevel (holds.withMembers ..) _ _

/-- A conditional refresh of the best price. -/
theorem refresh
    {ladder ladder' : PriceLadder} {price : Price} {vacant : Prop} [Decidable vacant]
    (holds : property ladder)
    (refreshed : (if vacant then ladder.updateBestPriceFromGiven price else .ok ladder) =
      .ok ladder') :
    property ladder' := by
  split at refreshed
  · exact invariant.updateBestPriceFromGiven holds refreshed
  · exact Except.ok.inj refreshed ▸ holds

theorem retireMaker
    (holds : OnLadders property book)
    {address : LevelAddress} {matchingLevel : PriceLevel} {bestPrice : Price}
    {takingOrderID : OrderID}
    (retired : book.retireMaker address matchingLevel bestPrice takingOrderID = .ok book') :
    OnLadders property book' := by
  obtain ⟨_, level, _, _, _, levels, _, _, refreshed, rfl⟩ := OrderBook.retireMaker_ok retired
  have stored := invariant.setLevel address.index level (holds.ladder address.side)
  exact (holds.withMembers ..).setLadder (invariant.refresh stored refreshed) _

theorem matchingLoop
    (holds : OnLadders property book)
    {matchingSide : Side} {takes : Price → Bool} {fuel : Nat} {remainingShares : Quantity}
    {subResult : SubmissionResult} {exit : OrderBook.LoopExit}
    (returned : OrderBook.matchingLoop matchingSide takes fuel book remainingShares subResult =
      .ok exit) :
    OnLadders property exit.book := by
  have iterations := OrderBook.iterations_of_matchingLoop returned
  clear returned
  induction iterations with
  | stop => exact holds
  | take _ _ taken => exact invariant.takeFromMaker holds taken
  | retire _ _ retired _ inductionHypothesis =>
      exact inductionHypothesis (invariant.retireMaker holds retired)

theorem runMatching
    (holds : OnLadders property book)
    {matchingSide : Side} {takes : Price → Bool} {quantity : Quantity}
    {exit : OrderBook.LoopExit}
    (returned : book.runMatching matchingSide takes quantity = .ok exit) :
    OnLadders property exit.book :=
  invariant.matchingLoop holds returned

/-! ## Submissions -/

theorem submitMarketOrder
    (holds : OnLadders property book)
    {request : MarketOrderRequest} {result : SubmissionResult}
    (submitted : book.submitMarketOrder request = .ok (result, book')) :
    OnLadders property book' := by
  rcases OrderBook.submitMarketOrder_ok submitted with ⟨_, rfl⟩ | ⟨exit, ran, _, rfl⟩
  · exact holds
  · exact invariant.runMatching holds ran

theorem submitLimitOrderResting
    (holds : OnLadders property book)
    {request : LimitOrderRequest} {result : SubmissionResult}
    (submitted : OrderBook.submitLimitOrderResting side book request = .ok (result, book')) :
    OnLadders property book' := by
  obtain ⟨exit, ran, ⟨rfl, _⟩ | ⟨rested, _, _⟩⟩ :=
    OrderBook.submitLimitOrderResting_ok submitted
  · exact invariant.runMatching holds ran
  · exact invariant.restOrder (invariant.runMatching holds ran) rested

theorem submitLimitOrderIoc
    (holds : OnLadders property book)
    {request : LimitOrderRequest} {result : SubmissionResult}
    (submitted : OrderBook.submitLimitOrderIoc side book request = .ok (result, book')) :
    OnLadders property book' := by
  obtain ⟨exit, ran, _, rfl⟩ := OrderBook.submitLimitOrderIoc_ok submitted
  exact invariant.runMatching holds ran

theorem submitLimitOrderFok
    (holds : OnLadders property book)
    {request : LimitOrderRequest} {result : SubmissionResult}
    (submitted : OrderBook.submitLimitOrderFok side book request = .ok (result, book')) :
    OnLadders property book' := by
  rcases OrderBook.submitLimitOrderFok_ok submitted with ⟨_, rfl⟩ | ⟨exit, ran, _, rfl⟩
  · exact holds
  · exact invariant.runMatching holds ran

theorem submitLimitOrder
    (holds : OnLadders property book)
    {request : LimitOrderRequest} {result : SubmissionResult}
    (submitted : book.submitLimitOrder request = .ok (result, book')) :
    OnLadders property book' := by
  rcases OrderBook.submitLimitOrder_ok submitted with
    ⟨_, _, rfl⟩ | ⟨_, ⟨_, resting⟩ | immediate | allOrNothing⟩
  · exact holds
  · exact invariant.submitLimitOrderResting holds resting
  · exact invariant.submitLimitOrderIoc holds immediate
  · exact invariant.submitLimitOrderFok holds allOrNothing

/-! ## The other calls -/

theorem cancelOrder
    (holds : OnLadders property book)
    {request : CancelOrderRequest} {result : CancelResult}
    (cancelled : book.cancelOrder request = .ok (result, book')) :
    OnLadders property book' := by
  rcases OrderBook.cancelOrder_ok cancelled with
    ⟨_, rfl⟩ | ⟨_, address, level, heap, _, _, _, _, _, _, rfl, refreshed, _, rfl⟩
  · exact holds
  · have stored := invariant.setBookLevel
      (holds.withMembers heap book.memoryPool book.idToOrderMap) address level
    exact (stored.withMembers ..).setLadder (invariant.refresh (stored.ladder _) refreshed) _

theorem modifyOrder
    (holds : OnLadders property book)
    {request : ModifyOrderRequest} {result : ModificationResult}
    (modified : book.modifyOrder request = .ok (result, book')) :
    OnLadders property book' := by
  rcases OrderBook.modifyOrder_ok modified with
    rfl | ⟨_, _, _, middle, _, _, cancelled, ⟨_, rfl, _⟩ | ⟨_, _, _, resubmitted⟩⟩
  · exact holds
  · exact invariant.cancelOrder holds cancelled
  · exact invariant.submitLimitOrder (invariant.cancelOrder holds cancelled) resubmitted

theorem pruneLevels
    {σ : Type} {onPrunedOrder : BlockAddress → σ → Heap → Except Fault (σ × Heap)}
    {fuel count index : Nat} {dayResult dayResult' : DayOrderPruneResult}
    {ladder ladder' : PriceLadder} {state state' : σ} {heap heap' : Heap}
    (holds : property ladder)
    (pruned : PriceLadder.pruneLevels fuel onPrunedOrder count index dayResult ladder state
      heap = .ok (dayResult', ladder', state', heap')) :
    property ladder' := by
  induction count generalizing index dayResult ladder state heap with
  | zero =>
      cases pruned
      exact holds
  | succ count inductionHypothesis =>
      obtain ⟨level, _, pruned⟩ := bind_eq_ok pruned
      split at pruned
      · obtain ⟨⟨stats, level', state₁, heap₁⟩, _, pruned⟩ := bind_eq_ok pruned
        exact inductionHypothesis (invariant.setLevel index level' holds) pruned
      · exact inductionHypothesis holds pruned

theorem pruneSide
    (holds : OnLadders property book)
    {result result' : DayOrderPruneResult}
    (pruned : book.pruneSide side result = .ok (result', book')) :
    OnLadders property book' := by
  rcases OrderBook.pruneSide_ok pruned with ⟨_, _, rfl⟩ | ⟨_, levels, _, _, prunedLadder, rfl⟩
  · exact holds
  obtain ⟨emptied, loop, refreshed⟩ := pruneDayOrders_ok prunedLadder
  have after := invariant.pruneLevels (holds.ladder side) loop
  refine (holds.withMembers ..).setLadder ?_ _
  rcases refreshBest_ok refreshed with rfl | ⟨bestPrice, refreshed⟩
  · exact after
  · exact invariant.updateBestPriceFromGiven after refreshed

theorem onSessionEnd
    (holds : OnLadders property book)
    {result : DayOrderPruneResult}
    (ended : book.onSessionEnd = .ok (result, book')) :
    OnLadders property book' := by
  obtain ⟨⟨bidResult, middle⟩, bids, asks⟩ := bind_eq_ok ended
  exact invariant.pruneSide (invariant.pruneSide holds bids) asks

theorem replayAddVisibleOrder
    (holds : OnLadders property book)
    {id : OrderID} {price : Price} {quantity : Quantity} {side : Side} {added : Bool}
    (returned : book.replayAddVisibleOrder id price quantity side = .ok (added, book')) :
    OnLadders property book' := by
  rcases OrderBook.replayAddVisibleOrder_ok returned with ⟨_, rfl⟩ | ⟨_, rested⟩
  · exact holds
  · exact invariant.restOrder holds rested

theorem replayDeleteVisibleOrder
    (holds : OnLadders property book)
    {id : OrderID} {deleted : Bool}
    (returned : book.replayDeleteVisibleOrder id = .ok (deleted, book')) :
    OnLadders property book' := by
  obtain ⟨cancelResult, cancelled, _⟩ := OrderBook.replayDeleteVisibleOrder_ok returned
  exact invariant.cancelOrder holds cancelled

theorem replayReduceVisibleOrder
    (holds : OnLadders property book)
    {id : OrderID} {quantityReduced : Quantity} {reduced : Bool}
    (returned : book.replayReduceVisibleOrder id quantityReduced = .ok (reduced, book')) :
    OnLadders property book' := by
  rcases OrderBook.replayReduceVisibleOrder_ok returned with
    ⟨_, rfl⟩ | deleted | ⟨_, address, level, heap, rfl⟩
  · exact holds
  · exact invariant.replayDeleteVisibleOrder holds deleted
  · exact invariant.setBookLevel (holds.withMembers ..) _ _

theorem replayReplaceVisibleOrder
    (holds : OnLadders property book)
    {originalId newId : OrderID} {newPrice : Price} {newQuantity : Quantity} {replaced : Bool}
    (returned : book.replayReplaceVisibleOrder originalId newId newPrice newQuantity =
      .ok (replaced, book')) :
    OnLadders property book' := by
  rcases OrderBook.replayReplaceVisibleOrder_ok returned with
    ⟨_, rfl⟩ | ⟨_, middle, deletion, ⟨_, rfl⟩ | ⟨side, added⟩⟩
  · exact holds
  · exact invariant.replayDeleteVisibleOrder holds deletion
  · exact invariant.replayAddVisibleOrder (invariant.replayDeleteVisibleOrder holds deletion) added

/-- Every call that returns preserves the property. -/
theorem execute
    (holds : OnLadders property book)
    {operation : Operation} {output : Output}
    (executed : book.execute operation = .ok (output, book')) :
    OnLadders property book' := by
  cases operation
  all_goals
    obtain ⟨⟨answer, next⟩, returned, executed⟩ := bind_eq_ok executed
    obtain ⟨_, rfl⟩ := Prod.mk.inj (Except.ok.inj executed)
  case submitLimitOrder => exact invariant.submitLimitOrder holds returned
  case submitMarketOrder => exact invariant.submitMarketOrder holds returned
  case cancelOrder => exact invariant.cancelOrder holds returned
  case modifyOrder => exact invariant.modifyOrder holds returned
  case onSessionEnd => exact invariant.onSessionEnd holds returned
  case replayAddVisibleOrder => exact invariant.replayAddVisibleOrder holds returned
  case replayDeleteVisibleOrder => exact invariant.replayDeleteVisibleOrder holds returned
  case replayReduceVisibleOrder => exact invariant.replayReduceVisibleOrder holds returned
  case replayReplaceVisibleOrder => exact invariant.replayReplaceVisibleOrder holds returned

end LadderInvariant

end Refinement
end MatchingEngine
