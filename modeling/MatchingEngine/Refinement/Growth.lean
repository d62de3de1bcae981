import MatchingEngine.Refinement.Calls
import MatchingEngine.Refinement.Storage

/-!
# What a call allocates

A call allocates at most one block, and nothing comes after it: whatever a call
retires, it retires before.  After a call the pool is therefore the one that the
orders in the book then demand.
-/

namespace MatchingEngine
namespace Refinement

open OrderBook (StorableCalls)

variable {book middle next : OrderBook} {spec : Reference.Book}

/-- A call that allocates nothing, or one block at its end. -/
inductive AllocatesLast (book next : OrderBook) : Prop
  | never (same : capacityOf next.memoryPool = capacityOf book.memoryPool)
  | once
      {middle : OrderBook} {spec : Reference.Book} {id : OrderID} {price : Price}
      {quantity : Quantity} {lifetime : RestingLifetime} {side restingSide comparedSide : Side}
      (same : capacityOf middle.memoryPool = capacityOf book.memoryPool)
      (carries : Carries middle spec)
      (rested : middle.restOrder id price quantity lifetime side restingSide comparedSide =
        .ok next)

namespace AllocatesLast

theorem refl (book : OrderBook) : AllocatesLast book book := .never rfl

/-- A call that allocates nothing may come before. -/
theorem after
    (last : AllocatesLast middle next)
    (same : capacityOf middle.memoryPool = capacityOf book.memoryPool) :
    AllocatesLast book next := by
  cases last with
  | never kept => exact .never (kept.trans same)
  | once kept carries rested => exact .once (kept.trans same) carries rested

theorem submitLimitOrder
    (stores : Stores book spec)
    {request : LimitOrderRequest} {result : SubmissionResult}
    (range : InInt32 request.quantity)
    (submitted : book.submitLimitOrder request = .ok (result, next)) :
    AllocatesLast book next := by
  rcases OrderBook.submitLimitOrder_ok submitted with
    ⟨_, _, rfl⟩ | ⟨_, ⟨_, resting⟩ | immediate | allOrNothing⟩
  · exact .refl _
  · obtain ⟨exit, ran, ⟨rfl, _⟩ | ⟨rested, _⟩⟩ :=
      OrderBook.submitLimitOrderResting_ok resting
    · exact .never (capacity_runMatching ran)
    · obtain ⟨spec', stores', _⟩ := stores.runMatching range ran
      exact .once (capacity_runMatching ran) stores'.carries rested
  · obtain ⟨exit, ran, _, rfl⟩ := OrderBook.submitLimitOrderIoc_ok immediate
    exact .never (capacity_runMatching ran)
  · rcases OrderBook.submitLimitOrderFok_ok allOrNothing with ⟨_, rfl⟩ | ⟨exit, ran, _, rfl⟩
    · exact .refl _
    · exact .never (capacity_runMatching ran)

theorem submitMarketOrder
    {request : MarketOrderRequest} {result : SubmissionResult}
    (submitted : book.submitMarketOrder request = .ok (result, next)) :
    AllocatesLast book next := by
  rcases OrderBook.submitMarketOrder_ok submitted with ⟨_, rfl⟩ | ⟨exit, ran, _, rfl⟩
  · exact .refl _
  · exact .never (capacity_runMatching ran)

theorem modifyOrder
    (stores : Stores book spec)
    {request : ModifyOrderRequest} {result : ModificationResult}
    (range : InInt32 request.newQuantity)
    (modified : book.modifyOrder request = .ok (result, next)) :
    AllocatesLast book next := by
  rcases OrderBook.modifyOrder_ok modified with
    rfl | ⟨_, _, _, middle, _, _, cancelled, ⟨_, rfl, _⟩ | ⟨_, _, _, resubmitted⟩⟩
  · exact .refl _
  · exact .never (keepsCapacity_cancelOrder _ _ _ cancelled)
  · obtain ⟨spec', stores'⟩ := stores.cancelOrder cancelled
    exact (submitLimitOrder stores' range resubmitted).after
      (keepsCapacity_cancelOrder _ _ _ cancelled)

theorem replayAddVisibleOrder
    (stores : Stores book spec)
    {id : OrderID} {price : Price} {quantity : Quantity} {side : Side} {added : Bool}
    (returned : book.replayAddVisibleOrder id price quantity side = .ok (added, next)) :
    AllocatesLast book next := by
  rcases OrderBook.replayAddVisibleOrder_ok returned with ⟨_, rfl⟩ | ⟨_, rested⟩
  · exact .refl _
  · exact .once rfl stores.carries rested

theorem replayDeleteVisibleOrder
    {id : OrderID} {deleted : Bool}
    (returned : book.replayDeleteVisibleOrder id = .ok (deleted, next)) :
    capacityOf next.memoryPool = capacityOf book.memoryPool := by
  obtain ⟨_, cancelled, _⟩ := OrderBook.replayDeleteVisibleOrder_ok returned
  exact keepsCapacity_cancelOrder _ _ _ cancelled

theorem replayReduceVisibleOrder
    {id : OrderID} {quantityReduced : Quantity} {reduced : Bool}
    (returned : book.replayReduceVisibleOrder id quantityReduced = .ok (reduced, next)) :
    AllocatesLast book next := by
  rcases OrderBook.replayReduceVisibleOrder_ok returned with
    ⟨_, rfl⟩ | deleted | ⟨_, address, level, heap, rfl⟩
  · exact .refl _
  · exact .never (replayDeleteVisibleOrder deleted)
  · refine .never ?_
    rw [setLevel_memoryPool]

theorem replayReplaceVisibleOrder
    (stores : Stores book spec)
    {originalId newId : OrderID} {newPrice : Price} {newQuantity : Quantity} {replaced : Bool}
    (returned : book.replayReplaceVisibleOrder originalId newId newPrice newQuantity =
      .ok (replaced, next)) :
    AllocatesLast book next := by
  rcases OrderBook.replayReplaceVisibleOrder_ok returned with
    ⟨_, rfl⟩ | ⟨_, middle, deletion, ⟨_, rfl⟩ | ⟨side, added⟩⟩
  · exact .refl _
  · exact .never (replayDeleteVisibleOrder deletion)
  · obtain ⟨spec', stores'⟩ := stores.replayDeleteVisibleOrder deletion
    exact (replayAddVisibleOrder stores' added).after (replayDeleteVisibleOrder deletion)

theorem execute
    (stores : Stores book spec)
    {operation : Operation} {output : Output}
    (range : operation.RepresentableQuantities)
    (executed : book.execute operation = .ok (output, next)) :
    AllocatesLast book next := by
  cases operation
  all_goals
    obtain ⟨⟨answer, last⟩, returned, executed⟩ := bind_eq_ok executed
    obtain ⟨_, rfl⟩ := Prod.mk.inj (Except.ok.inj executed)
  case submitLimitOrder => exact submitLimitOrder stores range returned
  case submitMarketOrder => exact submitMarketOrder returned
  case cancelOrder => exact .never (keepsCapacity_cancelOrder _ _ _ returned)
  case modifyOrder => exact modifyOrder stores range returned
  case onSessionEnd => exact .never (keepsCapacity_onSessionEnd _ _ returned)
  case replayAddVisibleOrder => exact replayAddVisibleOrder stores returned
  case replayDeleteVisibleOrder => exact .never (replayDeleteVisibleOrder returned)
  case replayReduceVisibleOrder => exact replayReduceVisibleOrder returned
  case replayReplaceVisibleOrder => exact replayReplaceVisibleOrder stores returned

end AllocatesLast

/-! ## Demand -/

theorem Carries.live_le_totalElements (carries : Carries book spec) :
    book.memoryPool.currentlyAllocated ≤ (capacityOf book.memoryPool).totalElements := by
  obtain ⟨addr, free, linked⟩ := carries.linked
  rw [linked.currentlyAllocated_eq]
  exact linked.pool.live_le_totalElements

/-- Resting an order makes one more block live. -/
theorem Carries.live_restOrder
    (carries : Carries book spec)
    {id : OrderID} {price : Price} {quantity : Quantity} {lifetime : RestingLifetime}
    {side restingSide comparedSide : Side}
    (rested : book.restOrder id price quantity lifetime side restingSide comparedSide =
      .ok next) :
    next.memoryPool.currentlyAllocated = book.memoryPool.currentlyAllocated + 1 := by
  obtain ⟨addr, free, linked⟩ := carries.linked
  obtain ⟨address, heap, allocated⟩ := allocate_of_restOrder rested
  rcases linked.pool.allocate id quantity lifetime side with
    ⟨_, refused⟩ | ⟨_, pool, _, _, allocated', holds, _⟩
  · cases refused.symm.trans allocated
  · obtain ⟨_, samePool⟩ := Prod.mk.inj (Except.ok.inj (allocated.symm.trans allocated'))
    rw [(Prod.mk.inj samePool).1, holds.currentlyAllocated, linked.currentlyAllocated_eq,
      List.length_cons]

/-- The pool after a call is the one that the live orders after it demand. -/
theorem AllocatesLast.capacity
    (last : AllocatesLast book next)
    (carries : Carries next spec) :
    capacityOf next.memoryPool =
        (capacityOf book.memoryPool).demand next.memoryPool.currentlyAllocated ∧
      next.memoryPool.currentlyAllocated ≤ (capacityOf book.memoryPool).totalElements + 1 := by
  cases last with
  | never same =>
      have enough := same ▸ carries.live_le_totalElements
      exact ⟨same.trans (PoolCapacity.demand_of_le enough).symm, Nat.le_succ_of_le enough⟩
  | once same carriesMiddle rested =>
      rw [carriesMiddle.live_restOrder rested, ← same]
      exact ⟨(carriesMiddle.capacity_restOrder rested).2,
        Nat.succ_le_succ carriesMiddle.live_le_totalElements⟩

end Refinement

end MatchingEngine
