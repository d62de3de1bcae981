import MatchingEngine.Refinement.Matching

/-!
# Submissions refine the reference book

Every submission is the matching loop followed by what its kind does with the
remainder.  Resting the remainder is the only step that may need a new slab of
the pool, so a submission either simulates its reference operation or stops in
`std::bad_alloc` with an exhausted pool.
-/

namespace MatchingEngine
namespace Refinement

open Reference (Order priority orderPriority downward_accepts downward_all)
open OrderBook (Registry)

/-- An operation returns the answer of the reference operation and a book that
stands for its book. -/
def Simulates {α : Type}
    (result : Except Fault (α × OrderBook)) (expected : α × Reference.Book) : Prop :=
  ∃ book', result = .ok (expected.1, book') ∧ Refines book' expected.2

/-- The pool is exhausted and refuses to grow, or the operation simulates the
reference operation. -/
def SimulatesUnlessExhausted {α : Type}
    (book : OrderBook) (result : Except Fault (α × OrderBook))
    (expected : α × Reference.Book) : Prop :=
  (¬ HasFree book ∧ result = .error .badAlloc) ∨ Simulates result expected

variable {book : OrderBook} {spec : Reference.Book}

/-! ## Limits -/

theorem crosses_eq_accepts (side : Side) (limit : Price) :
    OrderBook.crosses side limit = Reference.Book.accepts side limit := by
  funext price
  cases side <;> simp [OrderBook.crosses, Reference.Book.accepts]

theorem Refines.mem_idMap (refines : Refines book spec) {id : OrderID} :
    id ∈ book.idToOrderMap ↔ spec.Contains id :=
  refines.carries.mem_idMap

theorem Refines.inRange
    (refines : Refines book spec)
    (side : Side) {price : Price}
    (range : spec.minPrice ≤ price ∧ price ≤ spec.maxPrice) :
    InRange (book.ladder side) price :=
  refines.carries.inRange side range

theorem dropStatus_eq (remaining quantity : Quantity) :
    OrderBook.dropStatus remaining quantity =
      Reference.Book.droppedStatus remaining quantity := rfl

/-- The result of a finished loop whose remainder is dropped. -/
theorem Matched.dropped
    {outcome : Fill.Outcome Order} {quantity : Quantity} {exit : OrderBook.LoopExit}
    (matched : Matched book outcome { quantityRequested := quantity } quantity exit) :
    (if exit.returned then (Except.ok (exit.subResult, exit.book) : Except Fault _)
      else .ok ({ exit.subResult with
        status := OrderBook.dropStatus exit.remainingShares quantity }, exit.book)) =
      .ok (Reference.Book.report outcome quantity
        (Reference.Book.droppedStatus (quantity - outcome.total) quantity), exit.book) := by
  cases returned : exit.returned with
  | true =>
      have exact := (matched.returned returned).2
      rw [if_pos rfl, matched.report_returned returned, exact, sub_self]
      rfl
  | false =>
      rw [if_neg (by simp), matched.report, dropStatus_eq, (matched.left returned).1]

/-- The result of a finished loop that must have filled the taker. -/
theorem Matched.full
    {outcome : Fill.Outcome Order} {quantity : Quantity} {exit : OrderBook.LoopExit}
    (matched : Matched book outcome { quantityRequested := quantity } quantity exit)
    (exact : outcome.total = quantity) :
    (if exit.returned then (Except.ok (exit.subResult, exit.book) : Except Fault _)
      else if exit.remainingShares = 0 then
        .ok ({ exit.subResult with status := .filled }, exit.book)
      else .error .assertionFailed) =
      .ok (Reference.Book.report outcome quantity .filled, exit.book) := by
  cases returned : exit.returned with
  | true => rw [if_pos rfl, matched.report_returned returned]
  | false =>
      have nothingLeft : exit.remainingShares = 0 := by
        rw [(matched.left returned).1, exact, sub_self]
      rw [if_neg (by simp), if_pos nothingLeft, matched.report]

/-! ## Orders that never rest -/

theorem submitMarketOrder
    (refines : Refines book spec)
    (roomy : RoomyBook spec)
    {request : MarketOrderRequest}
    (range : request.quantity ≤ 2147483647) :
    Simulates (book.submitMarketOrder request) (spec.submitMarket request) := by
  unfold OrderBook.submitMarketOrder Reference.Book.submitMarket
  by_cases present : spec.Contains request.id
  · rw [if_pos (refines.mem_idMap.mpr present), if_pos present]
    exact ⟨book, rfl, refines⟩
  · rw [if_neg (fun inMap => present (refines.mem_idMap.mp inMap)), if_neg present]
    obtain ⟨exit, run, refinesExit, matched⟩ :=
      runMatching refines roomy (downward_all request.side.opposite) range
    refine ⟨exit.book, ?_, refinesExit⟩
    rw [run, ok_bind]
    exact matched.dropped

theorem submitLimitOrderIoc
    (refines : Refines book spec)
    (roomy : RoomyBook spec)
    {request : LimitOrderRequest}
    (range : request.quantity ≤ 2147483647) :
    Simulates (OrderBook.submitLimitOrderIoc request.side book request)
      (spec.submitImmediate request) := by
  unfold OrderBook.submitLimitOrderIoc Reference.Book.submitImmediate
  rw [crosses_eq_accepts]
  obtain ⟨exit, run, refinesExit, matched⟩ :=
    runMatching refines roomy (downward_accepts request.side request.price) range
  refine ⟨exit.book, ?_, refinesExit⟩
  rw [run, ok_bind]
  exact matched.dropped

/-- Shares that a limit accepts. -/
theorem liquidityWithin_eq_offered (side : Side) (limit : Price) (orders : List Order) :
    liquidityWithin side.opposite limit orders =
      Fill.offered Order.quantity
        (orders.filter fun order => Reference.Book.accepts side limit order.price) := by
  refine congrArg volume (List.filter_congr fun order _ => ?_)
  rw [Bool.eq_iff_iff, Reference.Book.accepts_iff, decide_eq_true_iff]
  rfl

/-- What a taker gets in total. -/
theorem total_matching
    (refines : Refines book spec)
    (side : Side) (takes : Price → Bool) (quantity : Quantity) :
    (spec.matching side takes quantity).total =
      max 0 (min quantity (Fill.offered Order.quantity
        ((spec.orders side).filter fun order => takes order.price))) := by
  obtain ⟨addr, free, core⟩ := refines.core
  exact Fill.total_fill ((core.holds side).sound.sublist List.filter_sublist).positive

theorem submitLimitOrderFok
    (refines : Refines book spec)
    (roomy : RoomyBook spec)
    {request : LimitOrderRequest}
    (inRange : spec.minPrice ≤ request.price ∧ request.price ≤ spec.maxPrice)
    (positive : 0 < request.quantity)
    (range : request.quantity ≤ 2147483647) :
    Simulates (OrderBook.submitLimitOrderFok request.side book request)
      (spec.submitAllOrNothing request) := by
  obtain ⟨addr, free, core⟩ := refines.core
  have scan := (core.holds request.side.opposite).hasSufficientMarketableLiquidity
    (roomy _) (refines.best _) (refines.inRange _ inRange) positive range
  rw [liquidityWithin_eq_offered] at scan
  have total := total_matching refines request.side.opposite
    (Reference.Book.accepts request.side request.price) request.quantity
  unfold OrderBook.submitLimitOrderFok Reference.Book.submitAllOrNothing
  rw [scan, ok_bind, crosses_eq_accepts]
  by_cases enough : request.quantity ≤ Fill.offered Order.quantity
      ((spec.orders request.side.opposite).filter fun order =>
        Reference.Book.accepts request.side request.price order.price)
  · have exact : (spec.matching request.side.opposite
        (Reference.Book.accepts request.side request.price) request.quantity).total =
          request.quantity := by
      rw [total]
      lia
    obtain ⟨exit, run, refinesExit, matched⟩ :=
      runMatching refines roomy (downward_accepts request.side request.price) range
    simp only [enough, decide_true, not_true_eq_false, if_false, exact, if_true]
    refine ⟨exit.book, ?_, refinesExit⟩
    rw [run, ok_bind]
    exact matched.full exact
  · have inexact : (spec.matching request.side.opposite
        (Reference.Book.accepts request.side request.price) request.quantity).total ≠
          request.quantity := by
      rw [total]
      lia
    simp only [enough, decide_false, Bool.false_eq_true, not_false_eq_true, if_true, inexact,
      if_false]
    exact ⟨book, rfl, refines⟩

/-! ## Orders that may rest -/

/-- The best price after an order has been queued. -/
theorem bestOf_enqueue (side : Side) (order : Order) (orders : List Order) :
    bestOf (KeyedList.enqueue (orderPriority side) order orders) =
      if OrderBook.improves side order.price (bestOf orders) then some order.price
      else bestOf orders := by
  rw [bestOf, KeyedList.head?_enqueue, bestOf]
  cases orders.head? with
  | none => rfl
  | some head =>
      have better : orderPriority side order < orderPriority side head ↔
          OrderBook.improves side order.price (some head.price) = true := by
        cases side <;> simp [OrderBook.improves, orderPriority, priority]
      by_cases improves : OrderBook.improves side order.price (some head.price) = true
      · simp [improves, better.mpr improves]
      · simp [improves, mt better.mp improves]

/-- Resting a new order for which the pool has a block. -/
theorem Carries.restOrder_of_allocated
    (carries : Carries book spec)
    (order : Order) (side : Side)
    (fresh : ¬ spec.Contains order.id)
    (inRange : spec.minPrice ≤ order.price ∧ order.price ≤ spec.maxPrice)
    {allocation : BlockAddress × MemoryPool × Heap}
    (allocated : book.memoryPool.allocate order.id order.quantity order.lifetime side
      book.heap = .ok allocation) :
    ∃ book',
      book.restOrder order.id order.price order.quantity order.lifetime side side side =
        .ok book' ∧
      Carries book' (spec.rest side order) ∧
      (1 ≤ order.quantity ∧ order.quantity ≤ 2147483647 → Refines book spec →
        RoomyBook spec → Refines book' (spec.rest side order)) := by
  obtain ⟨addr, free, linked⟩ := carries.linked
  have levelRange := carries.inRange side inRange
  rcases linked.pool.allocate order.id order.quantity order.lifetime side with
    ⟨_, refused⟩ | ⟨address, pool', heap₁, free', allocated', poolHolds, stored, kept⟩
  · cases refused.symm.trans allocated
  · obtain ⟨level, access, _, _⟩ := (linked.links side).level_of levelRange
    obtain ⟨level', heap', pushed, after, wrapped⟩ := linked.attach fresh levelRange access
      poolHolds stored kept
    obtain rfl := Except.ok.inj (allocated.symm.trans allocated')
    have getLevel := (linked.links side).toShape.getLevelAtPrice levelRange
    let best := if OrderBook.improves side order.price (book.ladder side).bestPrice then
      some order.price else (book.ladder side).bestPrice
    have served : ∀ price, best = some price →
        queueAt side price ((spec.rest side order).orders side) ≠ [] := by
      intro price isBest
      apply queueAt_rest_ne_nil
      unfold best at isBest
      split at isBest
      · exact Or.inr (Option.some.inj isBest).symm
      · exact Or.inl (carries.served side price isBest)
    refine ⟨_, ?_, carries.of_linked (after.withBest best)
      (fun other different => (Reference.Book.orders_setOrders ..).trans (if_neg different))
      served (Reference.Book.setOrders_minPrice ..) (Reference.Book.setOrders_maxPrice ..),
      fun soundOrder refines roomy => ?_⟩
    · have setBest : ∀ ladder : PriceLadder, ladder.minPrice = (book.ladder side).minPrice →
          ladder.maxPrice = (book.ladder side).maxPrice →
          ladder.setBestPrice order.price =
            .ok { ladder with bestPrice := some order.price } := by
        intro ladder sameMin sameMax
        unfold PriceLadder.setBestPrice
        rw [if_neg]
        rw [sameMin, sameMax]
        exact not_not.mpr ⟨levelRange.2, levelRange.1⟩
      simp only [OrderBook.restOrder, allocated, ok_bind, getLevel, access, pushed, best]
      by_cases improves :
          OrderBook.improves side order.price (book.ladder side).bestPrice = true
      · rw [if_pos improves, if_pos (show OrderBook.improves side order.price
          ((book.ladder side).setLevel _ level').bestPrice = true from improves),
          setBest ((book.ladder side).setLevel _ level') rfl rfl]
        rfl
      · rw [if_neg improves, if_neg (show ¬ OrderBook.improves side order.price
          ((book.ladder side).setLevel _ level').bestPrice = true from improves)]
        rfl
    · have core := refines.core_of_linked linked
      have sideOrders : (spec.rest side order).orders side =
          KeyedList.enqueue (orderPriority side) order (spec.orders side) :=
        Reference.Book.orders_setOrders_self ..
      have bestAfter := bestOf_enqueue side order (spec.orders side)
      rw [← sideOrders, ← refines.best side] at bestAfter
      exact refines.of_core
        ((core.attach (roomy side) levelRange soundOrder access after wrapped).withBest best)
        (Reference.Book.setOrders_minPrice ..) (Reference.Book.setOrders_maxPrice ..)
        (fun other different => (Reference.Book.orders_setOrders ..).trans (if_neg different))
        bestAfter.symm

/-- Resting a new order. -/
theorem Carries.restOrder
    (carries : Carries book spec)
    (order : Order) (side : Side)
    (fresh : ¬ spec.Contains order.id)
    (inRange : spec.minPrice ≤ order.price ∧ order.price ≤ spec.maxPrice) :
    (¬ HasFree book ∧
      book.restOrder order.id order.price order.quantity order.lifetime side side side =
        .error .badAlloc) ∨
    ∃ book',
      book.restOrder order.id order.price order.quantity order.lifetime side side side =
        .ok book' ∧
      Carries book' (spec.rest side order) ∧
      (1 ≤ order.quantity ∧ order.quantity ≤ 2147483647 → Refines book spec →
        RoomyBook spec → Refines book' (spec.rest side order)) := by
  obtain ⟨addr, free, linked⟩ := carries.linked
  rcases linked.pool.allocate order.id order.quantity order.lifetime side with
    ⟨noFree, refused⟩ | ⟨_, _, _, _, allocated, _⟩
  · refine Or.inl ⟨fun hasFree => ?_, ?_⟩
    · subst noFree
      exact hasFree linked.pool.chain
    · have refused : book.memoryPool.allocate order.id order.quantity order.lifetime side
          book.heap = .error .badAlloc := refused
      rw [OrderBook.restOrder, refused, error_bind]
  · exact Or.inr (carries.restOrder_of_allocated order side fresh inRange allocated)

/-- What an order that has been rested leaves. -/
theorem Carries.of_rested
    (carries : Carries book spec)
    {order : Order} {side : Side} {book' : OrderBook}
    (fresh : ¬ spec.Contains order.id)
    (inRange : spec.minPrice ≤ order.price ∧ order.price ≤ spec.maxPrice)
    (rested : book.restOrder order.id order.price order.quantity order.lifetime side side side =
      .ok book') :
    Carries book' (spec.rest side order) ∧
      (1 ≤ order.quantity ∧ order.quantity ≤ 2147483647 → Refines book spec →
        RoomyBook spec → Refines book' (spec.rest side order)) := by
  rcases carries.restOrder order side fresh inRange with
    ⟨_, refused⟩ | ⟨next, returned, left⟩
  · cases refused.symm.trans rested
  · obtain rfl : next = book' := Except.ok.inj (returned.symm.trans rested)
    exact left

/-- Resting an order fails only when the pool is exhausted. -/
theorem Carries.exhausted_of_restOrder
    (carries : Carries book spec)
    {order : Order} {side : Side} {fault : Fault}
    (fresh : ¬ spec.Contains order.id)
    (inRange : spec.minPrice ≤ order.price ∧ order.price ≤ spec.maxPrice)
    (failed : book.restOrder order.id order.price order.quantity order.lifetime side side side =
      .error fault) :
    (capacityOf book.memoryPool).Exhausted (book.memoryPool.currentlyAllocated + 1) := by
  obtain ⟨addr, free, linked⟩ := carries.linked
  cases allocated : book.memoryPool.allocate order.id order.quantity order.lifetime side
      book.heap with
  | error refusal =>
      rw [linked.currentlyAllocated_eq]
      exact linked.pool.exhausted_of_refused allocated
  | ok allocation =>
      obtain ⟨_, rested, _⟩ := carries.restOrder_of_allocated order side fresh inRange allocated
      cases failed.symm.trans rested

/-- The capacity after an order has been rested. -/
theorem Carries.capacity_restOrder
    (carries : Carries book spec)
    {id : OrderID} {price : Price} {quantity : Quantity} {lifetime : RestingLifetime}
    {side restingSide comparedSide : Side} {book' : OrderBook}
    (rested : book.restOrder id price quantity lifetime side restingSide comparedSide =
      .ok book') :
    ¬ (capacityOf book.memoryPool).Exhausted (book.memoryPool.currentlyAllocated + 1) ∧
      capacityOf book'.memoryPool =
        (capacityOf book.memoryPool).demand (book.memoryPool.currentlyAllocated + 1) := by
  obtain ⟨addr, free, linked⟩ := carries.linked
  obtain ⟨address, heap, allocated⟩ := allocate_of_restOrder rested
  rw [linked.currentlyAllocated_eq]
  exact linked.pool.capacity_allocate allocated

/-- The time in force of an order that rests decides its lifetime. -/
def restingLifetime (tif : TimeInForce) : RestingLifetime :=
  if tif = .gtc then .gtc else .day

theorem submitLimitOrderResting
    (refines : Refines book spec)
    (roomy : RoomyBook spec)
    {request : LimitOrderRequest}
    (fresh : ¬ spec.Contains request.id)
    (inRange : spec.minPrice ≤ request.price ∧ request.price ≤ spec.maxPrice)
    (nonneg : 0 ≤ request.quantity)
    (range : request.quantity ≤ 2147483647) :
    SimulatesUnlessExhausted book
      (OrderBook.submitLimitOrderResting request.side book request)
      (spec.submitResting request (restingLifetime request.tif)) := by
  have downward := downward_accepts request.side request.price
  obtain ⟨exit, run, refinesExit, matched⟩ :=
    runMatching refines roomy downward range
  have total := total_matching refines request.side.opposite
    (Reference.Book.accepts request.side request.price) request.quantity
  unfold OrderBook.submitLimitOrderResting Reference.Book.submitResting
  rw [crosses_eq_accepts, run, ok_bind]
  cases returned : exit.returned with
  | true =>
      have exact := (matched.returned returned).2
      refine Or.inr ⟨exit.book, ?_, ?_⟩
      · rw [if_pos rfl, matched.report_returned returned]
        simp only [exact, sub_self]
        rfl
      · simp only [exact, sub_self, if_true]
        exact refinesExit
  | false =>
      obtain ⟨left, _⟩ := matched.left returned
      simp only [left]
      rw [if_neg (by simp)]
      by_cases nothingLeft : request.quantity - (spec.matching request.side.opposite
          (Reference.Book.accepts request.side request.price) request.quantity).total = 0
      · simp only [nothingLeft, if_true, matched.report]
        exact Or.inr ⟨exit.book, rfl, refinesExit⟩
      · have sideEquality := refinesExit.carries.ladder_side request.side
        simp only [nothingLeft, if_false, sideEquality, matched.report]
        rcases refinesExit.carries.restOrder
          ⟨request.id, request.price, request.quantity -
            (spec.matching request.side.opposite
              (Reference.Book.accepts request.side request.price) request.quantity).total,
            restingLifetime request.tif⟩ request.side
          (fun present => fresh (Reference.Book.contains_of_afterMatching present))
          (by
            rw [Reference.Book.afterMatching, Reference.Book.setOrders_minPrice,
              Reference.Book.setOrders_maxPrice]
            exact inRange) with
          ⟨noFree, refused⟩ | ⟨book', rested, _, refinesAfter⟩
        · refine Or.inl ⟨fun hasFree => noFree (matched.keepsFree hasFree), ?_⟩
          exact congrArg (fun result => result >>= _) refused
        · refine Or.inr ⟨book', ?_, refinesAfter (by
            change (1 : Int) ≤ request.quantity - _ ∧ request.quantity - _ ≤ (2147483647 : Int)
            lia) refinesExit (roomy.afterMatching refines downward request.quantity)⟩
          refine (congrArg (fun result => result >>= _) rested).trans ?_
          rw [ok_bind]
          simp [Reference.Book.restingStatus, nothingLeft]

theorem rejects_iff
    (refines : Refines book spec) (request : LimitOrderRequest) :
    book.rejects request ↔ spec.Rejects request := by
  unfold OrderBook.rejects Reference.Book.Rejects
  rw [refines.mem_idMap, refines.minPrice, refines.maxPrice]

theorem submitLimitOrder
    (refines : Refines book spec)
    (roomy : RoomyBook spec)
    {request : LimitOrderRequest}
    (safe : spec.SafeLimit request) :
    SimulatesUnlessExhausted book (book.submitLimitOrder request)
      (spec.submitLimit request) := by
  obtain ⟨range, sign⟩ := safe
  unfold OrderBook.submitLimitOrder Reference.Book.submitLimit
  by_cases rejected : spec.Rejects request
  · rw [if_pos ((rejects_iff refines request).mpr rejected), if_pos rejected]
    exact Or.inr ⟨book, rfl, refines⟩
  · rw [if_neg fun rejects => rejected ((rejects_iff refines request).mp rejects),
      if_neg rejected]
    have sign := sign.resolve_left rejected
    unfold Reference.Book.Rejects at rejected
    simp only [not_or, not_lt] at rejected
    obtain ⟨fresh, upper, lower⟩ := rejected
    cases kind : request.tif with
    | gtc =>
        rw [kind] at sign
        have resting := submitLimitOrderResting refines roomy fresh ⟨lower, upper⟩ sign range
        rwa [kind] at resting
    | day =>
        rw [kind] at sign
        have resting := submitLimitOrderResting refines roomy fresh ⟨lower, upper⟩ sign range
        rwa [kind] at resting
    | ioc => exact Or.inr (submitLimitOrderIoc refines roomy range)
    | fok =>
        rw [kind] at sign
        exact Or.inr (submitLimitOrderFok refines roomy ⟨lower, upper⟩ sign range)

end Refinement
end MatchingEngine
