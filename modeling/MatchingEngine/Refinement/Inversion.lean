import MatchingEngine.Model.OrderBook

/-!
# What an operation that returned has done

For each operation of the book one lemma says what must have happened when it
returned: which guard let it through, what its parts returned, and which book and
answer came of them.  What the operations preserve is proved from these lemmas.
-/

namespace MatchingEngine

/-- A sequence whose first step depends on a condition. -/
theorem ite_bind_eq_ok
    {ε α β : Type} {condition : Prop} [Decidable condition] {first second : Except ε α}
    {continuation : α → Except ε β} {result : β}
    (succeeded : (if condition then first >>= continuation else second >>= continuation) =
      .ok result) :
    ∃ value, (if condition then first else second) = .ok value ∧
      continuation value = .ok result := by
  split at succeeded
  next holds =>
    rw [if_pos holds]
    exact bind_eq_ok succeeded
  next fails =>
    rw [if_neg fails]
    exact bind_eq_ok succeeded

/-! ## Best prices -/

namespace PriceLadder

variable {ladder ladder' : PriceLadder} {price : Price}

theorem setBestPrice_ok (raised : ladder.setBestPrice price = .ok ladder') :
    (ladder.minPrice ≤ price ∧ price ≤ ladder.maxPrice) ∧
      ladder' = { ladder with bestPrice := some price } := by
  unfold setBestPrice at raised
  split at raised
  · cases raised
  next inRange => exact ⟨(not_not.mp inRange).symm, (Except.ok.inj raised).symm⟩

theorem updateBestPriceFromGiven_ok
    (refreshed : ladder.updateBestPriceFromGiven price = .ok ladder') :
    (ladder.minPrice ≤ price ∧ price ≤ ladder.maxPrice) ∧
      ∃ best, ladder' = { ladder with bestPrice := best } := by
  unfold updateBestPriceFromGiven at refreshed
  split at refreshed
  · cases refreshed
  next inRange =>
  refine ⟨(not_not.mp inRange).symm, ?_⟩
  simp only at refreshed
  split at refreshed
  all_goals
    obtain ⟨found, _, refreshed⟩ := bind_eq_ok refreshed
    exact ⟨_, (Except.ok.inj refreshed).symm⟩

end PriceLadder

namespace Refinement

/-- What `prune_day_orders` does to the best price when its loop has ended. -/
def refreshBest (ladder : PriceLadder) : Except Fault PriceLadder :=
  match ladder.bestPrice with
  | none => .ok ladder
  | some bestPrice => do
      let index ← ladder.getLevelAtPrice bestPrice
      let currentBestPriceLevel ← ladder.level index
      if currentBestPriceLevel.empty then ladder.updateBestPriceFromGiven bestPrice
      else .ok ladder

variable {ladder ladder' : PriceLadder}

theorem refreshBest_ok (refreshed : refreshBest ladder = .ok ladder') :
    ladder' = ladder ∨
      ∃ bestPrice, ladder.updateBestPriceFromGiven bestPrice = .ok ladder' := by
  unfold refreshBest at refreshed
  split at refreshed
  · exact Or.inl (Except.ok.inj refreshed).symm
  next bestPrice _ =>
  obtain ⟨index, _, refreshed⟩ := bind_eq_ok refreshed
  obtain ⟨level, _, refreshed⟩ := bind_eq_ok refreshed
  split at refreshed
  · exact Or.inr ⟨bestPrice, refreshed⟩
  · exact Or.inl (Except.ok.inj refreshed).symm

/-- A refresh changes at most the best price. -/
theorem eq_withBest_of_refreshBest (refreshed : refreshBest ladder = .ok ladder') :
    ∃ best, ladder' = { ladder with bestPrice := best } := by
  rcases refreshBest_ok refreshed with rfl | ⟨bestPrice, refreshed⟩
  · exact ⟨ladder'.bestPrice, rfl⟩
  · exact (PriceLadder.updateBestPriceFromGiven_ok refreshed).2

theorem pruneDayOrders_eq_refreshBest
    {σ : Type} (ladder : PriceLadder) (fuel : Nat)
    (onPrunedOrder : BlockAddress → σ → Heap → Except Fault (σ × Heap))
    (dayResult : DayOrderPruneResult) (state : σ) (heap : Heap) :
    ladder.pruneDayOrders fuel onPrunedOrder dayResult state heap = (do
      let (dayResult, ladder, state, heap) ← PriceLadder.pruneLevels fuel onPrunedOrder
        ladder.levels.length 0 dayResult ladder state heap
      let ladder ← refreshBest ladder
      .ok (dayResult, ladder, state, heap)) := by
  unfold PriceLadder.pruneDayOrders
  refine bind_congr ?_
  rintro ⟨dayResult, ladder, state, heap⟩
  unfold refreshBest
  cases isBest : ladder.bestPrice with
  | none => simp only [isBest, ok_bind]
  | some bestPrice =>
      simp only [isBest, bind_assoc]
      refine bind_congr fun index => bind_congr fun level => ?_
      split <;> rfl

/-- The loop over the levels, then the refresh. -/
theorem pruneDayOrders_ok
    {σ : Type} {onPrunedOrder : BlockAddress → σ → Heap → Except Fault (σ × Heap)}
    {fuel : Nat}
    {dayResult dayResult' : DayOrderPruneResult} {state state' : σ} {heap heap' : Heap}
    (pruned : ladder.pruneDayOrders fuel onPrunedOrder dayResult state heap =
      .ok (dayResult', ladder', state', heap')) :
    ∃ emptied,
      PriceLadder.pruneLevels fuel onPrunedOrder ladder.levels.length 0 dayResult ladder state
        heap = .ok (dayResult', emptied, state', heap') ∧
      refreshBest emptied = .ok ladder' := by
  rw [pruneDayOrders_eq_refreshBest] at pruned
  obtain ⟨⟨_, emptied, _, _⟩, loop, pruned⟩ := bind_eq_ok pruned
  obtain ⟨refreshed, refresh, pruned⟩ := bind_eq_ok pruned
  cases pruned
  exact ⟨emptied, loop, refresh⟩

end Refinement

namespace OrderBook

variable {book book' : OrderBook} {side : Side}

/-! ## Resting and matching -/

theorem restOrder_ok
    {id : OrderID} {price : Price} {quantity : Quantity} {lifetime : RestingLifetime}
    {restingSide comparedSide : Side}
    (rested : book.restOrder id price quantity lifetime side restingSide comparedSide =
      .ok book') :
    ∃ orderToRest memoryPool heap index restingLevel heap' levels,
      book.memoryPool.allocate id quantity lifetime side book.heap =
        .ok (orderToRest, memoryPool, heap) ∧
      (if improves comparedSide price
            ((book.ladder restingSide).setLevel index restingLevel).bestPrice then
          ((book.ladder restingSide).setLevel index restingLevel).setBestPrice price
        else .ok ((book.ladder restingSide).setLevel index restingLevel)) = .ok levels ∧
      book' = { book with
        heap := heap'
        memoryPool
        idToOrderMap := book.idToOrderMap.emplace id orderToRest }.setLadder
          restingSide levels := by
  obtain ⟨⟨orderToRest, memoryPool, heap⟩, allocated, rested⟩ := bind_eq_ok rested
  obtain ⟨index, _, rested⟩ := bind_eq_ok rested
  obtain ⟨level, _, rested⟩ := bind_eq_ok rested
  obtain ⟨⟨restingLevel, heap'⟩, _, rested⟩ := bind_eq_ok rested
  obtain ⟨levels, raised, rested⟩ := ite_bind_eq_ok rested
  exact ⟨orderToRest, memoryPool, heap, index, restingLevel, heap', levels, allocated, raised,
    (Except.ok.inj rested).symm⟩

theorem takeFromMaker_ok
    {address : LevelAddress} {matchingLevel : PriceLevel} {remainingShares : Quantity}
    (taken : book.takeFromMaker address matchingLevel remainingShares = .ok book') :
    ∃ level heap,
      matchingLevel.takeSharesFromFirst remainingShares book.heap = .ok (level, heap) ∧
      book' = { book with heap }.setLevel address level := by
  obtain ⟨⟨level, heap⟩, reduced, taken⟩ := bind_eq_ok taken
  exact ⟨level, heap, reduced, (Except.ok.inj taken).symm⟩

theorem retireMaker_ok
    {address : LevelAddress} {matchingLevel : PriceLevel} {bestPrice : Price}
    {takingOrderID : OrderID}
    (retired : book.retireMaker address matchingLevel bestPrice takingOrderID = .ok book') :
    ∃ clearedOrder level heap memoryPool heap' levels,
      matchingLevel.popFront book.heap = .ok (clearedOrder, level, heap) ∧
      book.memoryPool.deallocate clearedOrder heap = .ok (memoryPool, heap') ∧
      (if level.empty then
          ((book.ladder address.side).setLevel address.index level).updateBestPriceFromGiven
            bestPrice
        else .ok ((book.ladder address.side).setLevel address.index level)) = .ok levels ∧
      book' = { book with
        heap := heap'
        memoryPool
        idToOrderMap := book.idToOrderMap.erase takingOrderID }.setLadder
          address.side levels := by
  obtain ⟨⟨clearedOrder, level, heap⟩, popped, retired⟩ := bind_eq_ok retired
  obtain ⟨⟨memoryPool, heap'⟩, deallocated, retired⟩ := bind_eq_ok retired
  obtain ⟨levels, refreshed, retired⟩ := ite_bind_eq_ok retired
  exact ⟨clearedOrder, level, heap, memoryPool, heap', levels, popped, deallocated, refreshed,
    (Except.ok.inj retired).symm⟩

/-- The maker of an iteration of the matching loop: the first order of the best
level, at a price that the taker accepts. -/
structure Meets
    (matchingSide : Side) (takes : Price → Bool) (book : OrderBook)
    (remainingShares : Quantity) (bestPrice : Price) (index : Nat)
    (matchingLevel : PriceLevel) (takingOrder : RestingOrder) : Prop where
  wanted : 0 < remainingShares
  best : (book.ladder matchingSide).bestPrice = some bestPrice
  accepted : takes bestPrice = true
  found : (book.ladder matchingSide).getLevelAtPrice bestPrice = .ok index
  access : (book.ladder matchingSide).level index = .ok matchingLevel
  first : ∃ front, deref matchingLevel.front = .ok front ∧
    book.heap.order front = .ok takingOrder

/-- The iterations of a matching loop that returned. -/
inductive Iterations (matchingSide : Side) (takes : Price → Bool) :
    OrderBook → Quantity → SubmissionResult → LoopExit → Prop
  | stop
      {book : OrderBook} {remainingShares : Quantity} {subResult : SubmissionResult}
      (nothingToTake : 0 < remainingShares →
        ∀ bestPrice ∈ (book.ladder matchingSide).bestPrice, takes bestPrice = false) :
      Iterations matchingSide takes book remainingShares subResult
        ⟨false, book, remainingShares, subResult⟩
  | take
      {book book' : OrderBook} {remainingShares : Quantity} {subResult : SubmissionResult}
      {bestPrice : Price} {index : Nat} {matchingLevel : PriceLevel}
      {takingOrder : RestingOrder}
      (meets : Meets matchingSide takes book remainingShares bestPrice index matchingLevel
        takingOrder)
      (larger : remainingShares < takingOrder.quantity)
      (taken : book.takeFromMaker ⟨matchingSide, index⟩ matchingLevel remainingShares =
        .ok book') :
      Iterations matchingSide takes book remainingShares subResult
        ⟨true, book', remainingShares,
          { recordExecution subResult takingOrder.id bestPrice remainingShares with
            status := .filled }⟩
  | retire
      {book book' : OrderBook} {remainingShares : Quantity} {subResult : SubmissionResult}
      {exit : LoopExit} {bestPrice : Price} {index : Nat} {matchingLevel : PriceLevel}
      {takingOrder : RestingOrder}
      (meets : Meets matchingSide takes book remainingShares bestPrice index matchingLevel
        takingOrder)
      (usedUp : takingOrder.quantity ≤ remainingShares)
      (retired : book.retireMaker ⟨matchingSide, index⟩ matchingLevel bestPrice
        takingOrder.id = .ok book')
      (rest : Iterations matchingSide takes book'
        (toInt32 (remainingShares - takingOrder.quantity))
        (recordExecution subResult takingOrder.id bestPrice takingOrder.quantity) exit) :
      Iterations matchingSide takes book remainingShares subResult exit

theorem iterations_of_matchingLoop
    {matchingSide : Side} {takes : Price → Bool} {fuel : Nat} {remainingShares : Quantity}
    {subResult : SubmissionResult} {exit : LoopExit}
    (returned : matchingLoop matchingSide takes fuel book remainingShares subResult = .ok exit) :
    Iterations matchingSide takes book remainingShares subResult exit := by
  induction fuel generalizing book remainingShares subResult with
  | zero => cases returned
  | succ fuel inductionHypothesis =>
      unfold matchingLoop at returned
      split at returned
      next unwanted =>
        obtain rfl := Except.ok.inj returned
        exact .stop fun wanted => absurd wanted unwanted
      next wanted =>
      split at returned
      next none =>
        obtain rfl := Except.ok.inj returned
        exact .stop (by simp [none])
      next bestPrice best =>
      split at returned
      next refused =>
        obtain rfl := Except.ok.inj returned
        exact .stop (by simpa [best] using fun _ => refused)
      next accepted =>
      obtain ⟨index, found, returned⟩ := bind_eq_ok returned
      obtain ⟨level, access, returned⟩ := bind_eq_ok returned
      obtain ⟨front, isFront, returned⟩ := bind_eq_ok returned
      obtain ⟨takingOrder, stored, returned⟩ := bind_eq_ok returned
      have meets : Meets matchingSide takes book remainingShares bestPrice index level
          takingOrder :=
        ⟨not_not.mp wanted, best, not_not.mp accepted, found, access, front, isFront, stored⟩
      split at returned
      next larger =>
        obtain ⟨book', taken, returned⟩ := bind_eq_ok returned
        obtain rfl := Except.ok.inj returned
        exact .take meets larger taken
      next usedUp =>
        obtain ⟨book', retired, returned⟩ := bind_eq_ok returned
        exact .retire meets (not_lt.mp usedUp) retired (inductionHypothesis returned)

/-! ## Submissions -/

/-- The answer to a submission whose remainder is dropped. -/
def droppedResult (quantity : Quantity) (exit : LoopExit) : SubmissionResult :=
  if exit.returned then exit.subResult
  else { exit.subResult with status := dropStatus exit.remainingShares quantity }

theorem drop_eq_ok (quantity : Quantity) (exit : LoopExit) :
    (if exit.returned then (Except.ok (exit.subResult, exit.book) : Except Fault _)
      else .ok ({ exit.subResult with
        status := dropStatus exit.remainingShares quantity }, exit.book)) =
      .ok (droppedResult quantity exit, exit.book) := by
  unfold droppedResult
  split <;> rfl

theorem submitMarketOrder_ok
    {request : MarketOrderRequest} {result : SubmissionResult}
    (submitted : book.submitMarketOrder request = .ok (result, book')) :
    (request.id ∈ book.idToOrderMap ∧ book' = book) ∨
      ∃ exit,
        book.runMatching request.side.opposite (fun _ => true) request.quantity = .ok exit ∧
        result = droppedResult request.quantity exit ∧ book' = exit.book := by
  unfold submitMarketOrder at submitted
  split at submitted
  next inMap => exact Or.inl ⟨inMap, (Prod.mk.inj (Except.ok.inj submitted)).2.symm⟩
  obtain ⟨exit, ran, submitted⟩ := bind_eq_ok submitted
  rw [drop_eq_ok] at submitted
  obtain ⟨rfl, rfl⟩ := Prod.mk.inj (Except.ok.inj submitted)
  exact Or.inr ⟨exit, ran, rfl, rfl⟩

theorem submitLimitOrderIoc_ok
    {request : LimitOrderRequest} {result : SubmissionResult}
    (submitted : submitLimitOrderIoc side book request = .ok (result, book')) :
    ∃ exit,
      book.runMatching side.opposite (crosses side request.price) request.quantity =
        .ok exit ∧
      result = droppedResult request.quantity exit ∧ book' = exit.book := by
  obtain ⟨exit, ran, submitted⟩ := bind_eq_ok submitted
  rw [drop_eq_ok] at submitted
  obtain ⟨rfl, rfl⟩ := Prod.mk.inj (Except.ok.inj submitted)
  exact ⟨exit, ran, rfl, rfl⟩

theorem submitLimitOrderFok_ok
    {request : LimitOrderRequest} {result : SubmissionResult}
    (submitted : submitLimitOrderFok side book request = .ok (result, book')) :
    (result = { quantityRequested := request.quantity, status := .killed } ∧ book' = book) ∨
      ∃ exit,
        book.runMatching side.opposite (crosses side request.price) request.quantity =
          .ok exit ∧
        (exit.returned = true ∧ result = exit.subResult ∨
          exit.remainingShares = 0 ∧ result = { exit.subResult with status := .filled }) ∧
        book' = exit.book := by
  obtain ⟨scan, _, submitted⟩ := bind_eq_ok submitted
  split at submitted
  · obtain ⟨rfl, rfl⟩ := Prod.mk.inj (Except.ok.inj submitted)
    exact Or.inl ⟨rfl, rfl⟩
  obtain ⟨exit, ran, submitted⟩ := bind_eq_ok submitted
  split at submitted
  next returned =>
    obtain ⟨rfl, rfl⟩ := Prod.mk.inj (Except.ok.inj submitted)
    exact Or.inr ⟨exit, ran, Or.inl ⟨returned, rfl⟩, rfl⟩
  split at submitted
  next nothingLeft =>
    obtain ⟨rfl, rfl⟩ := Prod.mk.inj (Except.ok.inj submitted)
    exact Or.inr ⟨exit, ran, Or.inr ⟨nothingLeft, rfl⟩, rfl⟩
  next => cases submitted

theorem submitLimitOrderResting_ok
    {request : LimitOrderRequest} {result : SubmissionResult}
    (submitted : submitLimitOrderResting side book request = .ok (result, book')) :
    ∃ exit,
      book.runMatching side.opposite (crosses side request.price) request.quantity =
        .ok exit ∧
      (book' = exit.book ∧
          (exit.returned = true ∧ result = exit.subResult ∨
            exit.remainingShares = 0 ∧ result = { exit.subResult with status := .filled }) ∨
        exit.book.restOrder request.id request.price exit.remainingShares
            (if request.tif = .gtc then .gtc else .day) request.side side
            (exit.book.ladder side).side = .ok book' ∧
          exit.remainingShares ≠ 0 ∧
          result = { exit.subResult with
            status :=
              if exit.remainingShares < request.quantity then .partiallyFilledResting
              else .resting }) := by
  obtain ⟨exit, ran, submitted⟩ := bind_eq_ok submitted
  refine ⟨exit, ran, ?_⟩
  split at submitted
  next returned =>
    obtain ⟨rfl, rfl⟩ := Prod.mk.inj (Except.ok.inj submitted)
    exact Or.inl ⟨rfl, Or.inl ⟨returned, rfl⟩⟩
  split at submitted
  next nothingLeft =>
    obtain ⟨rfl, rfl⟩ := Prod.mk.inj (Except.ok.inj submitted)
    exact Or.inl ⟨rfl, Or.inr ⟨nothingLeft, rfl⟩⟩
  next remains =>
    obtain ⟨next, rested, submitted⟩ := bind_eq_ok submitted
    obtain ⟨rfl, rfl⟩ := Prod.mk.inj (Except.ok.inj submitted)
    exact Or.inr ⟨rested, remains, rfl⟩

/-- GTC and DAY orders may rest. -/
theorem submitLimitOrder_ok
    {request : LimitOrderRequest} {result : SubmissionResult}
    (submitted : book.submitLimitOrder request = .ok (result, book')) :
    (book.rejects request ∧
        result = { quantityRequested := request.quantity, status := .rejected } ∧
        book' = book) ∨
      ¬ book.rejects request ∧
        ((request.tif = .gtc ∨ request.tif = .day) ∧
            submitLimitOrderResting request.side book request = .ok (result, book') ∨
          submitLimitOrderIoc request.side book request = .ok (result, book') ∨
          submitLimitOrderFok request.side book request = .ok (result, book')) := by
  unfold submitLimitOrder at submitted
  split at submitted
  next rejected =>
    obtain ⟨rfl, rfl⟩ := Prod.mk.inj (Except.ok.inj submitted)
    exact Or.inl ⟨rejected, rfl, rfl⟩
  next accepted =>
  refine Or.inr ⟨accepted, ?_⟩
  cases kind : request.tif with
  | gtc =>
      rw [kind] at submitted
      exact Or.inl ⟨Or.inl rfl, submitted⟩
  | day =>
      rw [kind] at submitted
      exact Or.inl ⟨Or.inr rfl, submitted⟩
  | ioc =>
      rw [kind] at submitted
      exact Or.inr (Or.inl submitted)
  | fok =>
      rw [kind] at submitted
      exact Or.inr (Or.inr submitted)

/-- An order that may rest and is not rejected. -/
theorem submitLimitOrder_of_mayRest
    {request : LimitOrderRequest}
    (mayRest : request.tif = .gtc ∨ request.tif = .day)
    (accepted : ¬ book.rejects request) :
    book.submitLimitOrder request = submitLimitOrderResting request.side book request := by
  unfold submitLimitOrder
  rw [if_neg accepted]
  rcases mayRest with gtc | day
  · simp only [gtc]
  · simp only [day]

/-! ## Cancelling and modifying -/

/-- `removed` is the book once the order has left its level. -/
theorem cancelOrder_ok
    {request : CancelOrderRequest} {result : CancelResult}
    (cancelled : book.cancelOrder request = .ok (result, book')) :
    (book.idToOrderMap.lookup request.id = none ∧ book' = book) ∨
      ∃ cancelOrder address level heap removed, ∃ order : RestingOrder,
        ∃ levels registry heap',
        book.idToOrderMap.lookup request.id = some cancelOrder ∧
        removed = { book with heap }.setLevel address level ∧
        (if level.empty = true ∧
              (removed.ladder order.side).bestPrice = some level.getPrice then
            (removed.ladder order.side).updateBestPriceFromGiven level.getPrice
          else .ok (removed.ladder order.side)) = .ok levels ∧
        retireOrder cancelOrder ⟨removed.idToOrderMap, removed.memoryPool⟩ removed.heap =
          .ok (registry, heap') ∧
        book' = { removed with
          heap := heap'
          memoryPool := registry.memoryPool
          idToOrderMap := registry.idToOrderMap }.setLadder order.side levels := by
  unfold OrderBook.cancelOrder at cancelled
  split at cancelled
  next absent => exact Or.inl ⟨absent, (Prod.mk.inj (Except.ok.inj cancelled)).2.symm⟩
  next cancelOrder found =>
  obtain ⟨_, _, cancelled⟩ := bind_eq_ok cancelled
  obtain ⟨address, _, cancelled⟩ := bind_eq_ok cancelled
  obtain ⟨_, _, cancelled⟩ := bind_eq_ok cancelled
  obtain ⟨⟨_, level, heap⟩, _, cancelled⟩ := bind_eq_ok cancelled
  obtain ⟨order, _, cancelled⟩ := bind_eq_ok cancelled
  obtain ⟨levels, refreshed, cancelled⟩ := ite_bind_eq_ok cancelled
  obtain ⟨⟨registry, heap'⟩, retired, cancelled⟩ := bind_eq_ok cancelled
  obtain ⟨_, rfl⟩ := Prod.mk.inj (Except.ok.inj cancelled)
  exact Or.inr ⟨cancelOrder, address, level, heap, _, order, levels, registry, heap', found,
    rfl, refreshed, retired, rfl⟩

theorem modifyOrder_ok
    {request : ModifyOrderRequest} {result : ModificationResult}
    (modified : book.modifyOrder request = .ok (result, book')) :
    (book' = book) ∨
      ∃ address resubmitOrder cancelResult middle,
        book.idToOrderMap.lookup request.id = some address ∧
        book.heap.order address = .ok resubmitOrder ∧
        book.cancelOrder ⟨request.id⟩ = .ok (cancelResult, middle) ∧
        (¬ request.newQuantity > 0 ∧ book' = middle ∧ result.status = .canceled ∨
          request.newQuantity > 0 ∧ result.status = .resubmitted ∧ ∃ resubmitResult,
            middle.submitLimitOrder
                ⟨request.id, request.newPrice, request.newQuantity, resubmitOrder.side,
                  if resubmitOrder.lifetime = .gtc then .gtc else .day⟩ =
              .ok (resubmitResult, book')) := by
  unfold modifyOrder at modified
  split at modified
  · exact Or.inl (Prod.mk.inj (Except.ok.inj modified)).2.symm
  split at modified
  · exact Or.inl (Prod.mk.inj (Except.ok.inj modified)).2.symm
  next address found =>
  obtain ⟨resubmitOrder, stored, modified⟩ := bind_eq_ok modified
  obtain ⟨⟨cancelResult, middle⟩, cancelled, modified⟩ := bind_eq_ok modified
  refine Or.inr ⟨address, resubmitOrder, cancelResult, middle, found, stored, cancelled, ?_⟩
  simp only at modified
  split at modified
  next resubmits =>
    obtain ⟨⟨resubmitResult, last⟩, submitted, modified⟩ := bind_eq_ok modified
    obtain ⟨rfl, rfl⟩ := Prod.mk.inj (Except.ok.inj modified)
    exact Or.inr ⟨resubmits, rfl, resubmitResult, submitted⟩
  next only =>
    obtain ⟨rfl, rfl⟩ := Prod.mk.inj (Except.ok.inj modified)
    exact Or.inl ⟨only, rfl, rfl⟩

/-! ## Session end -/

theorem pruneSide_ok
    {result result' : DayOrderPruneResult}
    (pruned : book.pruneSide side result = .ok (result', book')) :
    ((book.ladder side).empty = true ∧ result' = result ∧ book' = book) ∨
      ¬ (book.ladder side).empty = true ∧
        ∃ levels registry heap,
          (book.ladder side).pruneDayOrders book.memoryPool.currentlyAllocated retireOrder
              result ⟨book.idToOrderMap, book.memoryPool⟩ book.heap =
            .ok (result', levels, registry, heap) ∧
          book' = { book with
            heap
            memoryPool := registry.memoryPool
            idToOrderMap := registry.idToOrderMap }.setLadder side levels := by
  unfold pruneSide at pruned
  split at pruned
  next empty =>
    obtain ⟨rfl, rfl⟩ := Prod.mk.inj (Except.ok.inj pruned)
    exact Or.inl ⟨empty, rfl, rfl⟩
  next occupied =>
    obtain ⟨⟨_, levels, registry, heap⟩, prunedLadder, pruned⟩ := bind_eq_ok pruned
    obtain ⟨rfl, rfl⟩ := Prod.mk.inj (Except.ok.inj pruned)
    exact Or.inr ⟨occupied, levels, registry, heap, prunedLadder, rfl⟩

/-! ## Replay -/

theorem replayAddVisibleOrder_ok
    {id : OrderID} {price : Price} {quantity : Quantity} {added : Bool}
    (returned : book.replayAddVisibleOrder id price quantity side = .ok (added, book')) :
    (added = false ∧ book' = book) ∨
      added = true ∧ book.restOrder id price quantity .gtc side side side = .ok book' := by
  unfold replayAddVisibleOrder at returned
  split at returned
  · obtain ⟨rfl, rfl⟩ := Prod.mk.inj (Except.ok.inj returned)
    exact Or.inl ⟨rfl, rfl⟩
  · obtain ⟨next, rested, returned⟩ := bind_eq_ok returned
    obtain ⟨rfl, rfl⟩ := Prod.mk.inj (Except.ok.inj returned)
    exact Or.inr ⟨rfl, rested⟩

theorem replayDeleteVisibleOrder_ok
    {id : OrderID} {deleted : Bool}
    (returned : book.replayDeleteVisibleOrder id = .ok (deleted, book')) :
    ∃ cancelResult,
      book.cancelOrder ⟨id⟩ = .ok (cancelResult, book') ∧
      deleted = decide (cancelResult.status = .canceled) := by
  obtain ⟨⟨cancelResult, next⟩, cancelled, returned⟩ := bind_eq_ok returned
  obtain ⟨rfl, rfl⟩ := Prod.mk.inj (Except.ok.inj returned)
  exact ⟨cancelResult, cancelled, rfl⟩

/-- A reduction by all that is left deletes the order. -/
theorem replayReduceVisibleOrder_ok
    {id : OrderID} {quantityReduced : Quantity} {reduced : Bool}
    (returned : book.replayReduceVisibleOrder id quantityReduced = .ok (reduced, book')) :
    (reduced = false ∧ book' = book) ∨
      book.replayDeleteVisibleOrder id = .ok (reduced, book') ∨
      reduced = true ∧ ∃ address level heap, book' = { book with heap }.setLevel address level := by
  unfold replayReduceVisibleOrder at returned
  split at returned
  · obtain ⟨rfl, rfl⟩ := Prod.mk.inj (Except.ok.inj returned)
    exact Or.inl ⟨rfl, rfl⟩
  split at returned
  · obtain ⟨rfl, rfl⟩ := Prod.mk.inj (Except.ok.inj returned)
    exact Or.inl ⟨rfl, rfl⟩
  obtain ⟨order, _, returned⟩ := bind_eq_ok returned
  split at returned
  · obtain ⟨rfl, rfl⟩ := Prod.mk.inj (Except.ok.inj returned)
    exact Or.inl ⟨rfl, rfl⟩
  split at returned
  · exact Or.inr (Or.inl returned)
  split at returned
  · cases returned
  next address _ =>
  obtain ⟨_, _, returned⟩ := bind_eq_ok returned
  obtain ⟨⟨level, heap⟩, _, returned⟩ := bind_eq_ok returned
  obtain ⟨rfl, rfl⟩ := Prod.mk.inj (Except.ok.inj returned)
  exact Or.inr (Or.inr ⟨rfl, address, level, heap, rfl⟩)

/-- The original order is deleted before the new one is added. -/
theorem replayReplaceVisibleOrder_ok
    {originalId newId : OrderID} {newPrice : Price} {newQuantity : Quantity} {replaced : Bool}
    (returned : book.replayReplaceVisibleOrder originalId newId newPrice newQuantity =
      .ok (replaced, book')) :
    (replaced = false ∧ book' = book) ∨
      ∃ deleted middle,
        book.replayDeleteVisibleOrder originalId = .ok (deleted, middle) ∧
        (replaced = false ∧ book' = middle ∨
          ∃ side, middle.replayAddVisibleOrder newId newPrice newQuantity side =
            .ok (replaced, book')) := by
  unfold replayReplaceVisibleOrder at returned
  split at returned
  · obtain ⟨rfl, rfl⟩ := Prod.mk.inj (Except.ok.inj returned)
    exact Or.inl ⟨rfl, rfl⟩
  split at returned
  · obtain ⟨rfl, rfl⟩ := Prod.mk.inj (Except.ok.inj returned)
    exact Or.inl ⟨rfl, rfl⟩
  obtain ⟨originalOrder, _, returned⟩ := bind_eq_ok returned
  obtain ⟨⟨deleted, middle⟩, deletion, returned⟩ := bind_eq_ok returned
  refine Or.inr ⟨deleted, middle, deletion, ?_⟩
  simp only at returned
  split at returned
  · obtain ⟨rfl, rfl⟩ := Prod.mk.inj (Except.ok.inj returned)
    exact Or.inl ⟨rfl, rfl⟩
  · exact Or.inr ⟨originalOrder.side, returned⟩

end OrderBook
end MatchingEngine
