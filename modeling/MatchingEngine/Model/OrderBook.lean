import MatchingEngine.Model.MemoryPool
import MatchingEngine.Model.PriceLadder
import Mathlib.Data.Finmap

/-!
# The order book

The public operations of the book, as the source computes them.  The loop that
executes an incoming order against the opposite ladder occurs four times in the
source; the four copies differ only in the prices they accept, and are one
definition here with that test as a parameter.
-/

namespace MatchingEngine

/-- `std::unordered_map<OrderID, core::RestingOrder*>`. -/
abbrev IdMap := Finmap fun _ : OrderID => BlockAddress

/-- `emplace` keeps the old value of a key that is present. -/
def IdMap.emplace (map : IdMap) (id : OrderID) (address : BlockAddress) : IdMap :=
  if id ∈ map then map else map.insert id address

/-- The members of the book, and the heap with the blocks of its pool. -/
structure OrderBook where
  heap : Heap
  memoryPool : MemoryPool
  idToOrderMap : IdMap
  bidLevels : PriceLadder
  askLevels : PriceLadder
  minPrice : Price
  maxPrice : Price

namespace OrderBook

/-- The constructor. -/
def create (config : OrderBookConfig) : Except Fault OrderBook := do
  let (memoryPool, heap) ← MemoryPool.create config.initialPoolSize fun _ => .raw
  let bidLevels ← PriceLadder.create config.minPrice config.maxPrice .buy
  let askLevels ← PriceLadder.create config.minPrice config.maxPrice .sell
  .ok
    { heap, memoryPool, bidLevels, askLevels
      idToOrderMap := ∅
      minPrice := config.minPrice
      maxPrice := config.maxPrice }

/-- The ladder of a side. -/
def ladder (book : OrderBook) : Side → PriceLadder
  | .buy => book.bidLevels
  | .sell => book.askLevels

/-- Replace the ladder of a side. -/
def setLadder (book : OrderBook) (side : Side) (ladder : PriceLadder) : OrderBook :=
  match side with
  | .buy => { book with bidLevels := ladder }
  | .sell => { book with askLevels := ladder }

/-- Replace one level. -/
def setLevel (book : OrderBook) (address : LevelAddress) (level : PriceLevel) :
    OrderBook :=
  book.setLadder address.side ((book.ladder address.side).setLevel address.index level)

/-! ## Queries -/

/-- Orders in the id map. -/
def getNumOrders (book : OrderBook) : Nat := book.idToOrderMap.keys.card

/-- The cached best bid price. -/
def getBestBidPrice (book : OrderBook) : Option Price := book.bidLevels.bestPrice

/-- The cached best ask price. -/
def getBestAskPrice (book : OrderBook) : Option Price := book.askLevels.bestPrice

/-- Bid prices with orders. -/
def getNumLevelsBids (book : OrderBook) : Nat := book.bidLevels.getNumNonEmptyLevels

/-- Ask prices with orders. -/
def getNumLevelsAsks (book : OrderBook) : Nat := book.askLevels.getNumNonEmptyLevels

/-- The best bid prices, so many of them, with their volumes. -/
def getTopBidLevels (book : OrderBook) (depth : Nat) :
    Except Fault (List (Price × Volume)) :=
  book.bidLevels.getTopLevels depth

/-- The best ask prices, so many of them, with their volumes. -/
def getTopAskLevels (book : OrderBook) (depth : Nat) :
    Except Fault (List (Price × Volume)) :=
  book.askLevels.getTopLevels depth

/-- Blocks of the pool. -/
def getMemoryPoolSize (book : OrderBook) : Nat := book.memoryPool.totalElements

/-- Blocks of the pool that are in use. -/
def getMemoryPoolCurrAlloc (book : OrderBook) : Nat := book.memoryPool.currentlyAllocated

/-- The level that the queries about one price look at. -/
def levelAt (book : OrderBook) (level : Price) (side : Side) : Except Fault PriceLevel := do
  let index ← (book.ladder side).getLevelAtPrice level
  (book.ladder side).level index

/-- Orders of one price. -/
def getNumOrdersAtLevel (book : OrderBook) (level : Price) (side : Side) :
    Except Fault Nat := do
  let found ← book.levelAt level side
  .ok found.getOrderCount

/-- Shares of one price. -/
def getNumSharesAtLevel (book : OrderBook) (level : Price) (side : Side) :
    Except Fault Volume := do
  let found ← book.levelAt level side
  .ok found.getTotalVolume

/-- There are orders of one price. -/
def checkLevelExists (book : OrderBook) (level : Price) (side : Side) :
    Except Fault Bool := do
  let found ← book.levelAt level side
  .ok !found.empty

/-! ## Retiring and resting orders -/

/-- The members of the book that `retire_order` works on, beside the heap. -/
structure Registry where
  idToOrderMap : IdMap
  memoryPool : MemoryPool

/-- Erase an order from the id map and give its block back. -/
def retireOrder (address : BlockAddress) (registry : Registry) (heap : Heap) :
    Except Fault (Registry × Heap) := do
  let order ← heap.order address
  let (memoryPool, heap) ← registry.memoryPool.deallocate (some address) heap
  .ok (⟨registry.idToOrderMap.erase order.id, memoryPool⟩, heap)

/-- Whether a price on a side is better than the cached best price. -/
def improves (side : Side) (price : Price) : Option Price → Bool
  | none => true
  | some currentBestPrice =>
      match side with
      | .buy => decide (price > currentBestPrice)
      | .sell => decide (price < currentBestPrice)

/-- Allocate an order, queue it, register it and raise the cached best price.
The order is of side `side`, rests on the ladder of `restingSide`, and its price
is compared in the direction of `comparedSide`. -/
def restOrder
    (book : OrderBook) (id : OrderID) (price : Price) (quantity : Quantity)
    (lifetime : RestingLifetime) (side restingSide comparedSide : Side) :
    Except Fault OrderBook := do
  let (orderToRest, memoryPool, heap) ←
    book.memoryPool.allocate id quantity lifetime side book.heap
  let index ← (book.ladder restingSide).getLevelAtPrice price
  let restingLevel ← (book.ladder restingSide).level index
  let (restingLevel, heap) ← restingLevel.pushBack ⟨restingSide, index⟩ orderToRest heap
  let restingLevels := (book.ladder restingSide).setLevel index restingLevel
  let restingLevels ←
    if improves comparedSide price restingLevels.bestPrice then
      restingLevels.setBestPrice price
    else .ok restingLevels
  .ok ({ book with
    heap, memoryPool
    idToOrderMap := book.idToOrderMap.emplace id orderToRest }.setLadder
      restingSide restingLevels)

/-! ## Matching -/

/-- `crosses<S>`: an order of side `side` and price `orderPrice` trades at
`levelPrice`. -/
def crosses (side : Side) (orderPrice levelPrice : Price) : Bool :=
  match side with
  | .buy => decide (orderPrice ≥ levelPrice)
  | .sell => decide (orderPrice ≤ levelPrice)

/-- How a matching loop ends: by a `return` from inside the loop, or by leaving
it with some shares remaining. -/
structure LoopExit where
  returned : Bool
  book : OrderBook
  remainingShares : Quantity
  subResult : SubmissionResult

/-- Record one execution in a submission result. -/
def recordExecution
    (subResult : SubmissionResult) (makerOrderID : OrderID) (makerPrice : Price)
    (executedQuantity : Quantity) : SubmissionResult :=
  { subResult with
    executions := subResult.executions ++ [⟨makerOrderID, makerPrice, executedQuantity⟩]
    quantityFilled := toInt32 (subResult.quantityFilled + executedQuantity) }

/-- The branch of the loop in which the maker is larger than what remains. -/
def takeFromMaker
    (book : OrderBook) (address : LevelAddress) (matchingLevel : PriceLevel)
    (remainingShares : Quantity) : Except Fault OrderBook := do
  let (matchingLevel, heap) ←
    matchingLevel.takeSharesFromFirst remainingShares book.heap
  .ok ({ book with heap }.setLevel address matchingLevel)

/-- The branch of the loop in which the maker is used up: it leaves the map, its
level and the pool, and the best price moves on when its level is empty. -/
def retireMaker
    (book : OrderBook) (address : LevelAddress) (matchingLevel : PriceLevel)
    (bestPrice : Price) (takingOrderID : OrderID) : Except Fault OrderBook := do
  let idToOrderMap := book.idToOrderMap.erase takingOrderID
  let (clearedOrder, matchingLevel, heap) ← matchingLevel.popFront book.heap
  let (memoryPool, heap) ← book.memoryPool.deallocate clearedOrder heap
  let matchingLevels := (book.ladder address.side).setLevel address.index matchingLevel
  let matchingLevels ←
    if matchingLevel.empty then matchingLevels.updateBestPriceFromGiven bestPrice
    else .ok matchingLevels
  .ok ({ book with heap, memoryPool, idToOrderMap }.setLadder address.side matchingLevels)

/-- The matching loop against the ladder of `matchingSide`, for the prices that
`takes` accepts. -/
def matchingLoop (matchingSide : Side) (takes : Price → Bool) :
    Nat → OrderBook → Quantity → SubmissionResult → Except Fault LoopExit
  | 0, _, _, _ => .error .nonTermination
  | fuel + 1, book, remainingShares, subResult =>
      if ¬ remainingShares > 0 then .ok ⟨false, book, remainingShares, subResult⟩
      else
        match (book.ladder matchingSide).bestPrice with
        | none => .ok ⟨false, book, remainingShares, subResult⟩
        | some bestPrice =>
            if ¬ takes bestPrice then .ok ⟨false, book, remainingShares, subResult⟩
            else do
              let index ← (book.ladder matchingSide).getLevelAtPrice bestPrice
              let matchingLevel ← (book.ladder matchingSide).level index
              let front ← deref matchingLevel.front
              let takingOrder ← book.heap.order front
              if takingOrder.quantity > remainingShares then do
                let book ← book.takeFromMaker ⟨matchingSide, index⟩ matchingLevel
                  remainingShares
                .ok ⟨true, book, remainingShares,
                  { recordExecution subResult takingOrder.id bestPrice remainingShares with
                    status := .filled }⟩
              else do
                let book ← book.retireMaker ⟨matchingSide, index⟩ matchingLevel bestPrice
                  takingOrder.id
                matchingLoop matchingSide takes fuel book
                  (toInt32 (remainingShares - takingOrder.quantity))
                  (recordExecution subResult takingOrder.id bestPrice takingOrder.quantity)

/-- Run the matching loop.  Every iteration but the last frees an order, so the
number of live orders bounds their number. -/
def runMatching
    (book : OrderBook) (matchingSide : Side) (takes : Price → Bool) (quantity : Quantity) :
    Except Fault LoopExit :=
  matchingLoop matchingSide takes (book.memoryPool.currentlyAllocated + 1) book quantity
    { quantityRequested := quantity }

/-- Status of an order whose remainder is dropped. -/
def dropStatus (remainingShares quantity : Quantity) : SubmitStatus :=
  if remainingShares = 0 then .filled
  else if remainingShares < quantity then .partiallyFilledCanceled
  else .canceled

/-- Trade at any price; what remains is dropped. -/
def submitMarketOrder (book : OrderBook) (marketRequest : MarketOrderRequest) :
    Except Fault (SubmissionResult × OrderBook) :=
  if marketRequest.id ∈ book.idToOrderMap then
    .ok ({ quantityRequested := marketRequest.quantity, status := .rejected }, book)
  else do
    let exit ← book.runMatching marketRequest.side.opposite (fun _ => true)
      marketRequest.quantity
    if exit.returned then .ok (exit.subResult, exit.book)
    else .ok ({ exit.subResult with
      status := dropStatus exit.remainingShares marketRequest.quantity }, exit.book)

/-- `submit_limit_order_resting<S>`: what remains after trading is queued. -/
def submitLimitOrderResting
    (side : Side) (book : OrderBook) (limitRequest : LimitOrderRequest) :
    Except Fault (SubmissionResult × OrderBook) := do
  let exit ← book.runMatching side.opposite (crosses side limitRequest.price)
    limitRequest.quantity
  if exit.returned then .ok (exit.subResult, exit.book)
  else if exit.remainingShares = 0 then
    .ok ({ exit.subResult with status := .filled }, exit.book)
  else
    let lifetime := if limitRequest.tif = .gtc then .gtc else .day
    let book ← exit.book.restOrder limitRequest.id limitRequest.price
      exit.remainingShares lifetime limitRequest.side side (exit.book.ladder side).side
    .ok ({ exit.subResult with
      status :=
        if exit.remainingShares < limitRequest.quantity then .partiallyFilledResting
        else .resting }, book)

/-- `submit_limit_order_ioc<S>`: what remains after trading is dropped. -/
def submitLimitOrderIoc
    (side : Side) (book : OrderBook) (limitRequest : LimitOrderRequest) :
    Except Fault (SubmissionResult × OrderBook) := do
  let exit ← book.runMatching side.opposite (crosses side limitRequest.price)
    limitRequest.quantity
  if exit.returned then .ok (exit.subResult, exit.book)
  else .ok ({ exit.subResult with
    status := dropStatus exit.remainingShares limitRequest.quantity }, exit.book)

/-- `submit_limit_order_fok<S>`: trade only when the ladder has shares enough. -/
def submitLimitOrderFok
    (side : Side) (book : OrderBook) (limitRequest : LimitOrderRequest) :
    Except Fault (SubmissionResult × OrderBook) := do
  let scan ← (book.ladder side.opposite).hasSufficientMarketableLiquidity
    limitRequest.price limitRequest.quantity
  if ¬ scan.sufficient then
    .ok ({ quantityRequested := limitRequest.quantity, status := .killed }, book)
  else
    let exit ← book.runMatching side.opposite (crosses side limitRequest.price)
      limitRequest.quantity
    if exit.returned then .ok (exit.subResult, exit.book)
    else if exit.remainingShares = 0 then
      .ok ({ exit.subResult with status := .filled }, exit.book)
    else .error .assertionFailed

/-- The guard of `submit_limit_order`. -/
def rejects (book : OrderBook) (limitRequest : LimitOrderRequest) : Prop :=
  limitRequest.id ∈ book.idToOrderMap ∨ limitRequest.price > book.maxPrice ∨
    limitRequest.price < book.minPrice

instance (book : OrderBook) (limitRequest : LimitOrderRequest) :
    Decidable (book.rejects limitRequest) :=
  inferInstanceAs (Decidable (_ ∨ _ ∨ _))

/-- Submit a limit order of any time in force. -/
def submitLimitOrder (book : OrderBook) (limitRequest : LimitOrderRequest) :
    Except Fault (SubmissionResult × OrderBook) :=
  if book.rejects limitRequest then
    .ok ({ quantityRequested := limitRequest.quantity, status := .rejected }, book)
  else
    match limitRequest.tif with
    | .gtc | .day => submitLimitOrderResting limitRequest.side book limitRequest
    | .ioc => submitLimitOrderIoc limitRequest.side book limitRequest
    | .fok => submitLimitOrderFok limitRequest.side book limitRequest

/-! ## Cancelling and modifying -/

/-- Take an order out of the book.  Its quantity is read before its block is given back. -/
def cancelOrder (book : OrderBook) (cancelRequest : CancelOrderRequest) :
    Except Fault (CancelResult × OrderBook) :=
  match book.idToOrderMap.lookup cancelRequest.id with
  | none => .ok ({ status := .notFound }, book)
  | some cancelOrder => do
      let order ← book.heap.order cancelOrder
      let address ← deref order.level
      let cancellationLevel ← (book.ladder address.side).level address.index
      let (_, cancellationLevel, heap) ←
        cancellationLevel.removeOrder address cancelOrder book.heap
      let book := { book with heap }.setLevel address cancellationLevel
      let order ← book.heap.order cancelOrder
      let restingLevels := book.ladder order.side
      let cancelPrice := cancellationLevel.getPrice
      let restingLevels ←
        if cancellationLevel.empty ∧ restingLevels.bestPrice = some cancelPrice then
          restingLevels.updateBestPriceFromGiven cancelPrice
        else .ok restingLevels
      let (registry, heap) ←
        retireOrder cancelOrder ⟨book.idToOrderMap, book.memoryPool⟩ book.heap
      .ok (⟨order.quantity, .canceled⟩,
        { book with
          heap
          memoryPool := registry.memoryPool
          idToOrderMap := registry.idToOrderMap }.setLadder order.side restingLevels)

/-- Cancel an order and submit it again, at the end of its new queue. -/
def modifyOrder (book : OrderBook) (modificationRequest : ModifyOrderRequest) :
    Except Fault (ModificationResult × OrderBook) :=
  if modificationRequest.newPrice > book.maxPrice ∨
      modificationRequest.newPrice < book.minPrice then
    .ok ({ status := .rejected, resubmissionResult := none }, book)
  else
    match book.idToOrderMap.lookup modificationRequest.id with
    | none => .ok ({ status := .notFound, resubmissionResult := none }, book)
    | some address => do
        let resubmitOrder ← book.heap.order address
        let originalLifetime : TimeInForce :=
          if resubmitOrder.lifetime = .gtc then .gtc else .day
        let (cancelResult, book) ← book.cancelOrder ⟨modificationRequest.id⟩
        if modificationRequest.newQuantity > 0 then do
          let (resubmitResult, book) ← book.submitLimitOrder
            ⟨modificationRequest.id, modificationRequest.newPrice,
              modificationRequest.newQuantity, resubmitOrder.side, originalLifetime⟩
          .ok (⟨resubmitOrder.quantity, .resubmitted, some resubmitResult⟩, book)
        else .ok (⟨cancelResult.quantityCancelled, .canceled, none⟩, book)

/-! ## Session end -/

/-- One side of `on_session_end`.  No level holds more orders than are live. -/
def pruneSide (book : OrderBook) (side : Side) (sessionResult : DayOrderPruneResult) :
    Except Fault (DayOrderPruneResult × OrderBook) :=
  if (book.ladder side).empty then .ok (sessionResult, book)
  else do
    let (sessionResult, levels, registry, heap) ←
      (book.ladder side).pruneDayOrders book.memoryPool.currentlyAllocated retireOrder
        sessionResult ⟨book.idToOrderMap, book.memoryPool⟩ book.heap
    .ok (sessionResult,
      { book with
        heap
        memoryPool := registry.memoryPool
        idToOrderMap := registry.idToOrderMap }.setLadder side levels)

/-- Prune the DAY orders of both sides. -/
def onSessionEnd (book : OrderBook) : Except Fault (DayOrderPruneResult × OrderBook) := do
  let (sessionResult, book) ← book.pruneSide .buy {}
  book.pruneSide .sell sessionResult

/-! ## Replay -/

/-- Queue an order without trading. -/
def replayAddVisibleOrder
    (book : OrderBook) (id : OrderID) (price : Price) (quantity : Quantity) (side : Side) :
    Except Fault (Bool × OrderBook) :=
  if quantity = 0 ∨ id ∈ book.idToOrderMap ∨ price < book.minPrice ∨
      price > book.maxPrice then
    .ok (false, book)
  else do
    let book ← book.restOrder id price quantity .gtc side side side
    .ok (true, book)

/-- Take an order out of the book. -/
def replayDeleteVisibleOrder (book : OrderBook) (id : OrderID) :
    Except Fault (Bool × OrderBook) := do
  let (cancelResult, book) ← book.cancelOrder ⟨id⟩
  .ok (decide (cancelResult.status = .canceled), book)

/-- Take shares off an order, which keeps its place unless none remain. -/
def replayReduceVisibleOrder
    (book : OrderBook) (id : OrderID) (quantityReduced : Quantity) :
    Except Fault (Bool × OrderBook) :=
  if quantityReduced = 0 then .ok (false, book)
  else
    match book.idToOrderMap.lookup id with
    | none => .ok (false, book)
    | some order => do
        let restingOrder ← book.heap.order order
        if quantityReduced > restingOrder.quantity then .ok (false, book)
        else if quantityReduced = restingOrder.quantity then
          book.replayDeleteVisibleOrder id
        else
          match restingOrder.level with
          | none => .error .assertionFailed
          | some address => do
              let level ← (book.ladder address.side).level address.index
              let (level, heap) ←
                level.reduceOrderQuantity address order quantityReduced book.heap
              .ok (true, { book with heap }.setLevel address level)

/-- Delete an order and add another one on its side.  Every guard of the addition has been
tested before the deletion. -/
def replayReplaceVisibleOrder
    (book : OrderBook) (originalId newId : OrderID) (newPrice : Price)
    (newQuantity : Quantity) : Except Fault (Bool × OrderBook) :=
  if newQuantity = 0 ∨ newPrice < book.minPrice ∨ newPrice > book.maxPrice ∨
      newId ∈ book.idToOrderMap then
    .ok (false, book)
  else
    match book.idToOrderMap.lookup originalId with
    | none => .ok (false, book)
    | some original => do
        let originalOrder ← book.heap.order original
        let (deleted, book) ← book.replayDeleteVisibleOrder originalId
        if ¬ deleted then .ok (false, book)
        else book.replayAddVisibleOrder newId newPrice newQuantity originalOrder.side

/-! ## Any operation -/

/-- Call a public method. -/
def execute (book : OrderBook) : Operation → Except Fault (Output × OrderBook)
  | .submitLimitOrder limitRequest => do
      let (result, book) ← book.submitLimitOrder limitRequest
      .ok (.submission result, book)
  | .submitMarketOrder marketRequest => do
      let (result, book) ← book.submitMarketOrder marketRequest
      .ok (.submission result, book)
  | .cancelOrder cancelRequest => do
      let (result, book) ← book.cancelOrder cancelRequest
      .ok (.cancellation result, book)
  | .modifyOrder modificationRequest => do
      let (result, book) ← book.modifyOrder modificationRequest
      .ok (.modification result, book)
  | .onSessionEnd => do
      let (result, book) ← book.onSessionEnd
      .ok (.sessionEnd result, book)
  | .replayAddVisibleOrder id price quantity side => do
      let (succeeded, book) ← book.replayAddVisibleOrder id price quantity side
      .ok (.replay succeeded, book)
  | .replayDeleteVisibleOrder id => do
      let (succeeded, book) ← book.replayDeleteVisibleOrder id
      .ok (.replay succeeded, book)
  | .replayReduceVisibleOrder id quantityReduced => do
      let (succeeded, book) ← book.replayReduceVisibleOrder id quantityReduced
      .ok (.replay succeeded, book)
  | .replayReplaceVisibleOrder originalId newId newPrice newQuantity => do
      let (succeeded, book) ←
        book.replayReplaceVisibleOrder originalId newId newPrice newQuantity
      .ok (.replay succeeded, book)

end OrderBook

end MatchingEngine
