import MatchingEngine.Mirror.Ladder
import MatchingEngine.Mirror.Level

/-!
# Books in the mirror

Every operation but the session end does in the mirror, block for block, what it does
in front of it.
-/

namespace MatchingEngine
namespace PriceRange

open Transports
open Refinement (OnLadders)

variable {range : PriceRange} {book : OrderBook}

/-- A book over the range. -/
structure FramedBook (range : PriceRange) (book : OrderBook) : Prop where
  ladders : OnLadders (Framed range) book
  minPrice : book.minPrice = range.minPrice
  maxPrice : book.maxPrice = range.maxPrice

/-! ## Members -/

@[simp] theorem ladder_mirrorBook (range : PriceRange) (book : OrderBook) (side : Side) :
    (range.mirrorBook book).ladder side.opposite = range.mirrorLadder (book.ladder side) := by
  cases side <;> rfl

theorem bestPrice_mirrorLadder_eq_some
    (range : PriceRange) (ladder : PriceLadder) (price : Price) :
    (range.mirrorLadder ladder).bestPrice = some (range.mirrorPrice price) ↔
      ladder.bestPrice = some price := by
  rw [mirrorLadder, Option.map_eq_some_iff]
  simp only [mirrorPrice_inj, exists_eq_right]

theorem lookup_mirrorBook (range : PriceRange) (book : OrderBook) (id : OrderID) :
    (range.mirrorBook book).idToOrderMap.lookup id = book.idToOrderMap.lookup id := rfl

theorem setLadder_mirrorBook
    (range : PriceRange) (book : OrderBook) (side : Side) (ladder : PriceLadder) :
    (range.mirrorBook book).setLadder side.opposite (range.mirrorLadder ladder) =
      range.mirrorBook (book.setLadder side ladder) := by
  cases side <;> rfl

namespace FramedBook

theorem ladder (framed : FramedBook range book) (side : Side) : Framed range (book.ladder side) :=
  framed.ladders.ladder side

/-- New members, and a new ladder, of a book over the range. -/
theorem setLadder
    (framed : FramedBook range book)
    {ladder : PriceLadder}
    (framedLadder : Framed range ladder)
    (heap : Heap) (memoryPool : MemoryPool) (idToOrderMap : IdMap) (side : Side) :
    FramedBook range ({ book with heap, memoryPool, idToOrderMap }.setLadder side ladder) := by
  refine ⟨(framed.ladders.withMembers heap memoryPool idToOrderMap).setLadder framedLadder side,
    ?_, ?_⟩
  · rw [Refinement.setLadder_minPrice]
    exact framed.minPrice
  · rw [Refinement.setLadder_maxPrice]
    exact framed.maxPrice

theorem setLevel
    (framed : FramedBook range book)
    (heap : Heap) (address : LevelAddress) (level : PriceLevel) :
    FramedBook range ({ book with heap }.setLevel address level) :=
  framed.setLadder ((framed.ladder address.side).setLevel address.index level) heap
    book.memoryPool book.idToOrderMap address.side

theorem setLevel_mirrorBook
    (framed : FramedBook range book)
    (heap : Heap) (address : LevelAddress) (level : PriceLevel) :
    { range.mirrorBook book with heap := range.mirrorHeap heap }.setLevel
        (range.mirrorPlace address) (range.mirrorLevel level) =
      range.mirrorBook ({ book with heap }.setLevel address level) := by
  have ladder : { range.mirrorBook book with heap := range.mirrorHeap heap }.ladder
      address.side.opposite = range.mirrorLadder (book.ladder address.side) :=
    ladder_mirrorBook range { book with heap } address.side
  rw [OrderBook.setLevel, mirrorPlace, ladder,
    (framed.ladder address.side).setLevel_mirrorLadder address.index level]
  exact setLadder_mirrorBook range { book with heap } address.side _

end FramedBook

/-! ## Resting -/

theorem improves_mirrorPrice (range : PriceRange) (side : Side) (price : Price)
    (best : Option Price) :
    OrderBook.improves side.opposite (range.mirrorPrice price) (best.map range.mirrorPrice) =
      OrderBook.improves side price best := by
  cases best with
  | none => rfl
  | some best =>
      cases side <;> simp only [Side.opposite, Option.map_some, OrderBook.improves] <;>
        rw [decide_eq_decide] <;> unfold mirrorPrice <;> lia

namespace FramedBook

theorem restOrder
    (framed : FramedBook range book)
    (id : OrderID) (price : Price) (quantity : Quantity) (lifetime : RestingLifetime)
    (side restingSide comparedSide : Side) :
    Transports range.mirrorBook (FramedBook range)
      (book.restOrder id price quantity lifetime side restingSide comparedSide)
      ((range.mirrorBook book).restOrder id (range.mirrorPrice price) quantity lifetime
        side.opposite restingSide.opposite comparedSide.opposite) := by
  have framedLadder := framed.ladder restingSide
  unfold OrderBook.restOrder
  rw [ladder_mirrorBook]
  refine Transports.bind (of_equal (range.allocate_mirrorHeap ..)) ?_
  rintro ⟨orderToRest, memoryPool, heap⟩ _ _
  refine Transports.bind (of_equal (framedLadder.getLevelAtPrice_mirrorLadder price)) ?_
  intro index _ _
  refine Transports.bind (of_equal (framedLadder.level_mirrorLadder index)) ?_
  intro level _ _
  refine Transports.bind
    (of_equal (range.pushBack_mirrorLevel heap level ⟨restingSide, index⟩ orderToRest)) ?_
  rintro ⟨level, heap⟩ _ _
  have stored := framedLadder.setLevel_mirrorLadder index level
  have framedStored := framedLadder.setLevel index level
  dsimp only [Prod.map_apply, mirrorPlace] at stored ⊢
  rw [stored]
  have agree := range.improves_mirrorPrice comparedSide price
    ((book.ladder restingSide).setLevel index level).bestPrice
  refine branch (Iff.of_eq (congrArg (· = true) agree))
    (framedStored.setBestPrice price) (ok rfl framedStored) fun ladder framedLadder => ?_
  exact ok (setLadder_mirrorBook range { book with
      heap, memoryPool, idToOrderMap := book.idToOrderMap.emplace id orderToRest }
    restingSide ladder) (framed.setLadder framedLadder ..)

/-! ## Matching -/

theorem takeFromMaker
    (framed : FramedBook range book)
    (address : LevelAddress) (matchingLevel : PriceLevel) (remainingShares : Quantity) :
    Transports range.mirrorBook (FramedBook range)
      (book.takeFromMaker address matchingLevel remainingShares)
      ((range.mirrorBook book).takeFromMaker (range.mirrorPlace address)
        (range.mirrorLevel matchingLevel) remainingShares) := by
  refine Transports.bind
    (of_equal (range.takeSharesFromFirst_mirrorLevel book.heap matchingLevel remainingShares)) ?_
  rintro ⟨level, heap⟩ _ _
  exact ok (framed.setLevel_mirrorBook heap address level) (framed.setLevel heap address level)

theorem retireMaker
    (framed : FramedBook range book)
    (address : LevelAddress) (matchingLevel : PriceLevel) (bestPrice : Price)
    (takingOrderID : OrderID) :
    Transports range.mirrorBook (FramedBook range)
      (book.retireMaker address matchingLevel bestPrice takingOrderID)
      ((range.mirrorBook book).retireMaker (range.mirrorPlace address)
        (range.mirrorLevel matchingLevel) (range.mirrorPrice bestPrice) takingOrderID) := by
  have framedLadder := framed.ladder address.side
  unfold OrderBook.retireMaker
  refine Transports.bind (of_equal (range.popFront_mirrorLevel book.heap matchingLevel)) ?_
  rintro ⟨clearedOrder, level, heap⟩ _ _
  refine Transports.bind
    (of_equal (range.deallocate_mirrorHeap heap book.memoryPool clearedOrder)) ?_
  rintro ⟨memoryPool, heap⟩ _ _
  have stored := framedLadder.setLevel_mirrorLadder address.index level
  have framedStored := framedLadder.setLevel address.index level
  dsimp only [Prod.map_apply, mirrorPlace, id_eq]
  rw [ladder_mirrorBook, stored]
  refine branch Iff.rfl (framedStored.updateBestPriceFromGiven bestPrice) (ok rfl framedStored)
    fun ladder framedLadder => ?_
  exact ok (setLadder_mirrorBook range { book with
      heap, memoryPool, idToOrderMap := book.idToOrderMap.erase takingOrderID }
    address.side ladder) (framed.setLadder framedLadder ..)

end FramedBook

/-- The image of what a matching loop ends with. -/
def mirrorExit (range : PriceRange) (exit : OrderBook.LoopExit) : OrderBook.LoopExit :=
  { exit with
    book := range.mirrorBook exit.book
    subResult := range.mirrorSubmission exit.subResult }

theorem recordExecution_mirrorSubmission
    (range : PriceRange) (subResult : SubmissionResult) (makerOrderID : OrderID)
    (makerPrice : Price) (executedQuantity : Quantity) :
    OrderBook.recordExecution (range.mirrorSubmission subResult) makerOrderID
        (range.mirrorPrice makerPrice) executedQuantity =
      range.mirrorSubmission
        (OrderBook.recordExecution subResult makerOrderID makerPrice executedQuantity) := by
  simp [OrderBook.recordExecution, mirrorSubmission, mirrorExecution]

namespace FramedBook

theorem matchingLoop
    (framed : FramedBook range book)
    (matchingSide : Side) {takes takes' : Price → Bool}
    (agree : ∀ price, takes' (range.mirrorPrice price) = takes price)
    (fuel : Nat) (remainingShares : Quantity) (subResult : SubmissionResult) :
    Transports range.mirrorExit (fun exit => FramedBook range exit.book)
      (OrderBook.matchingLoop matchingSide takes fuel book remainingShares subResult)
      (OrderBook.matchingLoop matchingSide.opposite takes' fuel (range.mirrorBook book)
        remainingShares (range.mirrorSubmission subResult)) := by
  induction fuel generalizing book remainingShares subResult with
  | zero => exact error _
  | succ fuel inductionHypothesis =>
      have framedLadder := framed.ladder matchingSide
      unfold OrderBook.matchingLoop
      refine ite Iff.rfl (fun _ => ok rfl framed) fun _ => ?_
      rw [ladder_mirrorBook,
        show (range.mirrorLadder (book.ladder matchingSide)).bestPrice =
          (book.ladder matchingSide).bestPrice.map range.mirrorPrice from rfl]
      cases (book.ladder matchingSide).bestPrice with
      | none => exact ok rfl framed
      | some bestPrice =>
          refine ite (by rw [agree]) (fun _ => ok rfl framed) fun _ => ?_
          refine Transports.bind
            (of_equal (framedLadder.getLevelAtPrice_mirrorLadder bestPrice)) ?_
          intro index _ _
          refine Transports.bind (of_equal (framedLadder.level_mirrorLadder index)) ?_
          intro matchingLevel _ _
          refine Transports.bind (Transports.refl (deref matchingLevel.front)) ?_
          intro front _ _
          refine Transports.bind (of_equal (range.order_mirrorHeap book.heap front)) ?_
          intro takingOrder _ _
          refine ite Iff.rfl (fun _ => ?_) fun _ => ?_
          · refine Transports.bind
              (framed.takeFromMaker ⟨matchingSide, index⟩ matchingLevel remainingShares) ?_
            intro book _ framed
            exact ok (by rw [mirrorExit, recordExecution_mirrorSubmission]; rfl) framed
          · refine Transports.bind
              (framed.retireMaker ⟨matchingSide, index⟩ matchingLevel bestPrice takingOrder.id) ?_
            intro book _ framed
            have later := inductionHypothesis framed
              (toInt32 (remainingShares - takingOrder.quantity))
              (OrderBook.recordExecution subResult takingOrder.id bestPrice takingOrder.quantity)
            rwa [← recordExecution_mirrorSubmission] at later

theorem runMatching
    (framed : FramedBook range book)
    (matchingSide : Side) {takes takes' : Price → Bool}
    (agree : ∀ price, takes' (range.mirrorPrice price) = takes price)
    (quantity : Quantity) :
    Transports range.mirrorExit (fun exit => FramedBook range exit.book)
      (book.runMatching matchingSide takes quantity)
      ((range.mirrorBook book).runMatching matchingSide.opposite takes' quantity) :=
  framed.matchingLoop matchingSide agree _ quantity _

end FramedBook

/-! ## Submissions -/

theorem crosses_mirrorPrice (range : PriceRange) (side : Side) (orderPrice levelPrice : Price) :
    OrderBook.crosses side.opposite (range.mirrorPrice orderPrice)
        (range.mirrorPrice levelPrice) =
      OrderBook.crosses side orderPrice levelPrice := by
  cases side <;> simp only [Side.opposite, OrderBook.crosses] <;> rw [decide_eq_decide] <;>
    unfold mirrorPrice <;> lia

/-- A call that answers with a result does the same in the mirror. -/
def Mirrors
    (range : PriceRange) {α : Type} (image : α → α)
    (source target : Except Fault (α × OrderBook)) : Prop :=
  Transports (Prod.map image range.mirrorBook) (fun answer => FramedBook range answer.2)
    source target

namespace FramedBook

theorem submitMarketOrder (framed : FramedBook range book) (marketRequest : MarketOrderRequest) :
    Mirrors range range.mirrorSubmission (book.submitMarketOrder marketRequest)
      ((range.mirrorBook book).submitMarketOrder
        { marketRequest with side := marketRequest.side.opposite }) := by
  have all : ∀ price, (fun _ : Price => true) (range.mirrorPrice price) =
      (fun _ : Price => true) price := fun _ => rfl
  refine ite Iff.rfl (fun _ => ok rfl framed) fun _ => ?_
  refine Transports.bind (framed.runMatching marketRequest.side.opposite all
    marketRequest.quantity) ?_
  intro exit _ framed
  exact ite Iff.rfl (fun _ => ok rfl framed) fun _ => ok rfl framed

theorem submitLimitOrderResting
    (framed : FramedBook range book)
    (side : Side) (limitRequest : LimitOrderRequest) :
    Mirrors range range.mirrorSubmission
      (OrderBook.submitLimitOrderResting side book limitRequest)
      (OrderBook.submitLimitOrderResting side.opposite (range.mirrorBook book)
        (range.mirrorLimitRequest limitRequest)) := by
  refine Transports.bind (framed.runMatching side.opposite
    (range.crosses_mirrorPrice side limitRequest.price) limitRequest.quantity) ?_
  intro exit _ framed
  refine ite Iff.rfl (fun _ => ok rfl framed) fun _ => ?_
  refine ite Iff.rfl (fun _ => ok rfl framed) fun _ => ?_
  have sameSide : ((range.mirrorExit exit).book.ladder side.opposite).side =
      (exit.book.ladder side).side.opposite := by
    rw [mirrorExit, ladder_mirrorBook]
    rfl
  rw [sameSide]
  refine Transports.bind (framed.restOrder ..) ?_
  intro book _ framed
  exact ok rfl framed

theorem submitLimitOrderIoc
    (framed : FramedBook range book)
    (side : Side) (limitRequest : LimitOrderRequest) :
    Mirrors range range.mirrorSubmission
      (OrderBook.submitLimitOrderIoc side book limitRequest)
      (OrderBook.submitLimitOrderIoc side.opposite (range.mirrorBook book)
        (range.mirrorLimitRequest limitRequest)) := by
  refine Transports.bind (framed.runMatching side.opposite
    (range.crosses_mirrorPrice side limitRequest.price) limitRequest.quantity) ?_
  intro exit _ framed
  exact ite Iff.rfl (fun _ => ok rfl framed) fun _ => ok rfl framed

theorem submitLimitOrderFok
    (framed : FramedBook range book)
    (side : Side) (limitRequest : LimitOrderRequest) :
    Mirrors range range.mirrorSubmission
      (OrderBook.submitLimitOrderFok side book limitRequest)
      (OrderBook.submitLimitOrderFok side.opposite (range.mirrorBook book)
        (range.mirrorLimitRequest limitRequest)) := by
  have scans : Transports id (fun _ => True)
      ((book.ladder side.opposite).hasSufficientMarketableLiquidity limitRequest.price
        limitRequest.quantity)
      ((range.mirrorLadder (book.ladder side.opposite)).hasSufficientMarketableLiquidity
        (range.mirrorPrice limitRequest.price) limitRequest.quantity) := by
    rw [(framed.ladder side.opposite).hasSufficientMarketableLiquidity_mirrorLadder]
    exact Transports.refl _
  unfold OrderBook.submitLimitOrderFok
  rw [ladder_mirrorBook]
  refine Transports.bind scans ?_
  intro scan _ _
  refine ite Iff.rfl (fun _ => ok rfl framed) fun _ => ?_
  refine Transports.bind (framed.runMatching side.opposite
    (range.crosses_mirrorPrice side limitRequest.price) limitRequest.quantity) ?_
  intro exit _ framed
  refine ite Iff.rfl (fun _ => ok rfl framed) fun _ => ?_
  exact ite Iff.rfl (fun _ => ok rfl framed) fun _ => error _

/-- A price is above the range in the mirror if it is below it. -/
theorem above_iff (framed : FramedBook range book) (price : Price) :
    range.mirrorPrice price > book.maxPrice ↔ price < book.minPrice := by
  rw [framed.maxPrice, framed.minPrice]
  unfold mirrorPrice
  lia

theorem below_iff (framed : FramedBook range book) (price : Price) :
    range.mirrorPrice price < book.minPrice ↔ price > book.maxPrice := by
  rw [framed.maxPrice, framed.minPrice]
  unfold mirrorPrice
  lia

theorem rejects_mirrorLimitRequest
    (framed : FramedBook range book) (limitRequest : LimitOrderRequest) :
    (range.mirrorBook book).rejects (range.mirrorLimitRequest limitRequest) ↔
      book.rejects limitRequest :=
  or_congr Iff.rfl (((framed.above_iff limitRequest.price).or
    (framed.below_iff limitRequest.price)).trans or_comm)

theorem submitLimitOrder (framed : FramedBook range book) (limitRequest : LimitOrderRequest) :
    Mirrors range range.mirrorSubmission (book.submitLimitOrder limitRequest)
      ((range.mirrorBook book).submitLimitOrder (range.mirrorLimitRequest limitRequest)) := by
  refine ite (framed.rejects_mirrorLimitRequest limitRequest) (fun _ => ok rfl framed)
    fun _ => ?_
  rw [show (range.mirrorLimitRequest limitRequest).tif = limitRequest.tif from rfl]
  cases limitRequest.tif with
  | gtc | day => exact framed.submitLimitOrderResting limitRequest.side limitRequest
  | ioc => exact framed.submitLimitOrderIoc limitRequest.side limitRequest
  | fok => exact framed.submitLimitOrderFok limitRequest.side limitRequest

/-! ## Cancelling and modifying -/

theorem retireOrder_mirrorHeap
    (range : PriceRange) (address : BlockAddress) (registry : OrderBook.Registry) (heap : Heap) :
    OrderBook.retireOrder address registry (range.mirrorHeap heap) =
      (OrderBook.retireOrder address registry heap).map (Prod.map id range.mirrorHeap) := by
  refine sequence (range.order_mirrorHeap heap address) fun order => ?_
  exact sequence (range.deallocate_mirrorHeap heap registry.memoryPool (some address))
    fun _ => rfl

theorem cancelOrder (framed : FramedBook range book) (cancelRequest : CancelOrderRequest) :
    Mirrors range id (book.cancelOrder cancelRequest)
      ((range.mirrorBook book).cancelOrder cancelRequest) := by
  unfold OrderBook.cancelOrder
  rw [lookup_mirrorBook]
  cases book.idToOrderMap.lookup cancelRequest.id with
  | none => exact ok rfl framed
  | some cancelOrder =>
      refine Transports.bind (of_equal (range.order_mirrorHeap book.heap cancelOrder)) ?_
      intro order _ _
      have sameLevel : deref (range.mirrorOrder order).level =
          (deref order.level).map range.mirrorPlace := by
        rw [mirrorOrder]
        cases order.level <;> rfl
      refine Transports.bind (of_equal sameLevel) ?_
      intro address _ _
      rw [mirrorPlace, ladder_mirrorBook]
      refine Transports.bind
        (of_equal ((framed.ladder address.side).level_mirrorLadder address.index)) ?_
      intro level _ _
      refine Transports.bind
        (of_equal (range.removeOrder_mirrorLevel book.heap cancelOrder level address)) ?_
      rintro ⟨outcome, level, heap⟩ _ _
      have stored := framed.setLevel_mirrorBook heap address level
      have framed := framed.setLevel heap address level
      dsimp only [Prod.map_apply, mirrorPlace] at stored ⊢
      rw [stored]
      generalize { book with heap }.setLevel address level = removed at framed ⊢
      refine Transports.bind (of_equal (range.order_mirrorHeap removed.heap cancelOrder)) ?_
      intro order _ _
      have sameLadder : (range.mirrorBook removed).ladder (range.mirrorOrder order).side =
          range.mirrorLadder (removed.ladder order.side) :=
        ladder_mirrorBook range removed order.side
      rw [sameLadder]
      refine branch (and_congr Iff.rfl (bestPrice_mirrorLadder_eq_some ..))
        ((framed.ladder order.side).updateBestPriceFromGiven level.getPrice)
        (ok rfl (framed.ladder order.side)) fun ladder framedLadder => ?_
      refine Transports.bind (of_equal (retireOrder_mirrorHeap range cancelOrder _ removed.heap)) ?_
      rintro ⟨registry, heap⟩ _ _
      refine ok (Prod.ext rfl ?_) (framed.setLadder framedLadder ..)
      exact setLadder_mirrorBook range { removed with
        heap, memoryPool := registry.memoryPool, idToOrderMap := registry.idToOrderMap }
        order.side ladder

theorem modifyOrder
    (framed : FramedBook range book) (modificationRequest : ModifyOrderRequest) :
    Mirrors range range.mirrorModification (book.modifyOrder modificationRequest)
      ((range.mirrorBook book).modifyOrder { modificationRequest with
        newPrice := range.mirrorPrice modificationRequest.newPrice }) := by
  refine ite (((framed.above_iff modificationRequest.newPrice).or
    (framed.below_iff modificationRequest.newPrice)).trans or_comm) (fun _ => ok rfl framed)
    fun _ => ?_
  rw [lookup_mirrorBook]
  cases book.idToOrderMap.lookup modificationRequest.id with
  | none => exact ok rfl framed
  | some address =>
      refine Transports.bind (of_equal (range.order_mirrorHeap book.heap address)) ?_
      intro resubmitOrder _ _
      refine Transports.bind (framed.cancelOrder ⟨modificationRequest.id⟩) ?_
      rintro ⟨cancelResult, book⟩ _ framed
      refine ite Iff.rfl (fun _ => ?_) fun _ => ok rfl framed
      refine Transports.bind (framed.submitLimitOrder
        ⟨modificationRequest.id, modificationRequest.newPrice, modificationRequest.newQuantity,
          resubmitOrder.side, if resubmitOrder.lifetime = .gtc then .gtc else .day⟩) ?_
      rintro ⟨resubmitResult, book⟩ _ framed
      exact ok rfl framed

/-! ## Replay -/

theorem replayAddVisibleOrder
    (framed : FramedBook range book)
    (id : OrderID) (price : Price) (quantity : Quantity) (side : Side) :
    Mirrors range (fun succeeded => succeeded) (book.replayAddVisibleOrder id price quantity side)
      ((range.mirrorBook book).replayAddVisibleOrder id (range.mirrorPrice price) quantity
        side.opposite) := by
  refine ite (or_congr Iff.rfl (or_congr Iff.rfl (((framed.below_iff price).or
    (framed.above_iff price)).trans or_comm))) (fun _ => ok rfl framed) fun _ => ?_
  refine Transports.bind (framed.restOrder id price quantity .gtc side side side) ?_
  intro book _ framed
  exact ok rfl framed

theorem replayDeleteVisibleOrder (framed : FramedBook range book) (id : OrderID) :
    Mirrors range (fun succeeded => succeeded) (book.replayDeleteVisibleOrder id)
      ((range.mirrorBook book).replayDeleteVisibleOrder id) := by
  refine Transports.bind (framed.cancelOrder ⟨id⟩) ?_
  rintro ⟨cancelResult, book⟩ _ framed
  exact ok rfl framed

theorem replayReduceVisibleOrder
    (framed : FramedBook range book) (id : OrderID) (quantityReduced : Quantity) :
    Mirrors range (fun succeeded => succeeded) (book.replayReduceVisibleOrder id quantityReduced)
      ((range.mirrorBook book).replayReduceVisibleOrder id quantityReduced) := by
  refine ite Iff.rfl (fun _ => ok rfl framed) fun _ => ?_
  rw [lookup_mirrorBook]
  cases book.idToOrderMap.lookup id with
  | none => exact ok rfl framed
  | some order =>
      refine Transports.bind (of_equal (range.order_mirrorHeap book.heap order)) ?_
      intro restingOrder _ _
      refine ite Iff.rfl (fun _ => ok rfl framed) fun _ => ?_
      refine ite Iff.rfl (fun _ => framed.replayDeleteVisibleOrder id) fun _ => ?_
      rw [show (range.mirrorOrder restingOrder).level =
        restingOrder.level.map range.mirrorPlace from rfl]
      cases restingOrder.level with
      | none => exact error _
      | some address =>
          simp only [Option.map_some]
          rw [mirrorPlace, ladder_mirrorBook]
          refine Transports.bind
            (of_equal ((framed.ladder address.side).level_mirrorLadder address.index)) ?_
          intro level _ _
          refine Transports.bind (of_equal (range.reduceOrderQuantity_mirrorLevel book.heap order
            level address quantityReduced)) ?_
          rintro ⟨level, heap⟩ _ _
          exact ok (Prod.ext rfl (framed.setLevel_mirrorBook heap address level))
            (framed.setLevel heap address level)

theorem replayReplaceVisibleOrder
    (framed : FramedBook range book) (originalId newId : OrderID) (newPrice : Price)
    (newQuantity : Quantity) :
    Mirrors range (fun succeeded => succeeded)
      (book.replayReplaceVisibleOrder originalId newId newPrice newQuantity)
      ((range.mirrorBook book).replayReplaceVisibleOrder originalId newId
        (range.mirrorPrice newPrice) newQuantity) := by
  refine ite (or_congr Iff.rfl ((or_congr (framed.below_iff newPrice)
    (or_congr (framed.above_iff newPrice) Iff.rfl)).trans or_left_comm)) (fun _ => ok rfl framed)
    fun _ => ?_
  rw [lookup_mirrorBook]
  cases book.idToOrderMap.lookup originalId with
  | none => exact ok rfl framed
  | some original =>
      refine Transports.bind (of_equal (range.order_mirrorHeap book.heap original)) ?_
      intro originalOrder _ _
      refine Transports.bind (framed.replayDeleteVisibleOrder originalId) ?_
      rintro ⟨deleted, book⟩ _ framed
      refine ite Iff.rfl (fun _ => ok rfl framed) fun _ => ?_
      exact framed.replayAddVisibleOrder newId newPrice newQuantity originalOrder.side

/-! ## Queries -/

theorem getTopBidLevels_mirrorBook (framed : FramedBook range book) (depth : Nat) :
    (range.mirrorBook book).getTopBidLevels depth =
      (book.getTopAskLevels depth).map range.mirrorDepth :=
  (framed.ladder .sell).getTopLevels_mirrorLadder depth

theorem getTopAskLevels_mirrorBook (framed : FramedBook range book) (depth : Nat) :
    (range.mirrorBook book).getTopAskLevels depth =
      (book.getTopBidLevels depth).map range.mirrorDepth :=
  (framed.ladder .buy).getTopLevels_mirrorLadder depth

/-! ## Any operation -/

/-- Every operation but the session end commutes with the mirror. -/
theorem execute
    (framed : FramedBook range book)
    {operation : Operation}
    (during : operation ≠ .onSessionEnd) :
    Mirrors range range.mirrorOutput (book.execute operation)
      ((range.mirrorBook book).execute (range.mirrorOperation operation)) := by
  cases operation with
  | submitLimitOrder limitRequest =>
      refine Transports.bind (framed.submitLimitOrder limitRequest) ?_
      rintro ⟨result, book⟩ _ framed
      exact ok rfl framed
  | submitMarketOrder marketRequest =>
      refine Transports.bind (framed.submitMarketOrder marketRequest) ?_
      rintro ⟨result, book⟩ _ framed
      exact ok rfl framed
  | cancelOrder cancelRequest =>
      refine Transports.bind (framed.cancelOrder cancelRequest) ?_
      rintro ⟨result, book⟩ _ framed
      exact ok rfl framed
  | modifyOrder modificationRequest =>
      refine Transports.bind (framed.modifyOrder modificationRequest) ?_
      rintro ⟨result, book⟩ _ framed
      exact ok rfl framed
  | onSessionEnd => exact absurd rfl during
  | replayAddVisibleOrder id price quantity side =>
      refine Transports.bind (framed.replayAddVisibleOrder id price quantity side) ?_
      rintro ⟨succeeded, book⟩ _ framed
      exact ok rfl framed
  | replayDeleteVisibleOrder id =>
      refine Transports.bind (framed.replayDeleteVisibleOrder id) ?_
      rintro ⟨succeeded, book⟩ _ framed
      exact ok rfl framed
  | replayReduceVisibleOrder id quantityReduced =>
      refine Transports.bind (framed.replayReduceVisibleOrder id quantityReduced) ?_
      rintro ⟨succeeded, book⟩ _ framed
      exact ok rfl framed
  | replayReplaceVisibleOrder originalId newId newPrice newQuantity =>
      refine Transports.bind
        (framed.replayReplaceVisibleOrder originalId newId newPrice newQuantity) ?_
      rintro ⟨succeeded, book⟩ _ framed
      exact ok rfl framed

end FramedBook

end PriceRange
end MatchingEngine
