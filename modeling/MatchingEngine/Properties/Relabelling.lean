import MatchingEngine.Properties.Depth
import MatchingEngine.Refinement.Equivariance

/-!
# The engine treats all ids and all prices alike

The engine never computes with an id, and with a price only to find its level.
Calls with other ids and other prices in the same order get the same answers, in
those ids and prices, and lead to books with the same queues.
-/

namespace MatchingEngine
namespace Properties

open OrderBook (BookRun PublicCalls sampleConfig sampleSession sampleRun_public)
open Reference (Order Relabelling Ledger)
open Refinement

variable {book left right fresh : OrderBook} {spec : Reference.Book}
variable {events : List (Event OrderBook Operation Output)}

/-! ## Relabelled answers -/

/-- Every query returns on the second book what it returns on the first, with other
prices. -/
structure AnswersRelabelled (prices : Price → Price) (left right : OrderBook) : Prop where
  numOrders : right.getNumOrders = left.getNumOrders
  currAlloc : right.getMemoryPoolCurrAlloc = left.getMemoryPoolCurrAlloc
  bestBid : right.getBestBidPrice = left.getBestBidPrice.map prices
  bestAsk : right.getBestAskPrice = left.getBestAskPrice.map prices
  numLevelsBids : right.getNumLevelsBids = left.getNumLevelsBids
  numLevelsAsks : right.getNumLevelsAsks = left.getNumLevelsAsks
  topBids : ∀ depth, right.getTopBidLevels depth =
    (left.getTopBidLevels depth).map (List.map (Prod.map prices id))
  topAsks : ∀ depth, right.getTopAskLevels depth =
    (left.getTopAskLevels depth).map (List.map (Prod.map prices id))
  numOrdersAt : ∀ price side, right.getNumOrdersAtLevel (prices price) side =
    left.getNumOrdersAtLevel price side
  numSharesAt : ∀ price side, right.getNumSharesAtLevel (prices price) side =
    left.getNumSharesAtLevel price side
  levelExists : ∀ price side, right.checkLevelExists (prices price) side =
    left.checkLevelExists price side

section Answers

variable (labels : Relabelling)

theorem queueAt_book (spec : Reference.Book) (side : Side) (price : Price) :
    queueAt side (labels.prices price) ((labels.book spec).orders side) =
      (queueAt side price (spec.orders side)).map labels.order :=
  labels.queue_book spec side price

theorem volume_queueAt_book (spec : Reference.Book) (side : Side) (price : Price) :
    volume (queueAt side (labels.prices price) ((labels.book spec).orders side)) =
      volume (queueAt side price (spec.orders side)) := by
  rw [queueAt_book, volume, Fill.offered, List.map_map]
  rfl

theorem occupied_book (spec : Reference.Book) (side : Side) :
    (ledgerOfBook (labels.book spec)).occupied (labels.prices spec.minPrice)
        (labels.prices spec.maxPrice) side =
      ((ledgerOfBook spec).occupied spec.minPrice spec.maxPrice side).map labels.prices := by
  apply labels.filter_pricesOf
  · intro price
    simp only [queue_ledgerOfBook, queueAt_book, ne_eq, List.map_eq_nil_iff]
  · intro price occupied
    refine @Relabelling.queue_book_ne_nil labels spec side price fun empty => ?_
    have noIds : (ledgerOfBook (labels.book spec)).queue side price = [] :=
      (queue_ledgerOfBook ..).trans (congrArg (List.map Order.id) empty)
    simp [noIds] at occupied

theorem depth_book
    {spec : Reference.Book}
    (distinct : spec.Distinct)
    (distinctBook : (labels.book spec).Distinct)
    (side : Side) (depth : Nat) :
    (ledgerOfBook (labels.book spec)).depth (labels.prices spec.minPrice)
        (labels.prices spec.maxPrice) side depth =
      ((ledgerOfBook spec).depth spec.minPrice spec.maxPrice side depth).map
        (Prod.map labels.prices id) := by
  rw [Ledger.depth, Ledger.depth, occupied_book, ← List.map_take, List.map_map, List.map_map]
  apply List.map_congr_left
  intro price _
  simp only [Function.comp_apply, volume_ledgerOfBook distinctBook, volume_ledgerOfBook distinct,
    volume_queueAt_book, Prod.map, id]

variable {labels}

/-- A book for the relabelled orders gives the relabelled answers. -/
theorem answersRelabelled_of_refines
    (leftRefines : Refines left spec)
    (rightRefines : Refines right (labels.book spec))
    (roomy : RoomyBook spec) :
    AnswersRelabelled labels.prices left right := by
  have roomyBook : RoomyBook (labels.book spec) := roomy.withLabels labels
  have best : ∀ side, (right.ladder side).bestPrice =
      (left.ladder side).bestPrice.map labels.prices := by
    intro side
    rw [rightRefines.best, leftRefines.best, bestOf, bestOf, Relabelling.orders_book,
      List.head?_map, Option.map_map, Option.map_map]
    rfl
  have numLevels : ∀ side, (right.ladder side).getNumNonEmptyLevels =
      (left.ladder side).getNumNonEmptyLevels := by
    intro side
    have leftLevels := length_levelEntries (leftRefines.view_eq ▸ leftRefines)
      (leftRefines.view_eq ▸ roomy) side
    have rightLevels := length_levelEntries (rightRefines.view_eq ▸ rightRefines)
      (rightRefines.view_eq ▸ roomyBook) side
    rw [leftLevels, rightLevels, levelEntries, levelEntries, leftRefines.view_eq,
      rightRefines.view_eq, List.length_map, List.length_map]
    exact (congrArg List.length (occupied_book labels spec side)).trans (List.length_map _)
  have top : ∀ side depth, (right.ladder side).getTopLevels depth =
      ((left.ladder side).getTopLevels depth).map (List.map (Prod.map labels.prices id)) := by
    intro side depth
    rw [leftRefines.getTopLevels_eq roomy, rightRefines.getTopLevels_eq roomyBook]
    exact congrArg Except.ok (depth_book labels leftRefines.valid.distinct
      rightRefines.valid.distinct side depth)
  have sameNumber : ((labels.book spec).bids ++ (labels.book spec).asks).length =
      (spec.bids ++ spec.asks).length := by
    simp [Relabelling.book]
  have numOrders : right.getNumOrders = left.getNumOrders := by
    rw [leftRefines.carries.getNumOrders_eq, rightRefines.carries.getNumOrders_eq, sameNumber]
  have currAlloc : right.getMemoryPoolCurrAlloc = left.getMemoryPoolCurrAlloc := by
    have leftLive := leftRefines.carries.currentlyAllocated_eq
    have rightLive := rightRefines.carries.currentlyAllocated_eq
    exact rightLive.trans (sameNumber.trans leftLive.symm)
  have level : ∀ price side, (∃ leftLevel rightLevel,
        left.levelAt price side = .ok leftLevel ∧
        right.levelAt (labels.prices price) side = .ok rightLevel ∧
        rightLevel.orderCount = leftLevel.orderCount ∧
        rightLevel.totalVolume = leftLevel.totalVolume) ∨
      left.levelAt price side = .error .assertionFailed ∧
        right.levelAt (labels.prices price) side = .error .assertionFailed := by
    intro price side
    have sameRange : labels.prices spec.minPrice ≤ labels.prices price ∧
        labels.prices price ≤ labels.prices spec.maxPrice ↔
          spec.minPrice ≤ price ∧ price ≤ spec.maxPrice := by simp
    by_cases inRange : spec.minPrice ≤ price ∧ price ≤ spec.maxPrice
    · obtain ⟨leftLevel, leftAt, leftCount, leftTotal⟩ :=
        levelAt_of_inRange leftRefines roomy side inRange
      obtain ⟨rightLevel, rightAt, rightCount, rightTotal⟩ :=
        levelAt_of_inRange rightRefines roomyBook side (sameRange.mpr inRange)
      refine Or.inl ⟨leftLevel, rightLevel, leftAt, rightAt, ?_, ?_⟩
      · rw [leftCount, rightCount, labels.queue_book, List.length_map]
      · rw [leftTotal, rightTotal]
        exact congrArg Int.toNat (volume_queueAt_book labels spec side price)
    · exact Or.inr ⟨levelAt_of_not_inRange leftRefines side inRange,
        levelAt_of_not_inRange rightRefines side fun inside => inRange (sameRange.mp inside)⟩
  refine ⟨numOrders, currAlloc, best .buy, best .sell, numLevels .buy, numLevels .sell,
    top .buy, top .sell, fun price side => ?_, fun price side => ?_, fun price side => ?_⟩
  all_goals
    rcases level price side with ⟨_, _, leftAt, rightAt, sameCount, sameTotal⟩ |
      ⟨leftAt, rightAt⟩
  · simp only [OrderBook.getNumOrdersAtLevel, leftAt, rightAt, ok_bind,
      PriceLevel.getOrderCount, sameCount]
  · simp only [OrderBook.getNumOrdersAtLevel, leftAt, rightAt, error_bind]
  · simp only [OrderBook.getNumSharesAtLevel, leftAt, rightAt, ok_bind,
      PriceLevel.getTotalVolume, sameTotal]
  · simp only [OrderBook.getNumSharesAtLevel, leftAt, rightAt, error_bind]
  · simp only [OrderBook.checkLevelExists, leftAt, rightAt, ok_bind, PriceLevel.empty, sameCount]
  · simp only [OrderBook.checkLevelExists, leftAt, rightAt, error_bind]

end Answers

/-! ## Relabelled runs -/

/-- Ids above a hundred, and every other price. -/
def sampleLabels : Relabelling where
  ids id := id + 100
  prices price := 2 * price
  lifetimes lifetime := lifetime
  injective := add_left_injective 100
  increasing := fun left right less => by lia

/-- The range of the sample session in those prices, with a larger pool. -/
def relabelledConfig : OrderBookConfig where
  initialPoolSize := 5
  minPrice := -2
  maxPrice := 8
  initialPoolSizeRange := by decide
  minPriceRange := by decide
  maxPriceRange := by decide
  ordered := by decide

end Properties
end MatchingEngine
