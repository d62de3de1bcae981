import MatchingEngine.Model.OrderBook

/-!
# The sums of a session end

The loops of `on_session_end` add up orders, shares and levels in accumulators of
four integer types.  The functions here follow those loops and list every sum, in
the order in which the loops compute it, before it is converted to the type of its
accumulator.
-/

namespace MatchingEngine

/-- A sum, named after the accumulator that it is stored in. -/
inductive AccumulatorSum
  /-- `LevelPruneStats::quantityPruned_`, a `Quantity`. -/
  | levelQuantity (sum : Int)
  /-- `LevelPruneStats::ordersPruned_`, a `std::size_t`. -/
  | levelOrders (sum : Int)
  /-- `DayOrderPruneResult::ordersPruned`, a `std::size_t`. -/
  | ordersPruned (sum : Int)
  /-- `DayOrderPruneResult::sharesErased`, a `Volume`. -/
  | sharesErased (sum : Int)
  /-- `DayOrderPruneResult::priceLevelsErased`, a `std::uint32_t`. -/
  | priceLevelsErased (sum : Int)
  deriving DecidableEq

/-- The sum is a value of the type of its accumulator. -/
def AccumulatorSum.Fits : AccumulatorSum → Prop
  | levelQuantity sum => InInt32 sum
  | levelOrders sum | ordersPruned sum | sharesErased sum => InUInt64 sum
  | priceLevelsErased sum => InUInt32 sum

instance : DecidablePred AccumulatorSum.Fits := fun sum =>
  match sum with
  | .levelQuantity sum => inferInstanceAs (Decidable (InInt32 sum))
  | .levelOrders sum | .ordersPruned sum | .sharesErased sum =>
      inferInstanceAs (Decidable (InUInt64 sum))
  | .priceLevelsErased sum => inferInstanceAs (Decidable (InUInt32 sum))

namespace AccumulatorSum

@[simp] theorem fits_levelQuantity (sum : Int) : (levelQuantity sum).Fits ↔ InInt32 sum := Iff.rfl

@[simp] theorem fits_levelOrders (sum : Int) : (levelOrders sum).Fits ↔ InUInt64 sum := Iff.rfl

@[simp] theorem fits_ordersPruned (sum : Int) : (ordersPruned sum).Fits ↔ InUInt64 sum := Iff.rfl

@[simp] theorem fits_sharesErased (sum : Int) : (sharesErased sum).Fits ↔ InUInt64 sum := Iff.rfl

@[simp] theorem fits_priceLevelsErased (sum : Int) :
    (priceLevelsErased sum).Fits ↔ InUInt32 sum := Iff.rfl

end AccumulatorSum

section Prune

variable {σ : Type}

/-- The sums of `PriceLevel::prune_day_orders` from the order `ptr` on. -/
def PriceLevel.pruneSums
    (place : LevelAddress)
    (onPrunedOrder : BlockAddress → σ → Heap → Except Fault (σ × Heap)) :
    Nat → Option BlockAddress → LevelPruneStats → PriceLevel → σ → Heap →
      List AccumulatorSum
  | fuel + 1, some ptr, result, level, state, heap =>
      match heap.order ptr with
      | .error _ => []
      | .ok order =>
          if order.lifetime = .day then
            .levelQuantity (result.quantityPruned + order.quantity) ::
              .levelOrders (result.ordersPruned + 1) ::
              match level.removeOrder place ptr heap with
              | .error _ => []
              | .ok (_, level, heap) =>
                  match onPrunedOrder ptr state heap with
                  | .error _ => []
                  | .ok (state, heap) =>
                      pruneSums place onPrunedOrder fuel order.next
                        { quantityPruned := toInt32 (result.quantityPruned + order.quantity)
                          ordersPruned := toUInt64 (result.ordersPruned + 1) } level state heap
          else pruneSums place onPrunedOrder fuel order.next result level state heap
  | 0, some _, _, _, _, _ | _, none, _, _, _, _ => []

/-- The sums of `PriceLadder::prune_day_orders` over the `count` levels from an index
on. -/
def PriceLadder.pruneSums
    (fuel : Nat)
    (onPrunedOrder : BlockAddress → σ → Heap → Except Fault (σ × Heap)) :
    Nat → Nat → DayOrderPruneResult → PriceLadder → σ → Heap → List AccumulatorSum
  | 0, _, _, _, _, _ => []
  | count + 1, i, dayResult, ladder, state, heap =>
      match ladder.level i with
      | .error _ => []
      | .ok level =>
          if !level.empty then
            level.pruneSums ⟨ladder.side, i⟩ onPrunedOrder fuel level.head {} state heap ++
              match level.pruneDayOrders ⟨ladder.side, i⟩ fuel onPrunedOrder state heap with
              | .error _ => []
              | .ok (levelStats, level, state, heap) =>
                  .ordersPruned (dayResult.ordersPruned + levelStats.ordersPruned) ::
                    .sharesErased (dayResult.sharesErased + levelStats.quantityPruned) ::
                    ((if level.empty then
                        [.priceLevelsErased (dayResult.priceLevelsErased + 1)] else []) ++
                      pruneSums fuel onPrunedOrder count (i + 1)
                        { ordersPruned :=
                            toUInt64 (dayResult.ordersPruned + levelStats.ordersPruned)
                          sharesErased :=
                            toUInt64 (dayResult.sharesErased + levelStats.quantityPruned)
                          priceLevelsErased :=
                            if level.empty then toUInt32 (dayResult.priceLevelsErased + 1)
                            else dayResult.priceLevelsErased }
                        (ladder.setLevel i level) state heap)
          else pruneSums fuel onPrunedOrder count (i + 1) dayResult ladder state heap

end Prune

namespace OrderBook

/-- The sums of one side of `on_session_end`. -/
def pruneSideSums (book : OrderBook) (side : Side) (sessionResult : DayOrderPruneResult) :
    List AccumulatorSum :=
  if (book.ladder side).empty then []
  else (book.ladder side).pruneSums book.memoryPool.currentlyAllocated retireOrder
    (book.ladder side).levels.length 0 sessionResult ⟨book.idToOrderMap, book.memoryPool⟩
    book.heap

/-- The sums of `on_session_end`. -/
def sessionEndSums (book : OrderBook) : List AccumulatorSum :=
  book.pruneSideSums .buy {} ++
    match book.pruneSide .buy {} with
    | .error _ => []
    | .ok (sessionResult, book) => book.pruneSideSums .sell sessionResult

end OrderBook

end MatchingEngine
