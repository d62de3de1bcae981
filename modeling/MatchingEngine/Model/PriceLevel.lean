import MatchingEngine.Model.Memory

/-!
# Price levels

A price level is a doubly linked list of resting orders threaded through their
pool blocks, with a cached order count and a cached total volume.  The methods
take the heap that holds the orders and return it, together with the level.
-/

namespace MatchingEngine

/-- The members of a price level. -/
structure PriceLevel where
  head : Option BlockAddress := none
  tail : Option BlockAddress := none
  price : Price
  totalVolume : Volume := 0
  orderCount : Nat := 0
  /-- Ghost: whether some update of `totalVolume`, of `orderCount` or, through
  this level, of an order's quantity has left the range of its type.  No method
  reads it. -/
  wrapped : Bool := false
  deriving DecidableEq

/-- Result of `remove_order`. -/
inductive RemoveOrderResult
  | empty
  | nonEmpty
  deriving DecidableEq

namespace PriceLevel

/-- `totalVolume_ += change`, in `std::uint64_t`. -/
def addVolume (level : PriceLevel) (change : Int) : PriceLevel :=
  { level with
    totalVolume := toUInt64 (level.totalVolume + change)
    wrapped := level.wrapped || !decide (InUInt64 (level.totalVolume + change)) }

/-- `orderCount_ += change`, in `std::uint32_t`. -/
def addCount (level : PriceLevel) (change : Int) : PriceLevel :=
  { level with
    orderCount := toUInt32 (level.orderCount + change)
    wrapped := level.wrapped || !decide (InUInt32 (level.orderCount + change)) }

/-- Note whether a new order quantity is outside `std::int32_t`. -/
def noteQuantity (level : PriceLevel) (quantity : Int) : PriceLevel :=
  { level with wrapped := level.wrapped || !decide (InInt32 quantity) }

/-- The first order. -/
def front (level : PriceLevel) : Option BlockAddress := level.head

/-- The order count is zero. -/
def empty (level : PriceLevel) : Bool := level.orderCount == 0

/-- The price. -/
def getPrice (level : PriceLevel) : Price := level.price

/-- The cached volume. -/
def getTotalVolume (level : PriceLevel) : Volume := level.totalVolume

/-- The cached order count. -/
def getOrderCount (level : PriceLevel) : Nat := level.orderCount

/-- Assign to the `next_` member behind a pointer, or to `head_` when the pointer
is null. -/
def setNext
    (level : PriceLevel) (pointer value : Option BlockAddress) (heap : Heap) :
    Except Fault (PriceLevel × Heap) :=
  match pointer with
  | some address => do
      let heap ← heap.modifyOrder address fun order => { order with next := value }
      .ok (level, heap)
  | none => .ok ({ level with head := value }, heap)

/-- Assign to the `prev_` member behind a pointer, or to `tail_` when the pointer
is null. -/
def setPrev
    (level : PriceLevel) (pointer value : Option BlockAddress) (heap : Heap) :
    Except Fault (PriceLevel × Heap) :=
  match pointer with
  | some address => do
      let heap ← heap.modifyOrder address fun order => { order with prev := value }
      .ok (level, heap)
  | none => .ok ({ level with tail := value }, heap)

/-- Append an order.  `place` is the address of this level. -/
def pushBack
    (level : PriceLevel) (place : LevelAddress)
    (newOrder : BlockAddress) (heap : Heap) : Except Fault (PriceLevel × Heap) := do
  let heap ←
    if level.tail.isSome then
      heap.modifyOrder newOrder fun order => { order with prev := level.tail }
    else .ok heap
  let (level, heap) ← level.setNext level.tail (some newOrder) heap
  let level := { level with tail := some newOrder }
  let heap ← heap.modifyOrder newOrder fun order =>
    { order with next := none, level := some place }
  let order ← heap.order newOrder
  .ok ((level.addVolume order.quantity).addCount 1, heap)

/-- Reset the links of an order that has left the list and subtract it from the
cached aggregates. -/
def forget
    (level : PriceLevel) (address : BlockAddress) (heap : Heap) :
    Except Fault (PriceLevel × Heap) := do
  let heap ← heap.modifyOrder address fun order =>
    { order with next := none, prev := none, level := none }
  let order ← heap.order address
  .ok ((level.addVolume (-order.quantity)).addCount (-1), heap)

/-- Unlink the first order and return it, or null when there is none. -/
def popFront (level : PriceLevel) (heap : Heap) :
    Except Fault (Option BlockAddress × PriceLevel × Heap) :=
  match level.head with
  | none => .ok (none, level, heap)
  | some retOrder => do
      let order ← heap.order retOrder
      let level := { level with head := order.next }
      let (level, heap) ← level.setPrev order.next none heap
      let (level, heap) ← level.forget retOrder heap
      .ok (some retOrder, level, heap)

/-- Unlink an order from anywhere in the list. -/
def removeOrder
    (level : PriceLevel) (place : LevelAddress)
    (address : BlockAddress) (heap : Heap) :
    Except Fault (RemoveOrderResult × PriceLevel × Heap) :=
  if level.head.isNone then .error .assertionFailed
  else do
    let order ← heap.order address
    if order.level ≠ some place then .error .assertionFailed
    else
      let (level, heap) ← level.setNext order.prev order.next heap
      let (level, heap) ← level.setPrev order.next order.prev heap
      let (level, heap) ← level.forget address heap
      .ok (if level.empty then .empty else .nonEmpty, level, heap)

/-- Execute part of the first order. -/
def takeSharesFromFirst (level : PriceLevel) (sharesTaken : Quantity) (heap : Heap) :
    Except Fault (PriceLevel × Heap) := do
  let head ← deref level.head
  let order ← heap.order head
  let heap ← heap.modifyOrder head fun order =>
    { order with quantity := toInt32 (order.quantity - sharesTaken) }
  .ok ((level.noteQuantity (order.quantity - sharesTaken)).addVolume (-sharesTaken), heap)

/-- Reduce the quantity of an order in place. -/
def reduceOrderQuantity
    (level : PriceLevel) (place : LevelAddress)
    (address : BlockAddress) (quantityReduced : Quantity) (heap : Heap) :
    Except Fault (PriceLevel × Heap) := do
  let order ← heap.order address
  if order.level ≠ some place then .error .assertionFailed
  else if ¬ quantityReduced ≤ order.quantity then .error .assertionFailed
  else
    let heap ← heap.modifyOrder address fun order =>
      { order with quantity := toInt32 (order.quantity - quantityReduced) }
    .ok ((level.noteQuantity (order.quantity - quantityReduced)).addVolume
      (-quantityReduced), heap)

section Prune

variable {σ : Type}

/-- The loop of `prune_day_orders` from the order `ptr` on.  The callback works
on a state of its own and on the heap. -/
def pruneLoop
    (place : LevelAddress)
    (onPrunedOrder : BlockAddress → σ → Heap → Except Fault (σ × Heap)) :
    Nat → Option BlockAddress → LevelPruneStats → PriceLevel → σ → Heap →
      Except Fault (LevelPruneStats × PriceLevel × σ × Heap)
  | _, none, result, level, state, heap => .ok (result, level, state, heap)
  | 0, some _, _, _, _, _ => .error .nonTermination
  | fuel + 1, some ptr, result, level, state, heap => do
      let order ← heap.order ptr
      let next := order.next
      if order.lifetime = .day then do
        let result : LevelPruneStats :=
          { quantityPruned := toInt32 (result.quantityPruned + order.quantity)
            ordersPruned := toUInt64 (result.ordersPruned + 1) }
        let (_, level, heap) ← level.removeOrder place ptr heap
        let (state, heap) ← onPrunedOrder ptr state heap
        pruneLoop place onPrunedOrder fuel next result level state heap
      else pruneLoop place onPrunedOrder fuel next result level state heap

/-- Remove every DAY order and hand it to the callback.  The loop visits each order
once, so the number of orders bounds its iterations; `fuel` is such a bound. -/
def pruneDayOrders
    (level : PriceLevel) (place : LevelAddress) (fuel : Nat)
    (onPrunedOrder : BlockAddress → σ → Heap → Except Fault (σ × Heap))
    (state : σ) (heap : Heap) :
    Except Fault (LevelPruneStats × PriceLevel × σ × Heap) :=
  pruneLoop place onPrunedOrder fuel level.head {} level state heap

end Prune

end PriceLevel

end MatchingEngine
