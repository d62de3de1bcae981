import MatchingEngine.Model.PriceLadder
import MatchingEngine.Refinement.Level

/-!
# Price ladders hold sides of the book

`LadderHolds` says that the levels of a ladder hold the queues of one side of
the reference book, one for every price of the range.  It leaves the cached
best price open: the scans that compute it, and the liquidity scan that starts
from it, are shown to return what the list of orders says.
-/

namespace MatchingEngine
namespace Refinement

open Reference (Order priority orderPriority)

/-- The orders of one price, in order of arrival. -/
def queueAt (side : Side) (price : Price) (orders : List Order) : List Order :=
  KeyedList.bucket (orderPriority side) (priority side price) orders

@[simp] theorem mem_queueAt
    {side : Side} {price : Price} {orders : List Order} {order : Order} :
    order ∈ queueAt side price orders ↔ order ∈ orders ∧ order.price = price := by
  simp [queueAt, orderPriority]

/-- The first order of a queue is an order of the side. -/
theorem mem_of_queueAt_cons
    {side : Side} {price : Price} {orders rest : List Order} {head : Order}
    (queue : queueAt side price orders = head :: rest) :
    head ∈ orders := by
  have inQueue : head ∈ queueAt side price orders := queue ▸ List.mem_cons_self
  exact (mem_queueAt.mp inQueue).1

theorem queueAt_eq_nil
    {side : Side} {price : Price} {orders : List Order} :
    queueAt side price orders = [] ↔ ∀ order ∈ orders, order.price ≠ price := by
  simp [queueAt, KeyedList.bucket_eq_nil, orderPriority]

theorem queueAt_filter
    (side : Side) (price : Price) (keep : Order → Bool) (orders : List Order) :
    queueAt side price (orders.filter keep) = (queueAt side price orders).filter keep :=
  KeyedList.bucket_filter _ _ _

/-- A queue after one of its orders has been removed. -/
theorem queueAt_remove
    {spec : Reference.Book} {side : Side} {price : Price} {front rest : List Order}
    {order : Order}
    (distinct : spec.Distinct)
    (split : queueAt side price (spec.orders side) = front ++ order :: rest) :
    queueAt side price ((spec.remove order.id).orders side) = front ++ rest := by
  rw [Reference.Book.orders_remove, queueAt_filter, split]
  apply Reference.Book.Distinct.filter_ne_middle
  rw [← split]
  exact (distinct.side side).sublist ((KeyedList.bucket_sublist _ _).map _)

theorem queueAt_remove_of_ne
    {spec : Reference.Book} {side : Side} {order : Order}
    (distinct : spec.Distinct)
    (member : order ∈ spec.orders side)
    {price : Price}
    (different : price ≠ order.price) :
    queueAt side price ((spec.remove order.id).orders side) =
      queueAt side price (spec.orders side) := by
  rw [Reference.Book.orders_remove, queueAt_filter]
  refine List.filter_eq_self.mpr fun found inQueue => ?_
  obtain ⟨inSide, foundPrice⟩ := mem_queueAt.mp inQueue
  exact decide_eq_true
    (distinct.id_ne_of_price_ne inSide member fun equal => different (foundPrice.symm.trans equal))

theorem queueAt_map_reduce
    (side : Side) (price : Price) (id : OrderID) (amount : Quantity) (orders : List Order) :
    queueAt side price (orders.map fun order =>
        if order.id = id then order.reduce amount else order) =
      (queueAt side price orders).map fun order =>
        if order.id = id then order.reduce amount else order := by
  rw [queueAt, KeyedList.bucket, List.filter_map]
  refine congrArg (List.map _) (List.filter_congr fun order _ => ?_)
  simp only [Function.comp_apply]
  split <;> rfl

/-- A queue after one of its orders has been reduced. -/
theorem queueAt_reduce
    {spec : Reference.Book} {side : Side} {price : Price} {front rest : List Order}
    {order : Order}
    (distinct : spec.Distinct)
    (split : queueAt side price (spec.orders side) = front ++ order :: rest)
    (amount : Quantity) :
    queueAt side price ((spec.reduce order.id amount).orders side) =
      front ++ order.reduce amount :: rest := by
  rw [Reference.Book.orders_reduce, queueAt_map_reduce, split]
  apply Reference.Book.Distinct.map_reduce_middle
  rw [← split]
  exact (distinct.side side).sublist ((KeyedList.bucket_sublist _ _).map _)

theorem queueAt_reduce_of_ne
    {spec : Reference.Book} {side : Side} {price : Price} {order : Order}
    (distinct : spec.Distinct)
    (member : order ∈ spec.orders side)
    (different : price ≠ order.price)
    (amount : Quantity) :
    queueAt side price ((spec.reduce order.id amount).orders side) =
      queueAt side price (spec.orders side) := by
  rw [Reference.Book.orders_reduce, queueAt_map_reduce]
  refine Reference.Book.Distinct.map_reduce_of_ne (fun found inQueue equal => ?_) amount
  obtain ⟨inSide, foundPrice⟩ := mem_queueAt.mp inQueue
  obtain ⟨_, rfl⟩ := distinct.eq_of_id_eq inSide member equal
  exact different foundPrice.symm

/-- A queue after an order has been put at its end. -/
theorem queueAt_rest
    {spec : Reference.Book} {side : Side}
    (sorted : KeyedList.Ordered (orderPriority side) (spec.orders side))
    (order : Order) :
    queueAt side order.price ((spec.rest side order).orders side) =
      queueAt side order.price (spec.orders side) ++ [order] := by
  rw [Reference.Book.rest, Reference.Book.orders_setOrders_self]
  exact KeyedList.bucket_enqueue_self sorted order

theorem queueAt_rest_of_ne
    {spec : Reference.Book} {side : Side} {price : Price} {order : Order}
    (different : price ≠ order.price) :
    queueAt side price ((spec.rest side order).orders side) =
      queueAt side price (spec.orders side) := by
  rw [Reference.Book.rest, Reference.Book.orders_setOrders_self]
  refine KeyedList.bucket_enqueue_of_ne ?_ _
  exact fun equal => different ((Reference.priority_inj side _ _).mp equal).symm

theorem Sound.sublist {shorter longer : List Order}
    (sound : Sound longer)
    (sublist : shorter.Sublist longer) :
    Sound shorter :=
  fun order member => sound order (sublist.subset member)

theorem Sound.queueAt {orders : List Order} (sound : Sound orders)
    (side : Side) (price : Price) : Sound (queueAt side price orders) :=
  sound.sublist (KeyedList.bucket_sublist _ _)

/-- No level of the side holds as many orders as its counter can count. -/
def Roomy (side : Side) (orders : List Order) : Prop :=
  ∀ price, (queueAt side price orders).length < 4294967296

/-- Orders stay sound when one of them is reduced in part. -/
theorem Sound.reduce
    {spec : Reference.Book} {side : Side} {order : Order} {amount : Quantity}
    (sound : Sound (spec.orders side))
    (distinct : spec.Distinct)
    (member : order ∈ spec.orders side)
    (positive : 0 < amount)
    (below : amount < order.quantity) :
    Sound ((spec.reduce order.id amount).orders side) := by
  intro found foundMember
  rw [Reference.Book.orders_reduce, List.mem_map] at foundMember
  obtain ⟨original, inSide, rfl⟩ := foundMember
  have range := sound original inSide
  split
  · next same =>
      obtain ⟨_, rfl⟩ := distinct.eq_of_id_eq inSide member same
      rw [Reference.Order.reduce_quantity]
      lia
  · exact range

theorem Roomy.sublist {side : Side} {shorter longer : List Order}
    (roomy : Roomy side longer)
    (sublist : shorter.Sublist longer) :
    Roomy side shorter := fun price =>
  lt_of_le_of_lt (sublist.filter _).length_le (roomy price)

/-- The price of the order served first. -/
def bestOf (orders : List Order) : Option Price :=
  orders.head?.map Order.price

/-! ## The array of levels -/

@[simp] theorem setLevel_minPrice (ladder : PriceLadder) (index : Nat) (level : PriceLevel) :
    (ladder.setLevel index level).minPrice = ladder.minPrice := rfl

@[simp] theorem setLevel_bestPrice (ladder : PriceLadder) (index : Nat) (level : PriceLevel) :
    (ladder.setLevel index level).bestPrice = ladder.bestPrice := rfl

/-- What the constructor of a ladder establishes about its array. -/
structure Shape (ladder : PriceLadder) : Prop where
  ordered : ladder.minPrice ≤ ladder.maxPrice
  minPriceRange : InInt64 ladder.minPrice
  maxPriceRange : InInt64 ladder.maxPrice
  few : ladder.levels.length ≤ maxLevels
  length : (ladder.levels.length : Int) = ladder.maxPrice - ladder.minPrice + 1

/-- The prices of a ladder. -/
def InRange (ladder : PriceLadder) (price : Price) : Prop :=
  ladder.minPrice ≤ price ∧ price ≤ ladder.maxPrice

/-- Index of the level of a price. -/
def indexOf (ladder : PriceLadder) (price : Price) : Nat :=
  (price - ladder.minPrice).toNat

namespace Shape

variable {ladder : PriceLadder} {price : Price}

theorem indexOf_lt (shape : Shape ladder) (inRange : InRange ladder price) :
    indexOf ladder price < ladder.levels.length := by
  have length := shape.length
  obtain ⟨lower, upper⟩ := inRange
  unfold indexOf
  lia

theorem indexOf_price (inRange : InRange ladder price) :
    ladder.minPrice + indexOf ladder price = price := by
  have lower := inRange.1
  unfold indexOf
  lia

/-- The index that the source computes in `std::int64_t` and `std::size_t`. -/
theorem index_eq (shape : Shape ladder) (inRange : InRange ladder price) :
    toUInt64 (toInt64 (price - ladder.minPrice)) = indexOf ladder price := by
  have few := shape.few
  have length := shape.length
  obtain ⟨lower, upper⟩ := inRange
  unfold maxLevels sizeofPriceLevel at few
  have difference : toInt64 (price - ladder.minPrice) = price - ladder.minPrice :=
    toInt64_of_inInt64 (by unfold InInt64; lia)
  rw [difference]
  unfold toUInt64 indexOf
  lia

theorem getLevelAtPrice (shape : Shape ladder) (inRange : InRange ladder price) :
    ladder.getLevelAtPrice price = .ok (indexOf ladder price) := by
  unfold PriceLadder.getLevelAtPrice
  rw [if_neg (not_not.mpr ⟨inRange.2, inRange.1⟩)]
  simp only [shape.index_eq inRange, if_pos (shape.indexOf_lt inRange)]

theorem priceAt_eq (shape : Shape ladder) {index : Nat}
    (inside : index < ladder.levels.length) :
    ladder.priceAt index = ladder.minPrice + index := by
  have few := shape.few
  have length := shape.length
  have minRange := shape.minPriceRange
  have maxRange := shape.maxPriceRange
  unfold maxLevels sizeofPriceLevel at few
  unfold InInt64 at minRange maxRange
  unfold PriceLadder.priceAt
  rw [toInt64_of_inInt64 (show InInt64 (index : Int) by unfold InInt64; lia),
    toInt64_of_inInt64 (by unfold InInt64; lia)]
  lia

theorem inRange_of_lt (shape : Shape ladder) {index : Nat}
    (inside : index < ladder.levels.length) :
    InRange ladder (ladder.minPrice + index) := by
  have length := shape.length
  unfold InRange
  lia

theorem indexOf_add (index : Nat) :
    indexOf ladder (ladder.minPrice + index) = index := by
  unfold indexOf
  lia

end Shape

/-- The lists of a ladder are the queues of a side. -/
structure LadderLinks
    (heap : Heap) (addr : OrderID → BlockAddress) (ladder : PriceLadder) (side : Side)
    (orders : List Order) : Prop
    extends Shape ladder where
  side_eq : ladder.side = side
  sorted : KeyedList.Ordered (orderPriority side) orders
  inRange : ∀ order ∈ orders, InRange ladder order.price
  lists : ∀ (index : Nat) (level : PriceLevel), ladder.levels[index]? = some level →
    level.price = ladder.minPrice + index ∧
      LevelLinks heap addr ⟨side, index⟩ level
        (queueAt side (ladder.minPrice + index) orders)

/-- No level has wrapped whose queue is not too long for it. -/
def Unwrapped (ladder : PriceLadder) (side : Side) (orders : List Order) : Prop :=
  ∀ (index : Nat) (level : PriceLevel), ladder.levels[index]? = some level →
    level.wrapped = true →
      4294967296 ≤ (queueAt side (ladder.minPrice + index) orders).length

/-- The levels of a ladder hold the orders of a side. -/
structure LadderHolds
    (heap : Heap) (addr : OrderID → BlockAddress) (ladder : PriceLadder) (side : Side)
    (orders : List Order) : Prop
    extends LadderLinks heap addr ladder side orders where
  sound : Sound orders
  unwrapped : Unwrapped ladder side orders

/-- A new level has replaced the one of a price. -/
theorem getElem?_setLevel
    {ladder : PriceLadder} {index other : Nat} {level found : PriceLevel}
    (inside : index < ladder.levels.length)
    (present : (ladder.setLevel index level).levels[other]? = some found) :
    (other = index ∧ found = level) ∨
      other ≠ index ∧ ladder.levels[other]? = some found := by
  simp only [PriceLadder.setLevel, List.getElem?_set] at present
  by_cases same : index = other
  · rw [if_pos same, if_pos inside] at present
    exact Or.inl ⟨same.symm, (Option.some.inj present).symm⟩
  · rw [if_neg same] at present
    exact Or.inr ⟨Ne.symm same, present⟩

namespace LadderLinks

variable {heap heap' : Heap} {addr addr' : OrderID → BlockAddress}
variable {ladder : PriceLadder} {side : Side} {orders orders' : List Order} {price : Price}

/-- The level at an index of the array. -/
theorem level_at
    (links : LadderLinks heap addr ladder side orders)
    {index : Nat}
    (inside : index < ladder.levels.length) :
    ∃ level,
      ladder.level index = .ok level ∧
      level.price = ladder.minPrice + index ∧
      LevelLinks heap addr ⟨side, index⟩ level
        (queueAt side (ladder.minPrice + index) orders) := by
  have present := List.getElem?_eq_getElem inside
  obtain ⟨levelPrice, levelLinks⟩ := links.lists index _ present
  exact ⟨_, by simp only [PriceLadder.level, present], levelPrice, levelLinks⟩

/-- The level of a price. -/
theorem level_of
    (links : LadderLinks heap addr ladder side orders)
    (inRange : InRange ladder price) :
    ∃ level,
      ladder.level (indexOf ladder price) = .ok level ∧
      level.price = price ∧
      LevelLinks heap addr ⟨side, indexOf ladder price⟩ level
        (queueAt side price orders) := by
  have found := links.level_at (links.toShape.indexOf_lt inRange)
  rwa [Shape.indexOf_price inRange] at found

/-- The cached best price is not part of what the lists are. -/
theorem withBest
    (links : LadderLinks heap addr ladder side orders)
    (best : Option Price) :
    LadderLinks heap addr { ladder with bestPrice := best } side orders where
  ordered := links.ordered
  minPriceRange := links.minPriceRange
  maxPriceRange := links.maxPriceRange
  few := links.few
  length := links.length
  side_eq := links.side_eq
  sorted := links.sorted
  inRange := links.inRange
  lists := links.lists

/-- Replacing the level of one price, when the levels of the other prices are
left alone. -/
theorem setLevel
    (links : LadderLinks heap addr ladder side orders)
    {level' : PriceLevel}
    (inRange : InRange ladder price)
    (levelPrice : level'.price = price)
    (levelLinks : LevelLinks heap' addr' ⟨side, indexOf ladder price⟩ level'
      (queueAt side price orders'))
    (sorted : KeyedList.Ordered (orderPriority side) orders')
    (allInRange : ∀ order ∈ orders', InRange ladder order.price)
    (others : ∀ other, other ≠ price →
      queueAt side other orders' = queueAt side other orders)
    (frame : ∀ order ∈ orders, order.price ≠ price →
      addr' order.id = addr order.id ∧ heap' (addr order.id) = heap (addr order.id)) :
    LadderLinks heap' addr' (ladder.setLevel (indexOf ladder price) level') side
      orders' where
  ordered := links.ordered
  minPriceRange := links.minPriceRange
  maxPriceRange := links.maxPriceRange
  few := by simpa [PriceLadder.setLevel] using links.few
  length := by simpa [PriceLadder.setLevel] using links.length
  side_eq := links.side_eq
  sorted := sorted
  inRange := allInRange
  lists index level found := by
    simp only [setLevel_minPrice]
    rcases getElem?_setLevel (links.toShape.indexOf_lt inRange) found with
      ⟨rfl, rfl⟩ | ⟨apart, found⟩
    · rw [Shape.indexOf_price inRange]
      exact ⟨levelPrice, levelLinks⟩
    · have different : ladder.minPrice + index ≠ price := by
        rintro rfl
        exact apart (Shape.indexOf_add index).symm
      obtain ⟨otherPrice, otherLinks⟩ := links.lists index level found
      rw [others _ different]
      refine ⟨otherPrice, ?_⟩
      have kept : ∀ order ∈ queueAt side (ladder.minPrice + index) orders,
          addr' order.id = addr order.id ∧
            heap' (addr order.id) = heap (addr order.id) := fun order member => by
        obtain ⟨inOrders, orderPrice⟩ := mem_queueAt.mp member
        exact frame order inOrders (orderPrice ▸ different)
      exact (otherLinks.congr fun order member => (kept order member).2).congr_addr
        fun order member => (kept order member).1

/-- A ladder depends only on the blocks of its orders and their addresses. -/
theorem congr
    (links : LadderLinks heap addr ladder side orders)
    (frame : ∀ order ∈ orders,
      addr' order.id = addr order.id ∧ heap' (addr order.id) = heap (addr order.id)) :
    LadderLinks heap' addr' ladder side orders where
  toShape := links.toShape
  side_eq := links.side_eq
  sorted := links.sorted
  inRange := links.inRange
  lists index level found := by
    obtain ⟨levelPrice, levelLinks⟩ := links.lists index level found
    refine ⟨levelPrice, (levelLinks.congr fun order member => ?_).congr_addr
      fun order member => ?_⟩
    · exact (frame order (mem_queueAt.mp member).1).2
    · exact (frame order (mem_queueAt.mp member).1).1

end LadderLinks

/-- Replacing the level of one price by one that has not wrapped. -/
theorem Unwrapped.setLevel
    {ladder : PriceLadder} {side : Side} {orders orders' : List Order} {price : Price}
    {level' : PriceLevel}
    (unwrapped : Unwrapped ladder side orders)
    (shape : Shape ladder)
    (inRange : InRange ladder price)
    (levelUnwrapped : level'.wrapped = true →
      4294967296 ≤ (queueAt side price orders').length)
    (others : ∀ other, other ≠ price →
      queueAt side other orders' = queueAt side other orders) :
    Unwrapped (ladder.setLevel (indexOf ladder price) level') side orders' := by
  intro index level found wrapped
  simp only [setLevel_minPrice]
  rcases getElem?_setLevel (shape.indexOf_lt inRange) found with ⟨rfl, rfl⟩ | ⟨apart, found⟩
  · rw [Shape.indexOf_price inRange]
    exact levelUnwrapped wrapped
  · have different : ladder.minPrice + index ≠ price := by
      rintro rfl
      exact apart (Shape.indexOf_add index).symm
    rw [others _ different]
    exact unwrapped index level found wrapped

namespace LadderHolds

variable {heap heap' : Heap} {addr addr' : OrderID → BlockAddress}
variable {ladder : PriceLadder} {side : Side} {orders orders' : List Order} {price : Price}

/-- The levels hold the queues. -/
theorem levels
    (holds : LadderHolds heap addr ladder side orders)
    (index : Nat) (level : PriceLevel)
    (found : ladder.levels[index]? = some level) :
    level.price = ladder.minPrice + index ∧
      LevelHolds heap addr ⟨side, index⟩ level
        (queueAt side (ladder.minPrice + index) orders) :=
  ⟨(holds.lists index level found).1, (holds.lists index level found).2,
    holds.unwrapped index level found⟩

/-- The level at an index of the array. -/
theorem level_at
    (holds : LadderHolds heap addr ladder side orders)
    {index : Nat}
    (inside : index < ladder.levels.length) :
    ∃ level,
      ladder.level index = .ok level ∧
      level.price = ladder.minPrice + index ∧
      LevelHolds heap addr ⟨side, index⟩ level
        (queueAt side (ladder.minPrice + index) orders) := by
  have present := List.getElem?_eq_getElem inside
  obtain ⟨levelPrice, levelHolds⟩ := holds.levels index _ present
  exact ⟨_, by simp only [PriceLadder.level, present], levelPrice, levelHolds⟩

/-- The level of a price. -/
theorem level_of
    (holds : LadderHolds heap addr ladder side orders)
    (inRange : InRange ladder price) :
    ∃ level,
      ladder.level (indexOf ladder price) = .ok level ∧
      level.price = price ∧
      LevelHolds heap addr ⟨side, indexOf ladder price⟩ level
        (queueAt side price orders) := by
  have found := holds.level_at (holds.toShape.indexOf_lt inRange)
  rwa [Shape.indexOf_price inRange] at found

/-! ## The cached best price -/

/-- Levels and queues are empty together. -/
theorem empty_eq
    (roomy : Roomy side orders)
    {level : PriceLevel} {index : Nat} {price : Price}
    (levelHolds : LevelHolds heap addr ⟨side, index⟩ level (queueAt side price orders)) :
    level.empty = decide (queueAt side price orders = []) := by
  rw [Bool.eq_iff_iff, decide_eq_true_iff]
  exact levelHolds.toTallies.empty_iff (roomy price)

/-- A price with orders that no order beats is the best price. -/
theorem bestOf_eq_some
    (sorted : KeyedList.Ordered (orderPriority side) orders)
    (least : ∀ order ∈ orders, priority side price ≤ orderPriority side order)
    (present : queueAt side price orders ≠ []) :
    bestOf orders = some price := by
  have head := sorted.head?_key least present
  unfold bestOf
  cases orders with
  | nil => exact absurd rfl present
  | cons order rest => simpa [orderPriority] using head

theorem scanDown_eq
    (holds : LadderHolds heap addr ladder .buy orders)
    (roomy : Roomy .buy orders)
    {index : Nat}
    (inside : index < ladder.levels.length)
    (below : ∀ order ∈ orders, order.price ≤ ladder.minPrice + index) :
    ∃ found, ladder.scanDown index = .ok found ∧
      found.map ladder.priceAt = bestOf orders := by
  induction index with
  | zero =>
      obtain ⟨level, access, _, levelHolds⟩ := holds.level_at inside
      have empty := empty_eq roomy levelHolds
      simp only [PriceLadder.scanDown, access, ok_bind]
      by_cases vacant : queueAt .buy (ladder.minPrice + (0 : Nat)) orders = []
      · have noOrders : orders = [] := by
          refine List.eq_nil_iff_forall_not_mem.mpr fun order member => ?_
          have lower := (holds.inRange order member).1
          exact queueAt_eq_nil.mp vacant order member (le_antisymm (below order member)
            (by simpa using lower))
        rw [decide_eq_true vacant] at empty
        exact ⟨none, by simp [empty], by simp [noOrders, bestOf]⟩
      · rw [decide_eq_false vacant] at empty
        refine ⟨some 0, by simp [empty], ?_⟩
        rw [bestOf_eq_some holds.sorted (fun order member => ?_) vacant, Option.map_some,
          holds.toShape.priceAt_eq inside]
        have := below order member
        simp only [orderPriority, priority]
        lia
  | succ index inductionHypothesis =>
      obtain ⟨level, access, _, levelHolds⟩ := holds.level_at inside
      have empty := empty_eq roomy levelHolds
      simp only [PriceLadder.scanDown, access, ok_bind]
      by_cases vacant : queueAt .buy (ladder.minPrice + (index + 1 : Nat)) orders = []
      · obtain ⟨found, scan, result⟩ := inductionHypothesis (by omega) (by
          intro order member
          have upper := below order member
          have different := queueAt_eq_nil.mp vacant order member
          push_cast at upper different
          lia)
        rw [decide_eq_true vacant] at empty
        exact ⟨found, by simp [empty, scan], result⟩
      · rw [decide_eq_false vacant] at empty
        refine ⟨some (index + 1), by simp [empty], ?_⟩
        rw [bestOf_eq_some holds.sorted (fun order member => ?_) vacant, Option.map_some,
          holds.toShape.priceAt_eq inside]
        have := below order member
        simp only [orderPriority, priority]
        lia

theorem scanUp_eq
    (holds : LadderHolds heap addr ladder .sell orders)
    (roomy : Roomy .sell orders)
    {count index : Nat}
    (inside : index + count = ladder.levels.length)
    (above : ∀ order ∈ orders, ladder.minPrice + index ≤ order.price) :
    ∃ found, ladder.scanUp count index = .ok found ∧
      found.map ladder.priceAt = bestOf orders := by
  induction count generalizing index with
  | zero =>
      refine ⟨none, rfl, ?_⟩
      have noOrders : orders = [] := by
        refine List.eq_nil_iff_forall_not_mem.mpr fun order member => ?_
        have upper := (holds.inRange order member).2
        have length := holds.length
        have := above order member
        lia
      simp [noOrders, bestOf]
  | succ count inductionHypothesis =>
      obtain ⟨level, access, _, levelHolds⟩ := holds.level_at
        (show index < ladder.levels.length by omega)
      have empty := empty_eq roomy levelHolds
      simp only [PriceLadder.scanUp, access, ok_bind]
      by_cases vacant : queueAt .sell (ladder.minPrice + index) orders = []
      · obtain ⟨found, scan, result⟩ := inductionHypothesis
          (show index + 1 + count = ladder.levels.length by omega) (by
          intro order member
          have lower := above order member
          have different := queueAt_eq_nil.mp vacant order member
          push_cast
          lia)
        rw [decide_eq_true vacant] at empty
        exact ⟨found, by simp [empty, scan], result⟩
      · rw [decide_eq_false vacant] at empty
        refine ⟨some index, by simp [empty], ?_⟩
        rw [bestOf_eq_some holds.sorted (fun order member => ?_) vacant, Option.map_some,
          holds.toShape.priceAt_eq (by omega)]
        exact above order member

/-- A refresh from a price that no order beats finds the best price. -/
theorem updateBestPriceFromGiven
    (holds : LadderHolds heap addr ladder side orders)
    (roomy : Roomy side orders)
    (inRange : InRange ladder price)
    (least : ∀ order ∈ orders, priority side price ≤ orderPriority side order) :
    ladder.updateBestPriceFromGiven price =
      .ok { ladder with bestPrice := bestOf orders } := by
  unfold PriceLadder.updateBestPriceFromGiven
  rw [if_neg (not_not.mpr ⟨inRange.2, inRange.1⟩)]
  simp only [holds.toShape.index_eq inRange]
  have inside := holds.toShape.indexOf_lt inRange
  have indexPrice := Shape.indexOf_price inRange
  have ladderSide := holds.side_eq
  cases side with
  | buy =>
      obtain ⟨found, scan, result⟩ := holds.scanDown_eq roomy inside (by
        intro order member
        have := least order member
        simp only [orderPriority, priority] at this
        lia)
      simp only [ladderSide, scan, ok_bind, result]
  | sell =>
      obtain ⟨found, scan, result⟩ := holds.scanUp_eq roomy
        (show indexOf ladder price + (ladder.levels.length - indexOf ladder price) =
          ladder.levels.length from Nat.add_sub_cancel' inside.le) (by
          intro order member
          rw [indexPrice]
          exact least order member)
      simp only [ladderSide, scan, ok_bind, result]

end LadderHolds

/-! ## The liquidity scan -/

/-- Shares offered at a price or better. -/
def liquidityWithin (side : Side) (price : Price) (orders : List Order) : Int :=
  volume (orders.filter fun order => orderPriority side order ≤ priority side price)

/-- Shares offered at better prices only. -/
def liquidityBefore (side : Side) (price : Price) (orders : List Order) : Int :=
  volume (orders.filter fun order => orderPriority side order < priority side price)

theorem Sound.positive {queue : List Order} (sound : Sound queue) :
    ∀ order ∈ queue, 0 < order.quantity := fun order member => by
  have := (sound order member).1
  lia

theorem liquidityWithin_eq_add (side : Side) (price : Price) (orders : List Order) :
    liquidityWithin side price orders =
      liquidityBefore side price orders + volume (queueAt side price orders) := by
  refine Fill.offered_filter_or (fun order _ => ?_) (fun order _ before => ?_)
  · rw [Bool.eq_iff_iff]
    simp [le_iff_lt_or_eq]
  · simp only [decide_eq_true_eq] at before
    simp [before.ne]

theorem liquidityWithin_mono
    {side : Side} {orders : List Order} {near far : Price}
    (sound : Sound orders)
    (farther : priority side near ≤ priority side far) :
    liquidityWithin side near orders ≤ liquidityWithin side far orders := by
  refine Fill.offered_le_of_sublist (sound.sublist List.filter_sublist).positive
    (List.monotone_filter_right _ fun order within => ?_)
  simp only [decide_eq_true_eq] at within ⊢
  exact within.trans farther

/-- Whatever is offered up to a price is offered before every worse price. -/
theorem liquidityWithin_le_before
    {side : Side} {orders : List Order} {near far : Price}
    (sound : Sound orders)
    (farther : priority side near < priority side far) :
    liquidityWithin side near orders ≤ liquidityBefore side far orders := by
  refine Fill.offered_le_of_sublist (sound.sublist List.filter_sublist).positive
    (List.monotone_filter_right _ fun order within => ?_)
  simp only [decide_eq_true_eq] at within ⊢
  exact within.trans_lt farther

/-- One step of the scan: the shares of a level are added without wrapping, and
the scan stops once they suffice. -/
theorem scanLevel_eq
    {level : PriceLevel} {queue : List Order}
    (tallies : Tallies level queue)
    (sound : Sound queue)
    (capacity : queue.length < 4294967296)
    {required : Quantity} (requiredRange : required ≤ 2147483647)
    {available : Nat} (below : (available : Int) < required)
    (continuation : PriceLadder.Liquidity → Except Fault PriceLadder.LiquidityScan) :
    PriceLadder.scanLevel level required ⟨available, false⟩ continuation =
      if required ≤ available + volume queue then .ok ⟨true, false⟩
      else continuation ⟨available + (volume queue).toNat, false⟩ := by
  have total := tallies.total_exact sound capacity
  have bounds := volume_bounds sound
  unfold PriceLadder.scanLevel
  by_cases vacant : queue = []
  · subst vacant
    rw [if_pos ((tallies.empty_iff capacity).mpr rfl), if_neg (by
      rw [volume_nil]
      lia)]
    rfl
  · have added : PriceLadder.Liquidity.add ⟨available, false⟩ level =
        ⟨available + (volume queue).toNat, false⟩ := by
      have noWrap : InUInt64 (available + level.totalVolume) := by
        unfold InUInt64
        lia
      have sum : toUInt64 (available + level.totalVolume) =
          available + (volume queue).toNat := by
        unfold toUInt64
        lia
      simp [PriceLadder.Liquidity.add, PriceLevel.getTotalVolume, noWrap, sum]
    have requiredValue : (toUInt64 required : Int) = required :=
      toUInt64_of_inUInt64 (by unfold InUInt64; lia)
    rw [if_neg (fun empty => vacant ((tallies.empty_iff capacity).mp empty)), added]
    refine if_congr ?_ rfl rfl
    constructor <;> intro enough <;> lia

namespace LadderHolds

variable {heap : Heap} {addr : OrderID → BlockAddress} {ladder : PriceLadder}
variable {side : Side} {orders : List Order} {price : Price}

/-- The scan at one index: from the shares offered before its price to the
shares offered up to its price. -/
theorem scanLevel_at
    (holds : LadderHolds heap addr ladder side orders)
    (roomy : Roomy side orders)
    {required : Quantity} (requiredRange : required ≤ 2147483647)
    {index available : Nat}
    (inside : index < ladder.levels.length)
    (accumulated : (available : Int) =
      liquidityBefore side (ladder.minPrice + index) orders)
    (below : (available : Int) < required) :
    ∃ level within,
      ladder.level index = .ok level ∧
      (within : Nat) = liquidityWithin side (ladder.minPrice + index) orders ∧
      ∀ continuation, PriceLadder.scanLevel level required ⟨available, false⟩ continuation =
        if required ≤ within then .ok ⟨true, false⟩ else continuation ⟨within, false⟩ := by
  obtain ⟨level, access, _, levelHolds⟩ := holds.level_at inside
  have sound := holds.sound.queueAt side (ladder.minPrice + index)
  have bounds := volume_bounds sound
  have volumeValue :
      ((volume (queueAt side (ladder.minPrice + index) orders)).toNat : Int) =
        volume (queueAt side (ladder.minPrice + index) orders) := by
    omega
  refine ⟨level, available + (volume (queueAt side (ladder.minPrice + index) orders)).toNat,
    access, ?_, fun continuation => ?_⟩
  · rw [liquidityWithin_eq_add, Int.natCast_add, volumeValue, accumulated]
  · rw [scanLevel_eq levelHolds.toTallies sound (roomy _) requiredRange below, Int.natCast_add,
      volumeValue]

theorem scanLiquidityDown_eq
    (holds : LadderHolds heap addr ladder .buy orders)
    (roomy : Roomy .buy orders)
    {required : Quantity} (requiredRange : required ≤ 2147483647)
    {threshold index available : Nat}
    (inside : index < ladder.levels.length)
    (reached : threshold ≤ index)
    (accumulated : (available : Int) =
      liquidityBefore .buy (ladder.minPrice + index) orders)
    (below : (available : Int) < required) :
    ladder.scanLiquidityDown threshold required index ⟨available, false⟩ =
      .ok ⟨decide (required ≤
        liquidityWithin .buy (ladder.minPrice + threshold) orders), false⟩ := by
  have monotone : liquidityWithin .buy (ladder.minPrice + index) orders ≤
      liquidityWithin .buy (ladder.minPrice + threshold) orders :=
    liquidityWithin_mono holds.sound (by simp only [priority]; omega)
  obtain ⟨level, within, access, withinEquality, scan⟩ :=
    holds.scanLevel_at roomy requiredRange inside accumulated below
  induction index generalizing available level within with
  | zero =>
      obtain rfl : threshold = 0 := by omega
      simp only [PriceLadder.scanLiquidityDown, access, ok_bind, scan, if_true]
      by_cases enough : required ≤ within
      · rw [if_pos enough, decide_eq_true (withinEquality ▸ enough)]
      · rw [if_neg enough, decide_eq_false (withinEquality ▸ enough)]
  | succ index inductionHypothesis =>
      simp only [PriceLadder.scanLiquidityDown, access, ok_bind, scan]
      by_cases enough : required ≤ within
      · rw [if_pos enough, decide_eq_true (by lia)]
      · rw [if_neg enough]
        by_cases atThreshold : index + 1 = threshold
        · rw [if_pos atThreshold, ← atThreshold, decide_eq_false (withinEquality ▸ enough)]
        · rw [if_neg atThreshold]
          have moved : liquidityBefore .buy (ladder.minPrice + index) orders =
              liquidityWithin .buy (ladder.minPrice + (index + 1 : Nat)) orders := by
            refine congrArg volume (List.filter_congr fun order _ => ?_)
            rw [decide_eq_decide]
            simp only [orderPriority, priority]
            push_cast
            lia
          have accumulated' := withinEquality.trans moved.symm
          obtain ⟨level, within', access, withinEquality', scan⟩ :=
            holds.scanLevel_at roomy requiredRange
              (show index < ladder.levels.length by omega) accumulated'
              (not_le.mp enough)
          exact inductionHypothesis (by omega) (by omega) accumulated' (not_le.mp enough)
            (liquidityWithin_mono holds.sound (by simp only [priority]; omega)) level within'
            access withinEquality' scan

theorem scanLiquidityUp_eq
    (holds : LadderHolds heap addr ladder .sell orders)
    (roomy : Roomy .sell orders)
    {required : Quantity} (requiredRange : required ≤ 2147483647)
    {threshold count index available : Nat}
    (inside : threshold < ladder.levels.length)
    (reached : index + count = threshold + 1)
    (accumulated : (available : Int) =
      liquidityBefore .sell (ladder.minPrice + index) orders)
    (below : (available : Int) < required) :
    ladder.scanLiquidityUp required count index ⟨available, false⟩ =
      .ok ⟨decide (required ≤
        liquidityWithin .sell (ladder.minPrice + threshold) orders), false⟩ := by
  induction count generalizing index available with
  | zero =>
      have moved : liquidityBefore .sell (ladder.minPrice + index) orders =
          liquidityWithin .sell (ladder.minPrice + threshold) orders := by
        refine congrArg volume (List.filter_congr fun order _ => ?_)
        rw [decide_eq_decide]
        simp only [orderPriority, priority]
        lia
      simp only [PriceLadder.scanLiquidityUp]
      rw [decide_eq_false (by rw [← moved, ← accumulated]; exact below.not_ge)]
  | succ count inductionHypothesis =>
      obtain ⟨level, within, access, withinEquality, scan⟩ :=
        holds.scanLevel_at roomy requiredRange (show index < ladder.levels.length by omega)
          accumulated below
      simp only [PriceLadder.scanLiquidityUp, access, ok_bind, scan]
      by_cases enough : required ≤ within
      · have monotone : liquidityWithin .sell (ladder.minPrice + index) orders ≤
            liquidityWithin .sell (ladder.minPrice + threshold) orders :=
          liquidityWithin_mono holds.sound (by simp only [priority]; omega)
        rw [if_pos enough, decide_eq_true (by lia)]
      · rw [if_neg enough]
        have moved : liquidityBefore .sell (ladder.minPrice + (index + 1 : Nat)) orders =
            liquidityWithin .sell (ladder.minPrice + index) orders := by
          refine congrArg volume (List.filter_congr fun order _ => ?_)
          rw [decide_eq_decide]
          simp only [orderPriority, priority]
          push_cast
          lia
        exact inductionHypothesis (by omega) (withinEquality.trans moved.symm)
          (not_le.mp enough)

/-- Nothing is offered before the best price. -/
theorem liquidityBefore_best
    (holds : LadderHolds heap addr ladder side orders)
    (best : bestOf orders = some price) :
    liquidityBefore side price orders = 0 := by
  cases orders with
  | nil => rfl
  | cons head rest =>
      obtain rfl : head.price = price := by simpa [bestOf] using best
      obtain ⟨least, _⟩ := KeyedList.ordered_cons.mp holds.sorted
      have none : (head :: rest).filter
          (fun order => orderPriority side order < priority side head.price) = [] := by
        refine List.filter_eq_nil_iff.mpr fun order member => ?_
        simp only [decide_eq_true_eq, not_lt]
        rcases List.mem_cons.mp member with rfl | inRest
        · exact le_rfl
        · exact least order inRest
      unfold liquidityBefore
      rw [none]
      rfl

/-- The pre-scan of a fill-or-kill order answers whether the orders up to the
threshold offer enough, and its sum never wraps. -/
theorem hasSufficientMarketableLiquidity
    (holds : LadderHolds heap addr ladder side orders)
    (roomy : Roomy side orders)
    (best : ladder.bestPrice = bestOf orders)
    {threshold : Price} (inRange : InRange ladder threshold)
    {required : Quantity} (positive : 0 < required)
    (requiredRange : required ≤ 2147483647) :
    ladder.hasSufficientMarketableLiquidity threshold required =
      .ok ⟨decide (required ≤ liquidityWithin side threshold orders), false⟩ := by
  unfold PriceLadder.hasSufficientMarketableLiquidity
  rw [if_neg (not_not.mpr positive), if_neg (not_not.mpr ⟨inRange.2, inRange.1⟩), best]
  cases found : bestOf orders with
  | none =>
      have noOrders : orders = [] := by simpa [bestOf] using found
      subst noOrders
      have insufficient : decide (required ≤ liquidityWithin side threshold []) = false :=
        decide_eq_false positive.not_ge
      rw [insufficient]
  | some bestPrice =>
      have bestInRange : InRange ladder bestPrice := by
        cases orders with
        | nil => simp [bestOf] at found
        | cons head rest =>
            obtain rfl : head.price = bestPrice := by simpa [bestOf] using found
            exact holds.inRange head List.mem_cons_self
      have nothingBefore := holds.liquidityBefore_best found
      have thresholdPrice := Shape.indexOf_price inRange
      have bestIndexPrice := Shape.indexOf_price bestInRange
      have thresholdInside := holds.toShape.indexOf_lt inRange
      have bestInside := holds.toShape.indexOf_lt bestInRange
      have farther : priority side threshold < priority side bestPrice →
          decide (required ≤ liquidityWithin side threshold orders) = false := by
        intro beyond
        have nearer := liquidityWithin_le_before holds.sound beyond
        refine decide_eq_false ?_
        lia
      simp only [holds.side_eq, holds.toShape.index_eq inRange,
        holds.toShape.index_eq bestInRange]
      cases side with
      | buy =>
          simp only [reduceCtorEq, false_and, or_false, true_and]
          by_cases beyond : bestPrice < threshold
          · rw [if_pos beyond, farther (by simpa [priority] using beyond)]
          · rw [if_neg beyond, holds.scanLiquidityDown_eq roomy requiredRange bestInside
              (by unfold indexOf; lia) (by rw [bestIndexPrice, nothingBefore]; rfl) positive,
              thresholdPrice]
      | sell =>
          simp only [reduceCtorEq, false_and, false_or, true_and]
          by_cases beyond : bestPrice > threshold
          · rw [if_pos beyond, farther (by simpa [priority] using beyond)]
          · rw [if_neg beyond, holds.scanLiquidityUp_eq roomy requiredRange thresholdInside
              (by unfold indexOf; lia) (by rw [bestIndexPrice, nothingBefore]; rfl) positive,
              thresholdPrice]

end LadderHolds

end Refinement
end MatchingEngine
