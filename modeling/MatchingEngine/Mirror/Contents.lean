import MatchingEngine.Mirror.Book
import MatchingEngine.Refinement.SessionEndSums

/-!
# The orders of a book in the mirror

The image of a book carries the orders of its reference book, on the other sides and
at the mirrored prices.
-/

namespace MatchingEngine
namespace PriceRange

open Reference (Order priority orderPriority)
open Refinement

variable (range : PriceRange)

/-! ## Reference books -/

/-- An order at the mirrored price. -/
def mirrorEntry (order : Order) : Order :=
  { order with price := range.mirrorPrice order.price }

/-- A reference book whose sides are exchanged. -/
def mirrorSpec (spec : Reference.Book) : Reference.Book :=
  { spec with
    bids := spec.asks.map range.mirrorEntry
    asks := spec.bids.map range.mirrorEntry }

theorem orders_mirrorSpec (spec : Reference.Book) (side : Side) :
    (range.mirrorSpec spec).orders side.opposite =
      (spec.orders side).map range.mirrorEntry := by
  cases side <;> rfl

theorem contains_mirrorSpec (spec : Reference.Book) (id : OrderID) :
    (range.mirrorSpec spec).Contains id ↔ spec.Contains id := by
  simp only [Reference.Book.Contains, mirrorSpec, List.mem_append, List.mem_map]
  constructor
  · rintro ⟨_, ⟨order, member, rfl⟩ | ⟨order, member, rfl⟩, same⟩
    · exact ⟨order, Or.inr member, same⟩
    · exact ⟨order, Or.inl member, same⟩
  · rintro ⟨order, member | member, same⟩
    · exact ⟨_, Or.inr ⟨order, member, rfl⟩, same⟩
    · exact ⟨_, Or.inl ⟨order, member, rfl⟩, same⟩

theorem priority_mirrorPrice_le (side : Side) (price other : Price) :
    priority side.opposite (range.mirrorPrice price) ≤
        priority side.opposite (range.mirrorPrice other) ↔
      priority side price ≤ priority side other := by
  cases side <;> simp only [Side.opposite, priority, mirrorPrice] <;> constructor <;>
    intro atMost <;> lia

theorem ordered_mirrorEntry
    {side : Side} {orders : List Order}
    (sorted : KeyedList.Ordered (orderPriority side) orders) :
    KeyedList.Ordered (orderPriority side.opposite) (orders.map range.mirrorEntry) :=
  List.pairwise_map.mpr (sorted.imp fun atMost => (range.priority_mirrorPrice_le ..).mpr atMost)

theorem queueAt_mirrorEntry (side : Side) (price : Price) (orders : List Order) :
    queueAt side.opposite (range.mirrorPrice price) (orders.map range.mirrorEntry) =
      (queueAt side price orders).map range.mirrorEntry := by
  rw [queueAt, KeyedList.bucket, List.filter_map]
  refine congrArg (List.map _) (List.filter_congr fun order _ => ?_)
  simp only [Function.comp_apply, orderPriority, mirrorEntry, Reference.priority_inj,
    mirrorPrice_inj]

/-! ## Queues -/

section Queues

variable (queue : List Order)

@[simp] theorem blocks_mirrorEntry (addr : OrderID → BlockAddress) :
    blocks addr (queue.map range.mirrorEntry) = blocks addr queue := by
  rw [blocks, blocks, List.map_map]
  rfl

@[simp] theorem volume_mirrorEntry : volume (queue.map range.mirrorEntry) = volume queue := by
  rw [volume, volume, Fill.offered, Fill.offered, List.map_map]
  rfl

theorem uncounted_mirrorEntry : Uncounted (queue.map range.mirrorEntry) ↔ Uncounted queue := by
  rw [Uncounted, Uncounted, List.length_map]

theorem filter_mirrorEntry
    {keep : Order → Bool} (blind : ∀ order, keep (range.mirrorEntry order) = keep order) :
    (queue.map range.mirrorEntry).filter keep = (queue.filter keep).map range.mirrorEntry := by
  rw [List.filter_map]
  exact congrArg _ (List.filter_congr fun order _ => blind order)

end Queues

/-! ## Lists -/

section Lists

variable {range : PriceRange} {heap : Heap} {addr : OrderID → BlockAddress}
variable {level : PriceLevel} {queue : List Order} {ladder : PriceLadder} {side : Side}
variable {orders : List Order} {book : OrderBook} {spec : Reference.Book}

theorem successor_mirrorHeap (range : PriceRange) (heap : Heap) (head : Option BlockAddress) :
    successor (range.mirrorHeap heap) head = successor heap head := by
  funext pointer
  cases pointer with
  | none => rfl
  | some address =>
      simp only [successor, mirrorHeap]
      cases heap address <;> rfl

theorem predecessor_mirrorHeap (range : PriceRange) (heap : Heap) (tail : Option BlockAddress) :
    predecessor (range.mirrorHeap heap) tail = predecessor heap tail := by
  funext pointer
  cases pointer with
  | none => rfl
  | some address =>
      simp only [predecessor, mirrorHeap]
      cases heap address <;> rfl

theorem payload_mirrorHeap
    {address : BlockAddress} {contents : RestingOrder}
    (stored : payload (heap address) = .order contents) :
    payload (range.mirrorHeap heap address) = .order (range.mirrorOrder contents) := by
  obtain ⟨order, inBlock, rfl⟩ := exists_order_of_payload stored
  rw [mirrorHeap, inBlock]
  rfl

/-- The image of a level has the image of its queue. -/
theorem links_mirrorLevel
    {place : LevelAddress}
    (links : LevelLinks heap addr place level queue) :
    LevelLinks (range.mirrorHeap heap) addr (range.mirrorPlace place) (range.mirrorLevel level)
      (queue.map range.mirrorEntry) where
  count := by
    rw [List.length_map]
    exact links.count
  total := by
    rw [volume_mirrorEntry]
    exact links.total
  ring := by
    rw [successor_mirrorHeap, predecessor_mirrorHeap, blocks_mirrorEntry]
    exact links.ring
  nodup := by
    rw [blocks_mirrorEntry]
    exact links.nodup
  stored order member := by
    obtain ⟨original, inQueue, rfl⟩ := List.mem_map.mp member
    exact payload_mirrorHeap (links.stored original inQueue)

/-- The image of a ladder has the images of its orders. -/
theorem Framed.links_mirrorLadder
    (framed : Framed range ladder)
    (links : LadderLinks heap addr ladder side orders) :
    LadderLinks (range.mirrorHeap heap) addr (range.mirrorLadder ladder) side.opposite
      (orders.map range.mirrorEntry) where
  toShape := framed.mirror.toShape
  side_eq := congrArg Side.opposite links.side_eq
  sorted := range.ordered_mirrorEntry links.sorted
  inRange order member := by
    obtain ⟨original, inOrders, rfl⟩ := List.mem_map.mp member
    exact (inRange_mirrorPrice framed.minPrice framed.maxPrice original.price).mpr
      (links.inRange original inOrders)
  lists index level found := by
    obtain ⟨index, rfl⟩ : ∃ other, index = range.mirrorIndex other :=
      ⟨range.mirrorIndex index, (range.mirrorIndex_mirrorIndex index).symm⟩
    rw [framed.getElem?_mirrorLadder] at found
    obtain ⟨original, present, rfl⟩ := Option.map_eq_some_iff.mp found
    obtain ⟨levelPrice, levelLinks⟩ := links.lists index original present
    obtain ⟨inside, _⟩ := List.getElem?_eq_some_iff.mp present
    rw [framed.length_eq] at inside
    have mirrored : (range.mirrorLadder ladder).minPrice + (range.mirrorIndex index : Nat) =
        range.mirrorPrice (ladder.minPrice + index) := by
      rw [range.mirrorIndex_of_lt inside]
      unfold mirrorPrice
      simp only [mirrorLadder, framed.minPrice]
      unfold count at inside ⊢
      lia
    rw [mirrored]
    refine ⟨congrArg range.mirrorPrice levelPrice, ?_⟩
    rw [queueAt_mirrorEntry]
    exact links_mirrorLevel levelLinks

/-! ## Books -/

theorem liveBlocks_mirrorSpec (addr : OrderID → BlockAddress) (spec : Reference.Book) :
    (liveBlocks addr (range.mirrorSpec spec)).Perm (liveBlocks addr spec) := by
  simp only [liveBlocks, mirrorSpec, blocks_append, blocks_mirrorEntry]
  exact List.perm_append_comm

theorem pool_mirrorHeap
    {pool : MemoryPool} {free live : List BlockAddress}
    (holds : PoolHolds pool heap free live) :
    PoolHolds pool (range.mirrorHeap heap) free live := by
  refine holds.congr (fun address member => ?_) fun address notLive => ?_
  · obtain ⟨order, stored⟩ := (holds.live_iff address).mp member
    exact ⟨range.mirrorOrder order, by rw [mirrorHeap, stored]; rfl⟩
  · unfold mirrorHeap
    cases stored : heap address with
    | order order => exact absurd ((holds.live_iff address).mpr ⟨order, stored⟩) notLive
    | raw | free => rfl

/-- The image of a book carries the image of its reference book. -/
theorem FramedBook.carries_mirrorBook
    (framed : FramedBook range book)
    (carries : Carries book spec) :
    Carries (range.mirrorBook book) (range.mirrorSpec spec) where
  linked := by
    obtain ⟨addr, free, linked⟩ := carries.linked
    refine ⟨addr, free, fun side => ?_, fun side => ?_, fun side => ?_, ?_, fun id => ?_⟩
    · rw [← side.opposite_opposite, ladder_mirrorBook, orders_mirrorSpec]
      exact (framed.ladder side.opposite).links_mirrorLadder (linked.links side.opposite)
    · rw [← side.opposite_opposite, ladder_mirrorBook]
      exact linked.minPrice side.opposite
    · rw [← side.opposite_opposite, ladder_mirrorBook]
      exact linked.maxPrice side.opposite
    · exact (pool_mirrorHeap linked.pool).perm (liveBlocks_mirrorSpec addr spec)
    · rw [show (registryOf (range.mirrorBook book)).idToOrderMap.lookup id =
        (registryOf book).idToOrderMap.lookup id from rfl, linked.idMap]
      exact if_congr (range.contains_mirrorSpec spec id).symm rfl rfl
  served side price isBest := by
    rw [← side.opposite_opposite, ladder_mirrorBook] at isBest
    obtain ⟨original, wasBest, rfl⟩ := Option.map_eq_some_iff.mp isBest
    rw [← side.opposite_opposite, orders_mirrorSpec, queueAt_mirrorEntry, ne_eq,
      List.map_eq_nil_iff]
    exact carries.served side.opposite original wasBest
  minPrice := carries.minPrice
  maxPrice := carries.maxPrice

end Lists

end PriceRange
end MatchingEngine
