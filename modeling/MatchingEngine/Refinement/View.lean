import MatchingEngine.Model.Observation
import MatchingEngine.Refinement.Matching

/-!
# The reference book that a book stands for

`view` reads a reference book off the lists of the levels, best price first.
Whatever reference book a book refines is its view, so results about reference
books can be stated for the books of the source.
-/

namespace MatchingEngine

open Reference (Order priority orderPriority)

namespace OrderBook

/-- The orders of a level, with its price. -/
def pricedOrders (book : OrderBook) (side : Side) (index : Nat) : List Order :=
  match (book.ladder side).levels[index]? with
  | some level =>
      (book.levelOrders side index).map fun order =>
        ⟨order.id, level.price, order.quantity, order.lifetime⟩
  | none => []

/-- The indices of the levels of a side, best price first. -/
def levelIndices (book : OrderBook) (side : Side) : List Nat :=
  match side with
  | .buy => (List.range (book.ladder side).levels.length).reverse
  | .sell => List.range (book.ladder side).levels.length

/-- The orders of a side, best price first. -/
def sideOrders (book : OrderBook) (side : Side) : List Order :=
  (book.levelIndices side).flatMap (book.pricedOrders side)

/-- The reference book on the levels of a book. -/
def view (book : OrderBook) : Reference.Book where
  minPrice := book.minPrice
  maxPrice := book.maxPrice
  bids := book.sideOrders .buy
  asks := book.sideOrders .sell

/-- Whatever can be read off the orders of a level alone. -/
theorem map_pricedOrders
    {β : Type*} (feature : Order → β) {read : RestingOrder → β}
    (same : ∀ order price,
      feature ⟨order.id, price, order.quantity, order.lifetime⟩ = read order)
    (book : OrderBook) (side : Side) (index : Nat) :
    (book.pricedOrders side index).map feature = (book.levelOrders side index).map read := by
  cases found : (book.ladder side).levels[index]? with
  | some level =>
      simp only [pricedOrders, found, List.map_map]
      exact List.map_congr_left fun order _ => same order level.price
  | none => simp [pricedOrders, levelOrders, levelBlocks, found]

theorem orders_view (book : OrderBook) (side : Side) :
    book.view.orders side = book.sideOrders side := by
  cases side <;> rfl

end OrderBook

namespace Refinement

open OrderBook (Registry)

variable {book : OrderBook} {spec : Reference.Book}

/-- What the blocks on the list of a level are. -/
structure ListOfLevel
    (book : OrderBook) (addr : OrderID → BlockAddress) (side : Side) (index : Nat)
    (level : PriceLevel) (queue : List Order) : Prop where
  levelBlocks : book.levelBlocks side index = blocks addr queue
  pricedOrders : book.pricedOrders side index = queue
  forward : LinkedChain.Chain (nextLink book.heap) level.head (blocks addr queue)
  backward : LinkedChain.Chain (prevLink book.heap) level.tail (blocks addr queue).reverse

theorem list_of_level
    {addr : OrderID → BlockAddress} {free : List BlockAddress}
    (linked : Linked book.heap (registryOf book) book.ladder addr free spec)
    {side : Side} {index : Nat} {level : PriceLevel}
    (found : (book.ladder side).levels[index]? = some level) :
    ListOfLevel book addr side index level
      (queueAt side (spec.minPrice + index) (spec.orders side)) := by
  obtain ⟨levelPrice, levelLinks⟩ := (linked.links side).lists index level found
  rw [linked.minPrice side] at levelPrice levelLinks
  have stored : ∀ address ∈ blocks addr
      (queueAt side (spec.minPrice + index) (spec.orders side)),
      ∃ block, book.heap address = .order block := by
    intro address member
    obtain ⟨order, inQueue, rfl⟩ := mem_blocks.mp member
    obtain ⟨block, stored, _⟩ := levelLinks.block_order inQueue
    exact ⟨block, stored⟩
  have forward := levelLinks.ring.chain (nextLink book.heap) fun address member => by
    obtain ⟨block, stored⟩ := stored address member
    simp [nextLink, stored, successor_some stored]
  have backward := levelLinks.ring.reverse.chain (prevLink book.heap)
    fun address member => by
      obtain ⟨block, stored⟩ := stored address (List.mem_reverse.mp member)
      simp [prevLink, stored, predecessor_some stored]
  rw [successor_none] at forward
  rw [predecessor_none] at backward
  have enough : (blocks addr (queueAt side (spec.minPrice + index)
      (spec.orders side))).length ≤ book.memoryPool.currentlyAllocated := by
    rw [blocks, List.length_map]
    exact linked.length_queueAt_le side _
  have levelBlocks : book.levelBlocks side index = blocks addr
      (queueAt side (spec.minPrice + index) (spec.orders side)) := by
    rw [OrderBook.levelBlocks, found]
    exact forward.collect_eq enough
  refine ⟨levelBlocks, ?_, forward, backward⟩
  rw [OrderBook.pricedOrders, found, OrderBook.levelOrders, levelBlocks]
  have contents : ∀ order ∈ queueAt side (spec.minPrice + index) (spec.orders side),
      (book.orderAt (addr order.id)).map (fun block =>
        (⟨block.id, level.price, block.quantity, block.lifetime⟩ : Order)) = some order := by
    intro order inQueue
    obtain ⟨block, stored, contents⟩ := levelLinks.block_order inQueue
    have orderPrice := (mem_queueAt.mp inQueue).2
    obtain ⟨next, prev, blockLevel, id, quantity, lifetime, blockSide⟩ := block
    cases contents
    simp only [OrderBook.orderAt, stored, Option.map_some, levelPrice, ← orderPrice]
  rw [blocks]
  generalize queueAt side (spec.minPrice + index) (spec.orders side) = queue at contents
  induction queue with
  | nil => rfl
  | cons order rest inductionHypothesis =>
      obtain ⟨block, atBlock, equal⟩ :=
        Option.map_eq_some_iff.mp (contents order List.mem_cons_self)
      have tail := inductionHypothesis fun other member =>
        contents other (List.mem_cons_of_mem _ member)
      simp only [List.map_cons, List.filterMap_cons, atBlock, equal] at tail ⊢
      rw [tail]

/-- The list of every level is the queue of its price. -/
theorem Carries.pricedOrders_eq (carries : Carries book spec) (side : Side) (index : Nat) :
    book.pricedOrders side index =
      queueAt side (spec.minPrice + index) (spec.orders side) := by
  obtain ⟨addr, free, linked⟩ := carries.linked
  cases found : (book.ladder side).levels[index]? with
  | some level => exact (list_of_level linked found).pricedOrders
  | none =>
      rw [OrderBook.pricedOrders, found, eq_comm, queueAt_eq_nil]
      intro order member orderPrice
      have inside := (linked.links side).toShape.indexOf_lt (linked.inRange member)
      have beyond := List.getElem?_eq_none_iff.mp found
      rw [orderPrice, ← linked.minPrice side, Shape.indexOf_add] at inside
      omega

/-- A book carries the orders of its view only. -/
theorem Carries.view_eq (carries : Carries book spec) : book.view = spec := by
  obtain ⟨addr, free, linked⟩ := carries.linked
  refine Reference.Book.ext_orders carries.minPrice carries.maxPrice fun side => ?_
  rw [OrderBook.orders_view, OrderBook.sideOrders]
  have links := linked.links side
  have length := links.length
  rw [List.flatMap_congr fun index _ => carries.pricedOrders_eq side index]
  have keyed := links.sorted.flatMap_bucket
    ((book.levelIndices side).map fun index : Nat =>
      priority side (spec.minPrice + index)) ?_ ?_
  · rw [List.flatMap_map] at keyed
    exact keyed
  · rw [List.pairwise_map]
    cases side with
    | buy =>
        simp only [OrderBook.levelIndices, List.pairwise_reverse, priority]
        exact List.pairwise_lt_range.imp fun earlier => by omega
    | sell =>
        simp only [OrderBook.levelIndices, priority]
        exact List.pairwise_lt_range.imp fun earlier => by omega
  · intro order member
    have inRange := linked.inRange member
    have inside := links.toShape.indexOf_lt inRange
    refine List.mem_map.mpr ⟨indexOf (book.ladder side) order.price, ?_, ?_⟩
    · cases side <;> simpa [OrderBook.levelIndices] using inside
    · rw [← linked.minPrice side, Shape.indexOf_price inRange]
      rfl

theorem Refines.pricedOrders_eq (refines : Refines book spec) (side : Side) (index : Nat) :
    book.pricedOrders side index =
      queueAt side (spec.minPrice + index) (spec.orders side) :=
  refines.carries.pricedOrders_eq side index

theorem Refines.view_eq (refines : Refines book spec) : book.view = spec :=
  refines.carries.view_eq

/-- A book within capacity has a roomy view. -/
theorem Refines.roomy
    (refines : Refines book spec)
    (capacity : book.WithinCapacity) :
    RoomyBook spec := by
  obtain ⟨addr, free, core⟩ := refines.core
  intro side price
  have holds := core.holds side
  by_cases inRange : InRange (book.ladder side) price
  · have inside := holds.toShape.indexOf_lt inRange
    have list := list_of_level core.toLinked (List.getElem?_eq_getElem inside)
    have length := capacity side (indexOf (book.ladder side) price)
    rw [list.levelBlocks, ← core.minPrice side, Shape.indexOf_price inRange, blocks,
      List.length_map] at length
    exact length
  · have noOrders : queueAt side price (spec.orders side) = [] :=
      queueAt_eq_nil.mpr fun order member equal =>
        inRange (equal ▸ core.inRange member)
    rw [noOrders]
    decide

end Refinement
end MatchingEngine
