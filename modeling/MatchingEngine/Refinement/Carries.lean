import MatchingEngine.Refinement.Book
import MatchingEngine.Refinement.Capacity
import MatchingEngine.Refinement.Scans

/-!
# Books that carry the orders of a reference book

`Carries` relates a book of the source to a reference book by its lists, its id
map and its pool; of the cached best prices it says only that some order rests at
each.  It holds whatever the quantities and however long the queues are, also where
the best prices and counters have gone wrong.
-/

namespace MatchingEngine
namespace Refinement

open Reference (Order)
open OrderBook (Registry)

/-! ## Books -/

/-- The members of a book that `retire_order` works on. -/
def registryOf (book : OrderBook) : Registry := ⟨book.idToOrderMap, book.memoryPool⟩

/-- Some order rests at every cached best price, which need not be the best one. -/
def Served (ladders : Side → PriceLadder) (spec : Reference.Book) : Prop :=
  ∀ side price, (ladders side).bestPrice = some price →
    queueAt side price (spec.orders side) ≠ []

/-- One side has changed. -/
theorem Served.update
    {ladders : Side → PriceLadder} {spec spec' : Reference.Book} {side : Side}
    {ladder : PriceLadder}
    (served : Served ladders spec)
    (otherSide : ∀ other, other ≠ side → spec'.orders other = spec.orders other)
    (changed : ∀ price, ladder.bestPrice = some price →
      queueAt side price (spec'.orders side) ≠ []) :
    Served (Function.update ladders side ladder) spec' := by
  intro other price isBest
  by_cases same : other = side
  · subst same
    rw [Function.update_self] at isBest
    exact changed price isBest
  · rw [Function.update_of_ne same] at isBest
    rw [otherSide other same]
    exact served other price isBest

/-- The lists of a book of the source are the queues of a reference book. -/
structure Carries (book : OrderBook) (spec : Reference.Book) : Prop where
  linked : ∃ addr free, Linked book.heap (registryOf book) book.ladder addr free spec
  served : Served book.ladder spec
  minPrice : book.minPrice = spec.minPrice
  maxPrice : book.maxPrice = spec.maxPrice

theorem Linked.currentlyAllocated_eq
    {book : OrderBook} {spec : Reference.Book} {addr : OrderID → BlockAddress}
    {free : List BlockAddress}
    (linked : Linked book.heap (registryOf book) book.ladder addr free spec) :
    book.memoryPool.currentlyAllocated = (liveBlocks addr spec).length :=
  linked.pool.currentlyAllocated

/-- The pool has a free block, so that the next order needs no new slab. -/
def HasFree (book : OrderBook) : Prop := book.memoryPool.firstFree ≠ none

@[simp] theorem ladder_setLadder (book : OrderBook) (side : Side) (ladder : PriceLadder) :
    (book.setLadder side ladder).ladder = Function.update book.ladder side ladder := by
  funext other
  cases side <;> cases other <;> rfl

@[simp] theorem setLadder_heap (book : OrderBook) (side : Side) (ladder : PriceLadder) :
    (book.setLadder side ladder).heap = book.heap := by
  cases side <;> rfl

@[simp] theorem registryOf_setLadder
    (book : OrderBook) (side : Side) (ladder : PriceLadder) :
    registryOf (book.setLadder side ladder) = registryOf book := by
  cases side <;> rfl

@[simp] theorem setLadder_minPrice (book : OrderBook) (side : Side) (ladder : PriceLadder) :
    (book.setLadder side ladder).minPrice = book.minPrice := by
  cases side <;> rfl

@[simp] theorem setLadder_maxPrice (book : OrderBook) (side : Side) (ladder : PriceLadder) :
    (book.setLadder side ladder).maxPrice = book.maxPrice := by
  cases side <;> rfl

/-- The cached best prices are not part of `Linked`. -/
theorem Linked.withBest
    {heap : Heap} {registry : Registry} {ladders : Side → PriceLadder}
    {addr : OrderID → BlockAddress} {free : List BlockAddress} {spec : Reference.Book}
    {side : Side} {ladder : PriceLadder}
    (linked : Linked heap registry (Function.update ladders side ladder) addr free spec)
    (best : Option Price) :
    Linked heap registry (Function.update ladders side { ladder with bestPrice := best })
      addr free spec where
  links other := by
    have links := linked.links other
    by_cases same : other = side
    · subst same
      rw [Function.update_self] at links ⊢
      exact links.withBest best
    · rw [Function.update_of_ne same] at links ⊢
      exact links
  minPrice other := by
    have minPrice := linked.minPrice other
    by_cases same : other = side
    · subst same
      rw [Function.update_self] at minPrice ⊢
      exact minPrice
    · rw [Function.update_of_ne same] at minPrice ⊢
      exact minPrice
  maxPrice other := by
    have maxPrice := linked.maxPrice other
    by_cases same : other = side
    · subst same
      rw [Function.update_self] at maxPrice ⊢
      exact maxPrice
    · rw [Function.update_of_ne same] at maxPrice ⊢
      exact maxPrice
  pool := linked.pool
  idMap := linked.idMap

/-- No side has more orders than are live. -/
theorem Linked.length_orders_le
    {book : OrderBook} {spec : Reference.Book}
    {addr : OrderID → BlockAddress} {free : List BlockAddress}
    (linked : Linked book.heap (registryOf book) book.ladder addr free spec)
    (side : Side) :
    (spec.orders side).length ≤ book.memoryPool.currentlyAllocated := by
  rw [linked.currentlyAllocated_eq, liveBlocks, blocks, List.length_map, List.length_append]
  cases side with
  | buy => exact Nat.le_add_right _ _
  | sell => exact Nat.le_add_left _ _

/-- No queue is longer than the number of live orders. -/
theorem Linked.length_queueAt_le
    {book : OrderBook} {spec : Reference.Book}
    {addr : OrderID → BlockAddress} {free : List BlockAddress}
    (linked : Linked book.heap (registryOf book) book.ladder addr free spec)
    (side : Side) (price : Price) :
    (queueAt side price (spec.orders side)).length ≤ book.memoryPool.currentlyAllocated :=
  (List.length_filter_le _ _).trans (linked.length_orders_le side)

/-- Putting a book together from its new members, one ladder of which has
changed. -/
theorem Carries.of_linked
    {book : OrderBook} {spec spec' : Reference.Book}
    (carries : Carries book spec)
    {side : Side} {ladder : PriceLadder} {heap' : Heap} {registry' : Registry}
    {addr : OrderID → BlockAddress} {free : List BlockAddress}
    (linked : Linked heap' registry' (Function.update book.ladder side ladder) addr free spec')
    (otherSide : ∀ other, other ≠ side → spec'.orders other = spec.orders other)
    (served : ∀ price, ladder.bestPrice = some price →
      queueAt side price (spec'.orders side) ≠ [])
    (sameMinPrice : spec'.minPrice = spec.minPrice)
    (sameMaxPrice : spec'.maxPrice = spec.maxPrice) :
    Carries
      ({ book with
        heap := heap'
        memoryPool := registry'.memoryPool
        idToOrderMap := registry'.idToOrderMap }.setLadder side ladder)
      spec' where
  linked := ⟨addr, free, by
    rw [setLadder_heap, registryOf_setLadder, ladder_setLadder]
    exact linked⟩
  served := by
    rw [ladder_setLadder]
    exact carries.served.update otherSide served
  minPrice := by
    rw [setLadder_minPrice, sameMinPrice]
    exact carries.minPrice
  maxPrice := by
    rw [setLadder_maxPrice, sameMaxPrice]
    exact carries.maxPrice

namespace Carries

variable {book : OrderBook} {spec : Reference.Book}

theorem distinct (carries : Carries book spec) : spec.Distinct := by
  obtain ⟨addr, free, linked⟩ := carries.linked
  exact linked.distinct

theorem ladder_side (carries : Carries book spec) (side : Side) :
    (book.ladder side).side = side := by
  obtain ⟨_, _, linked⟩ := carries.linked
  exact (linked.links side).side_eq

theorem currentlyAllocated_eq (carries : Carries book spec) :
    book.memoryPool.currentlyAllocated = (spec.bids ++ spec.asks).length := by
  obtain ⟨addr, free, linked⟩ := carries.linked
  rw [linked.currentlyAllocated_eq, liveBlocks, blocks, List.length_map]

theorem mem_idMap (carries : Carries book spec) {id : OrderID} :
    id ∈ book.idToOrderMap ↔ spec.Contains id := by
  obtain ⟨addr, free, linked⟩ := carries.linked
  exact linked.mem_idMap

/-- `get_num_orders` counts the orders of both sides. -/
theorem getNumOrders_eq (carries : Carries book spec) :
    book.getNumOrders = (spec.bids ++ spec.asks).length := by
  have keys : book.idToOrderMap.keys = ((spec.bids ++ spec.asks).map Order.id).toFinset := by
    ext id
    rw [Finmap.mem_keys, carries.mem_idMap, List.mem_toFinset, List.mem_map]
    rfl
  rw [OrderBook.getNumOrders, keys, List.toFinset_card_of_nodup carries.distinct,
    List.length_map]

theorem inRange
    (carries : Carries book spec)
    (side : Side) {price : Price}
    (range : spec.minPrice ≤ price ∧ price ≤ spec.maxPrice) :
    InRange (book.ladder side) price := by
  obtain ⟨addr, free, linked⟩ := carries.linked
  unfold InRange
  rw [linked.minPrice side, linked.maxPrice side]
  exact range

theorem lookup_eq_none
    (carries : Carries book spec)
    {id : OrderID}
    (absent : spec.locate id = none) :
    book.idToOrderMap.lookup id = none := by
  rw [Finmap.lookup_eq_none, carries.mem_idMap]
  exact Reference.Book.locate_eq_none.mp absent

/-- Everything the source reads about an order that rests. -/
theorem resting
    (carries : Carries book spec)
    {side : Side} {order : Order}
    (member : order ∈ spec.orders side) :
    ∃ addr free block level front rest,
      Linked book.heap (registryOf book) book.ladder addr free spec ∧
      book.idToOrderMap.lookup order.id = some (addr order.id) ∧
      book.heap (addr order.id) = .order block ∧
      unlinked block = Refinement.resting ⟨side, indexOf (book.ladder side) order.price⟩ order ∧
      (book.ladder side).level (indexOf (book.ladder side) order.price) = .ok level ∧
      level.price = order.price ∧
      queueAt side order.price (spec.orders side) = front ++ order :: rest ∧
      LevelLinks book.heap addr ⟨side, indexOf (book.ladder side) order.price⟩ level
        (front ++ order :: rest) := by
  obtain ⟨addr, free, linked⟩ := carries.linked
  obtain ⟨level, access, levelPrice, levelLinks⟩ :=
    (linked.links side).level_of (linked.inRange member)
  have inQueue : order ∈ queueAt side order.price (spec.orders side) :=
    mem_queueAt.mpr ⟨member, rfl⟩
  obtain ⟨block, stored, contents⟩ := levelLinks.block_order inQueue
  obtain ⟨front, rest, split⟩ := List.append_of_mem inQueue
  exact ⟨addr, free, block, level, front, rest, linked, linked.lookup_of_mem member, stored,
    contents, access, levelPrice, split, split ▸ levelLinks⟩

end Carries

/-! ## Orders at the cached best prices -/

section Served

variable {spec : Reference.Book} {side : Side}

/-- A best price that is the best one is served by the first order. -/
theorem served_of_best
    {ladders : Side → PriceLadder}
    (best : ∀ side, (ladders side).bestPrice = bestOf (spec.orders side)) :
    Served ladders spec := by
  intro side price isBest nothing
  rw [best, bestOf] at isBest
  obtain ⟨head, first, atPrice⟩ := Option.map_eq_some_iff.mp isBest
  exact queueAt_eq_nil.mp nothing head (List.mem_of_head? first) atPrice

/-- A reduction empties no queue. -/
theorem queueAt_reduce_ne_nil
    {price : Price}
    (occupied : queueAt side price (spec.orders side) ≠ [])
    (id : OrderID) (amount : Quantity) :
    queueAt side price ((spec.reduce id amount).orders side) ≠ [] := by
  rw [Reference.Book.orders_reduce, queueAt_map_reduce, ne_eq, List.map_eq_nil_iff]
  exact occupied

/-- A new order empties no queue and serves its own price. -/
theorem queueAt_rest_ne_nil
    {price : Price} {order : Order}
    (occupied : queueAt side price (spec.orders side) ≠ [] ∨ price = order.price) :
    queueAt side price ((spec.rest side order).orders side) ≠ [] := by
  rw [Reference.Book.rest, Reference.Book.orders_setOrders_self]
  rcases occupied with occupied | rfl
  · obtain ⟨found, member⟩ := List.exists_mem_of_ne_nil _ occupied
    obtain ⟨inSide, atPrice⟩ := mem_queueAt.mp member
    exact List.ne_nil_of_mem
      (mem_queueAt.mpr ⟨KeyedList.mem_enqueue.mpr (Or.inr inSide), atPrice⟩)
  · exact List.ne_nil_of_mem (mem_queueAt.mpr ⟨KeyedList.mem_enqueue.mpr (Or.inl rfl), rfl⟩)

/-- When an order has left, its queue is empty only if its level counts zero. -/
theorem Carries.queueAt_remove_ne_nil
    {book : OrderBook}
    (carries : Carries book spec)
    {order : Order} {front rest : List Order}
    (member : order ∈ spec.orders side)
    (split : queueAt side order.price (spec.orders side) = front ++ order :: rest)
    {heap : Heap} {addr : OrderID → BlockAddress} {place : LevelAddress} {level : PriceLevel}
    (links : LevelLinks heap addr place level (front ++ rest))
    {price : Price}
    (isBest : (book.ladder side).bestPrice = some price)
    (occupied : ¬ (level.empty = true ∧ price = order.price)) :
    queueAt side price ((spec.remove order.id).orders side) ≠ [] := by
  by_cases same : price = order.price
  · have counts : level.empty = false :=
      Bool.eq_false_iff.mpr fun vacant => occupied ⟨vacant, same⟩
    rw [same, queueAt_remove carries.distinct split]
    exact links.ne_nil counts
  · rw [queueAt_remove_of_ne carries.distinct member same]
    exact carries.served side price isBest

end Served


end Refinement
end MatchingEngine
