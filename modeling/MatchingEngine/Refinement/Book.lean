import MatchingEngine.Model.OrderBook
import MatchingEngine.Refinement.Ladder
import MatchingEngine.Refinement.Pool

/-!
# The members of the book hold a reference book

`Core` ties the heap, the id map, the pool and the two ladders to one reference
book.  It does not ask for the cached best prices, so that it can be stated in
the middle of an operation.  Detaching an order, reducing it in place and
resting a new one each take the members of the book from one reference book to
the next; every operation of the source is a sequence of these three.
-/

namespace MatchingEngine
namespace Refinement

open Reference (Order priority orderPriority)
open OrderBook (Registry)

/-- The blocks of all orders of a book. -/
def liveBlocks (addr : OrderID → BlockAddress) (spec : Reference.Book) :
    List BlockAddress :=
  blocks addr (spec.bids ++ spec.asks)

/-- The lists of the ladders, the id map and the pool are those of one reference book,
whatever the quantities of its orders and the lengths of its queues. -/
structure Linked
    (heap : Heap) (registry : Registry) (ladders : Side → PriceLadder)
    (addr : OrderID → BlockAddress) (free : List BlockAddress) (spec : Reference.Book) :
    Prop where
  links : ∀ side, LadderLinks heap addr (ladders side) side (spec.orders side)
  minPrice : ∀ side, (ladders side).minPrice = spec.minPrice
  maxPrice : ∀ side, (ladders side).maxPrice = spec.maxPrice
  pool : PoolHolds registry.memoryPool heap free (liveBlocks addr spec)
  idMap : ∀ id, registry.idToOrderMap.lookup id =
    if spec.Contains id then some (addr id) else none

/-- Heap, id map, pool and ladders hold one reference book. -/
structure Core
    (heap : Heap) (registry : Registry) (ladders : Side → PriceLadder)
    (addr : OrderID → BlockAddress) (free : List BlockAddress) (spec : Reference.Book) :
    Prop
    extends Linked heap registry ladders addr free spec where
  sound : ∀ side, Sound (spec.orders side)
  unwrapped : ∀ side, Unwrapped (ladders side) side (spec.orders side)

/-- The levels of a side hold its orders. -/
theorem Core.holds
    {heap : Heap} {registry : Registry} {ladders : Side → PriceLadder}
    {addr : OrderID → BlockAddress} {free : List BlockAddress} {spec : Reference.Book}
    (core : Core heap registry ladders addr free spec) (side : Side) :
    LadderHolds heap addr (ladders side) side (spec.orders side) :=
  ⟨core.links side, core.sound side, core.unwrapped side⟩

theorem mem_liveBlocks
    {addr : OrderID → BlockAddress} {spec : Reference.Book} {address : BlockAddress} :
    address ∈ liveBlocks addr spec ↔
      ∃ side, ∃ order ∈ spec.orders side, addr order.id = address := by
  unfold liveBlocks
  rw [mem_blocks]
  constructor
  · rintro ⟨order, member, equal⟩
    obtain ⟨side, member⟩ := Reference.Book.mem_sides.mp member
    exact ⟨side, order, member, equal⟩
  · rintro ⟨side, order, member, equal⟩
    exact ⟨order, Reference.Book.mem_sides.mpr ⟨side, member⟩, equal⟩

namespace Linked

variable {heap heap' : Heap} {registry : Registry} {ladders : Side → PriceLadder}
variable {addr : OrderID → BlockAddress} {free : List BlockAddress} {spec : Reference.Book}
variable {side : Side} {order : Order} {front rest : List Order}

theorem live_nodup (linked : Linked heap registry ladders addr free spec) :
    (liveBlocks addr spec).Nodup :=
  (List.nodup_append.mp linked.pool.nodup).2.1

/-- The blocks are distinct, hence so are the ids. -/
theorem distinct (linked : Linked heap registry ladders addr free spec) : spec.Distinct := by
  have nodup := linked.live_nodup
  unfold liveBlocks blocks at nodup
  rw [← Function.comp_def addr Order.id, ← List.map_map] at nodup
  exact nodup.of_map

/-- Orders in one block are one order. -/
theorem eq_of_addr_eq
    (linked : Linked heap registry ladders addr free spec)
    {left right : Order} {leftSide rightSide : Side}
    (leftMember : left ∈ spec.orders leftSide)
    (rightMember : right ∈ spec.orders rightSide)
    (equal : addr left.id = addr right.id) :
    leftSide = rightSide ∧ left = right := by
  have same : left = right := List.inj_on_of_nodup_map linked.live_nodup
    (Reference.Book.mem_sides.mpr ⟨_, leftMember⟩)
    (Reference.Book.mem_sides.mpr ⟨_, rightMember⟩) equal
  exact linked.distinct.eq_of_id_eq leftMember rightMember (congrArg Order.id same)

theorem inRange
    (linked : Linked heap registry ladders addr free spec)
    (member : order ∈ spec.orders side) :
    InRange (ladders side) order.price :=
  (linked.links side).inRange order member

/-- An order outside a queue has its block outside the blocks of the queue. -/
theorem not_mem_queue
    (linked : Linked heap registry ladders addr free spec)
    {price : Price} {other : Side}
    (member : order ∈ spec.orders other)
    (outside : other ≠ side ∨ order.price ≠ price) :
    addr order.id ∉ blocks addr (queueAt side price (spec.orders side)) := by
  intro inQueue
  obtain ⟨found, foundMember, equal⟩ := mem_blocks.mp inQueue
  obtain ⟨inSide, foundPrice⟩ := mem_queueAt.mp foundMember
  obtain ⟨sameSide, rfl⟩ := linked.eq_of_addr_eq member inSide equal.symm
  rcases outside with different | different
  · exact different sameSide
  · exact different foundPrice

/-- The pool does not notice changes to the orders of one queue. -/
theorem pool_congr
    (linked : Linked heap registry ladders addr free spec)
    (queue : List Order)
    (orders : ∀ address ∈ blocks addr queue, ∃ order, heap' address = .order order)
    (inLive : ∀ address ∈ blocks addr queue, address ∈ liveBlocks addr spec)
    (frame : ∀ address, address ∉ blocks addr queue → heap' address = heap address) :
    PoolHolds registry.memoryPool heap' free (liveBlocks addr spec) := by
  refine linked.pool.congr (fun address live => ?_) (fun address notLive => ?_)
  · by_cases inQueue : address ∈ blocks addr queue
    · exact orders address inQueue
    · rw [frame address inQueue]
      exact (linked.pool.live_iff address).mp live
  · exact frame address fun inQueue => notLive (inLive address inQueue)

/-- Blocks of a queue are live. -/
theorem live_of_mem_queue
    {price : Price} {address : BlockAddress}
    (member : address ∈ blocks addr (queueAt side price (spec.orders side))) :
    address ∈ liveBlocks addr spec := by
  obtain ⟨order, inQueue, rfl⟩ := mem_blocks.mp member
  exact mem_liveBlocks.mpr ⟨side, order, (mem_queueAt.mp inQueue).1, rfl⟩

/-- The id map finds the block of every resting order. -/
theorem lookup_of_mem
    (linked : Linked heap registry ladders addr free spec)
    (member : order ∈ spec.orders side) :
    registry.idToOrderMap.lookup order.id = some (addr order.id) := by
  rw [linked.idMap, if_pos (Reference.Book.contains_of_mem member)]

theorem mem_idMap
    (linked : Linked heap registry ladders addr free spec) {id : OrderID} :
    id ∈ registry.idToOrderMap ↔ spec.Contains id := by
  rw [← Finmap.lookup_isSome, linked.idMap]
  by_cases present : spec.Contains id <;> simp [present]

/-- An operation that changes the queue of one price of one side, and with it one
level and the blocks of its orders. -/
theorem replaceLevel
    (linked : Linked heap registry ladders addr free spec)
    {spec' : Reference.Book} {registry' : Registry} {addr' : OrderID → BlockAddress}
    {free' : List BlockAddress} {price : Price} {level' : PriceLevel}
    (inRange : InRange (ladders side) price)
    (sameMinPrice : spec'.minPrice = spec.minPrice)
    (sameMaxPrice : spec'.maxPrice = spec.maxPrice)
    (otherSide : ∀ other, other ≠ side → spec'.orders other = spec.orders other)
    (levelPrice : level'.price = price)
    (levelLinks : LevelLinks heap' addr' ⟨side, indexOf (ladders side) price⟩ level'
      (queueAt side price (spec'.orders side)))
    (sorted : KeyedList.Ordered (orderPriority side) (spec'.orders side))
    (allInRange : ∀ order ∈ spec'.orders side, InRange (ladders side) order.price)
    (otherPrices : ∀ other, other ≠ price →
      queueAt side other (spec'.orders side) = queueAt side other (spec.orders side))
    (frame : ∀ other, ∀ order ∈ spec.orders other, (other ≠ side ∨ order.price ≠ price) →
      addr' order.id = addr order.id ∧ heap' (addr order.id) = heap (addr order.id))
    (pool : PoolHolds registry'.memoryPool heap' free' (liveBlocks addr' spec'))
    (idMap : ∀ id, registry'.idToOrderMap.lookup id =
      if spec'.Contains id then some (addr' id) else none) :
    Linked heap' registry'
      (Function.update ladders side
        ((ladders side).setLevel (indexOf (ladders side) price) level'))
      addr' free' spec' where
  links other := by
    by_cases same : other = side
    · subst same
      rw [Function.update_self]
      exact (linked.links other).setLevel inRange levelPrice levelLinks sorted allInRange
        otherPrices fun order member different =>
          frame other order member (Or.inr different)
    · rw [Function.update_of_ne same, otherSide other same]
      exact (linked.links other).congr fun order member =>
        frame other order member (Or.inl same)
  minPrice other := by
    rw [sameMinPrice, ← linked.minPrice other]
    by_cases same : other = side
    · subst same
      rw [Function.update_self]
      rfl
    · rw [Function.update_of_ne same]
  maxPrice other := by
    rw [sameMaxPrice, ← linked.maxPrice other]
    by_cases same : other = side
    · subst same
      rw [Function.update_self]
      rfl
    · rw [Function.update_of_ne same]
  pool := pool
  idMap := idMap

/-! ## Detaching an order -/

/-- When an order has left its level, giving its block back and erasing its id
takes the members of the book to the reference book without the order. -/
theorem detach
    (linked : Linked heap registry ladders addr free spec)
    (member : order ∈ spec.orders side)
    (split : queueAt side order.price (spec.orders side) = front ++ order :: rest)
    {level level' : PriceLevel}
    (levelPrice : level.price = order.price)
    (removed : LevelLinks.Removed heap addr
      ⟨side, indexOf (ladders side) order.price⟩ level front order rest level' heap') :
    ∃ pool heap'',
      registry.memoryPool.deallocate (some (addr order.id)) heap' = .ok (pool, heap'') ∧
      Linked heap'' ⟨registry.idToOrderMap.erase order.id, pool⟩
        (Function.update ladders side
          ((ladders side).setLevel (indexOf (ladders side) order.price) level'))
        addr (addr order.id :: free) (spec.remove order.id) := by
  have distinct := linked.distinct
  have poolHolds : PoolHolds registry.memoryPool heap' free
      (addr order.id :: liveBlocks addr (spec.remove order.id)) := by
    refine PoolHolds.perm (linked.pool_congr (front ++ order :: rest)
      (fun address inQueue => ?_) (fun address inQueue => ?_) removed.frame) ?_
    · rw [blocks_append, blocks_cons] at inQueue
      by_cases isOrder : address = addr order.id
      · exact ⟨_, isOrder ▸ removed.block⟩
      · have inRest : address ∈ blocks addr (front ++ rest) := by
          rw [blocks_append]
          simp only [List.mem_append, List.mem_cons] at inQueue ⊢
          tauto
        obtain ⟨other, otherMember, rfl⟩ := mem_blocks.mp inRest
        obtain ⟨block, stored, _⟩ := removed.links.block_order otherMember
        exact ⟨block, stored⟩
    · exact live_of_mem_queue (split ▸ inQueue)
    · exact ((distinct.perm_remove member).map fun order => addr order.id).symm
  obtain ⟨pool, deallocated, poolAfter⟩ := poolHolds.deallocate
  have frame : ∀ other ∈ (spec.remove order.id).bids ++ (spec.remove order.id).asks,
      heap'.write (addr order.id) (.free registry.memoryPool.firstFree) (addr other.id) =
        heap' (addr other.id) := by
    intro other inRemoved
    refine Heap.write_of_ne (fun equal => ?_) _ _
    have nodup := (List.nodup_append.mp poolHolds.nodup).2.1
    exact (List.nodup_cons.mp nodup).1 (equal ▸ mem_blocks.mpr ⟨other, inRemoved, rfl⟩)
  have sideOrders := Reference.Book.orders_remove spec order.id
  have queueAfter := queueAt_remove distinct split
  have survives : ∀ other, ∀ found ∈ spec.orders other,
      (other ≠ side ∨ found.price ≠ order.price) → found.id ≠ order.id := by
    intro other found inOther outside equal
    obtain ⟨rfl, rfl⟩ := distinct.eq_of_id_eq inOther member equal
    rcases outside with different | different <;> exact different rfl
  refine ⟨pool, _, deallocated, linked.replaceLevel (linked.inRange member) rfl rfl
    (fun other different => distinct.orders_remove_of_ne member different)
    (removed.price.trans levelPrice) ?_ ?_ ?_ (fun price different => ?_)
    (fun other found inOther outside => ⟨rfl, ?_⟩) poolAfter (fun id => ?_)⟩
  · rw [queueAfter]
    refine removed.links.congr fun found foundMember => frame found ?_
    rw [← queueAfter] at foundMember
    exact Reference.Book.mem_sides.mpr ⟨side, (mem_queueAt.mp foundMember).1⟩
  · rw [sideOrders]
    exact (linked.links side).sorted.filter _
  · intro found foundMember
    rw [sideOrders] at foundMember
    exact (linked.links side).inRange found (List.mem_of_mem_filter foundMember)
  · exact queueAt_remove_of_ne distinct member different
  · have inRemoved : found ∈ (spec.remove order.id).orders other := by
      rw [sideOrders, List.mem_filter]
      exact ⟨inOther, by simpa using survives other found inOther outside⟩
    rw [frame found (Reference.Book.mem_sides.mpr ⟨other, inRemoved⟩)]
    refine removed.frame _ ?_
    rw [← split]
    exact linked.not_mem_queue inOther outside
  · by_cases same : id = order.id
    · subst same
      rw [Finmap.lookup_erase, if_neg fun present =>
        (Reference.Book.contains_remove.mp present).2 rfl]
    · rw [Finmap.lookup_erase_ne same, linked.idMap]
      simp [Reference.Book.contains_remove, same]

/-! ## Reducing an order in place -/

theorem liveBlocks_reduce
    (addr : OrderID → BlockAddress) (spec : Reference.Book) (id : OrderID)
    (amount : Quantity) :
    liveBlocks addr (spec.reduce id amount) = liveBlocks addr spec := by
  unfold liveBlocks blocks Reference.Book.reduce
  simp only [← List.map_append, List.map_map]
  refine List.map_congr_left fun found _ => ?_
  simp only [Function.comp_apply]
  split <;> rfl

/-- When an order has been reduced on its level, the members of the book hold the
reference book with the reduced order. -/
theorem shrink
    (linked : Linked heap registry ladders addr free spec)
    (member : order ∈ spec.orders side)
    (split : queueAt side order.price (spec.orders side) = front ++ order :: rest)
    {level level' : PriceLevel} {amount : Quantity}
    (levelPrice : level.price = order.price)
    (reduced : LevelLinks.Reduced heap addr ⟨side, indexOf (ladders side) order.price⟩ level
      front order rest amount level' heap') :
    Linked heap' registry
      (Function.update ladders side
        ((ladders side).setLevel (indexOf (ladders side) order.price) level'))
      addr free (spec.reduce order.id amount) := by
  have distinct := linked.distinct
  refine linked.replaceLevel (linked.inRange member) rfl rfl
    (fun other different => distinct.orders_reduce_of_ne member different amount)
    (reduced.price.trans levelPrice) ?_ ?_ ?_
    (fun price different => queueAt_reduce_of_ne distinct member different amount)
    (fun other found inOther outside => ⟨rfl, reduced.frame _ fun equal => ?_⟩) ?_
    (fun id => ?_)
  · rw [queueAt_reduce distinct split]
    exact reduced.links
  · rw [Reference.Book.orders_reduce]
    refine List.pairwise_map.mpr ((linked.links side).sorted.imp fun earlier => ?_)
    split <;> split <;> exact earlier
  · intro found foundMember
    rw [Reference.Book.orders_reduce, List.mem_map] at foundMember
    obtain ⟨original, inSide, rfl⟩ := foundMember
    have range := (linked.links side).inRange original inSide
    split <;> exact range
  · obtain ⟨rfl, rfl⟩ := linked.eq_of_addr_eq inOther member equal
    rcases outside with different | different <;> exact different rfl
  · rw [liveBlocks_reduce]
    obtain ⟨block, stored, _⟩ := reduced.links.block_order
      (show order.reduce amount ∈ front ++ order.reduce amount :: rest by simp)
    refine linked.pool_congr [order] (fun address isOrder => ?_)
      (fun address isOrder => ?_) (fun address outside => reduced.frame address ?_)
    · obtain rfl : address = addr order.id := by simpa [blocks] using isOrder
      exact ⟨block, stored⟩
    · obtain rfl : address = addr order.id := by simpa [blocks] using isOrder
      exact mem_liveBlocks.mpr ⟨side, order, member, rfl⟩
    · rintro rfl
      exact outside (by simp [blocks])
  · rw [linked.idMap]
    simp only [Reference.Book.contains_reduce]

/-! ## Resting an order -/

section New

variable {order : Order} (address : BlockAddress)

/-- The addresses of the resting orders after a new one has got its own. -/
theorem addr_of_mem
    (fresh : ¬ spec.Contains order.id)
    {other : Side} {found : Order}
    (member : found ∈ spec.orders other) :
    Function.update addr order.id address found.id = addr found.id :=
  Function.update_of_ne
    (fun equal : found.id = order.id => fresh (equal ▸ Reference.Book.contains_of_mem member))
    _ _

theorem blocks_of_fresh
    (addr : OrderID → BlockAddress)
    (fresh : ¬ spec.Contains order.id)
    (side : Side) (price : Price) :
    blocks (Function.update addr order.id address) (queueAt side price (spec.orders side)) =
      blocks addr (queueAt side price (spec.orders side)) :=
  List.map_congr_left fun _ member => addr_of_mem address fresh (mem_queueAt.mp member).1

theorem liveBlocks_rest
    (fresh : ¬ spec.Contains order.id)
    (side : Side) :
    (liveBlocks (Function.update addr order.id address) (spec.rest side order)).Perm
      (address :: liveBlocks addr spec) := by
  have mapped := (Reference.Book.perm_rest spec side order).map fun found =>
    Function.update addr order.id address found.id
  rw [List.map_cons, Function.update_self] at mapped
  refine mapped.trans (List.Perm.cons _ (List.Perm.of_eq ?_))
  refine List.map_congr_left fun found member => ?_
  obtain ⟨other, inOther⟩ := Reference.Book.mem_sides.mp member
  exact addr_of_mem address fresh inOther

/-- The id map after a new order has been registered. -/
theorem lookup_emplace
    (linked : Linked heap registry ladders addr free spec)
    (fresh : ¬ spec.Contains order.id)
    (side : Side) (id : OrderID) :
    (registry.idToOrderMap.emplace order.id address).lookup id =
      if (spec.rest side order).Contains id then
        some (Function.update addr order.id address id)
      else none := by
  have absent : order.id ∉ registry.idToOrderMap := fun present =>
    fresh (linked.mem_idMap.mp present)
  simp only [IdMap.emplace, if_neg absent, Reference.Book.contains_rest]
  by_cases same : id = order.id
  · subst same
    rw [Finmap.lookup_insert, if_pos (Or.inr rfl), Function.update_self]
  · rw [Finmap.lookup_insert_of_ne _ same, linked.idMap, Function.update_of_ne same]
    simp only [Ne.symm same, or_false]

end New

/-- When a block has been allocated for a new order and appended to its level, the
members of the book hold the reference book with the order at the end of its
queue. -/
theorem attach
    (linked : Linked heap registry ladders addr free spec)
    (fresh : ¬ spec.Contains order.id)
    (inRange : InRange (ladders side) order.price)
    {level : PriceLevel} {pool' : MemoryPool} {heap₁ : Heap} {free' : List BlockAddress}
    {address : BlockAddress}
    (access : (ladders side).level (indexOf (ladders side) order.price) = .ok level)
    (allocated : PoolHolds pool' heap₁ free' (address :: liveBlocks addr spec))
    (stored : heap₁ address =
      .order (detached ⟨side, indexOf (ladders side) order.price⟩ order))
    (kept : ∀ other ∈ liveBlocks addr spec, heap₁ other = heap other) :
    ∃ level' heap',
      level.pushBack ⟨side, indexOf (ladders side) order.price⟩ address heap₁ =
        .ok (level', heap') ∧
      Linked heap' ⟨registry.idToOrderMap.emplace order.id address, pool'⟩
        (Function.update ladders side
          ((ladders side).setLevel (indexOf (ladders side) order.price) level'))
        (Function.update addr order.id address) free' (spec.rest side order) ∧
      level'.wrapped = ((level.addVolume order.quantity).addCount 1).wrapped := by
  have newAddress : Function.update addr order.id address order.id = address :=
    Function.update_self ..
  have notLive : address ∉ liveBlocks addr spec :=
    (List.nodup_cons.mp (List.nodup_append.mp allocated.nodup).2.1).1
  have keptBlock : ∀ other, ∀ found ∈ spec.orders other,
      heap₁ (addr found.id) = heap (addr found.id) := fun other found member =>
    kept _ (mem_liveBlocks.mpr ⟨other, found, member, rfl⟩)
  obtain ⟨level₀, access₀, levelPrice, levelLinks₀⟩ := (linked.links side).level_of inRange
  obtain rfl : level = level₀ := Except.ok.inj (access.symm.trans access₀)
  have levelLinks := (levelLinks₀.congr fun found member =>
      keptBlock side found (mem_queueAt.mp member).1).congr_addr fun found member =>
    addr_of_mem address fresh (mem_queueAt.mp member).1
  have queueBlocks := blocks_of_fresh address addr fresh side order.price
  have queueAfter := queueAt_rest (linked.links side).sorted order
  obtain ⟨level', heap', pushed, levelAfter, samePrice, wrapped, frame⟩ := levelLinks.pushBack
    order
    (by
      rw [newAddress, queueBlocks]
      exact fun member => notLive (live_of_mem_queue member))
    (by rwa [newAddress])
  rw [newAddress] at pushed
  rw [blocks_append, queueBlocks, blocks_cons, newAddress] at frame
  have framed : ∀ other, ∀ found ∈ spec.orders other,
      (other ≠ side ∨ found.price ≠ order.price) →
      heap' (addr found.id) = heap (addr found.id) := by
    intro other found member outside
    rw [frame, keptBlock other found member]
    refine List.not_mem_append (linked.not_mem_queue member outside) ?_
    rw [blocks, List.map_nil, List.mem_singleton]
    exact fun equal => notLive (equal ▸ mem_liveBlocks.mpr ⟨other, found, member, rfl⟩)
  refine ⟨level', heap', pushed, ?_, wrapped⟩
  have poolAfter : PoolHolds pool' heap' free' (address :: liveBlocks addr spec) := by
    refine allocated.congr (fun other live => ?_) fun other notInPool => frame other fun touched =>
      notInPool ?_
    · by_cases touched : other ∈ blocks addr (queueAt side order.price (spec.orders side)) ++
          [address]
      · have inQueue : other ∈ blocks (Function.update addr order.id address)
            (queueAt side order.price (spec.orders side) ++ [order]) := by
          rwa [blocks_append, queueBlocks, blocks_cons, newAddress]
        obtain ⟨found, member, rfl⟩ := mem_blocks.mp inQueue
        obtain ⟨block, stored, _⟩ := levelAfter.block_order member
        exact ⟨block, stored⟩
      · rw [frame other touched]
        exact (allocated.live_iff other).mp live
    · rcases List.mem_append.mp touched with inQueueBlocks | isNew
      · exact List.mem_cons_of_mem _ (live_of_mem_queue inQueueBlocks)
      · exact List.mem_singleton.mp isNew ▸ List.mem_cons_self
  refine linked.replaceLevel inRange
    (Reference.Book.setOrders_minPrice ..) (Reference.Book.setOrders_maxPrice ..)
    (fun other different => (Reference.Book.orders_setOrders ..).trans (if_neg different))
    (samePrice.trans levelPrice) ?_ ?_ ?_
    (fun price different => queueAt_rest_of_ne different)
    (fun other found member outside =>
      ⟨addr_of_mem address fresh member, framed other found member outside⟩)
    (poolAfter.perm (liveBlocks_rest address fresh side)) (linked.lookup_emplace address fresh side)
  · rw [queueAfter]
    exact levelAfter
  · rw [Reference.Book.rest, Reference.Book.orders_setOrders_self]
    exact (linked.links side).sorted.enqueue order
  · intro found member
    rw [Reference.Book.rest, Reference.Book.orders_setOrders_self] at member
    rcases KeyedList.mem_enqueue.mp member with rfl | inSide
    · exact inRange
    · exact (linked.links side).inRange found inSide

end Linked

/-! ## Exact counters -/

namespace Core

variable {heap heap' : Heap} {registry registry' : Registry} {ladders : Side → PriceLadder}
variable {addr addr' : OrderID → BlockAddress} {free free' : List BlockAddress}
variable {spec spec' : Reference.Book}
variable {side : Side} {order : Order} {front rest : List Order} {level level' : PriceLevel}

/-- The level of an order holds its queue. -/
theorem levelHolds
    (core : Core heap registry ladders addr free spec)
    (access : (ladders side).level (indexOf (ladders side) order.price) = .ok level)
    (member : order ∈ spec.orders side) :
    LevelHolds heap addr ⟨side, indexOf (ladders side) order.price⟩ level
      (queueAt side order.price (spec.orders side)) := by
  obtain ⟨level₀, access₀, _, holds⟩ := (core.holds side).level_of (core.inRange member)
  obtain rfl : level = level₀ := Except.ok.inj (access.symm.trans access₀)
  exact holds

/-- One level has changed and has not wrapped. -/
theorem replaceLevel
    (core : Core heap registry ladders addr free spec)
    {price : Price}
    (linked : Linked heap' registry' (Function.update ladders side
      ((ladders side).setLevel (indexOf (ladders side) price) level')) addr' free' spec')
    (inRange : InRange (ladders side) price)
    (sound : Sound (spec'.orders side))
    (unwrapped : level'.wrapped = true →
      4294967296 ≤ (queueAt side price (spec'.orders side)).length)
    (otherSide : ∀ other, other ≠ side → spec'.orders other = spec.orders other)
    (otherPrices : ∀ other, other ≠ price →
      queueAt side other (spec'.orders side) = queueAt side other (spec.orders side)) :
    Core heap' registry' (Function.update ladders side
      ((ladders side).setLevel (indexOf (ladders side) price) level')) addr' free' spec' where
  toLinked := linked
  sound other := by
    by_cases same : other = side
    · exact same ▸ sound
    · rw [otherSide other same]
      exact core.sound other
  unwrapped other := by
    by_cases same : other = side
    · subst same
      rw [Function.update_self]
      exact (core.unwrapped other).setLevel (core.links other).toShape inRange unwrapped
        otherPrices
    · rw [Function.update_of_ne same, otherSide other same]
      exact core.unwrapped other

/-- The queue of a level that is not too full loses an order. -/
theorem detach
    (core : Core heap registry ladders addr free spec)
    (roomy : Roomy side (spec.orders side))
    (member : order ∈ spec.orders side)
    (split : queueAt side order.price (spec.orders side) = front ++ order :: rest)
    (levelPrice : level.price = order.price)
    (levelHolds : LevelHolds heap addr ⟨side, indexOf (ladders side) order.price⟩ level
      (front ++ order :: rest))
    (removed : LevelLinks.Removed heap addr
      ⟨side, indexOf (ladders side) order.price⟩ level front order rest level' heap') :
    ∃ pool heap'',
      registry.memoryPool.deallocate (some (addr order.id)) heap' = .ok (pool, heap'') ∧
      Core heap'' ⟨registry.idToOrderMap.erase order.id, pool⟩
        (Function.update ladders side
          ((ladders side).setLevel (indexOf (ladders side) order.price) level'))
        addr (addr order.id :: free) (spec.remove order.id) := by
  obtain ⟨pool, heap'', deallocated, linked⟩ :=
    core.toLinked.detach member split levelPrice removed
  have sound := split ▸ (core.sound side).queueAt side order.price
  refine ⟨pool, heap'', deallocated, core.replaceLevel linked (core.inRange member) ?_
    (fun wrapped => ?_) (fun other different => core.distinct.orders_remove_of_ne member different)
    (fun price different => queueAt_remove_of_ne core.distinct member different)⟩
  · rw [Reference.Book.orders_remove]
    exact (core.sound side).sublist List.filter_sublist
  · rw [queueAt_remove core.distinct split]
    exact (levelHolds.of_removed sound (split ▸ roomy _) removed).unwrapped wrapped

/-- An order on a level that is not too full is reduced. -/
theorem shrink
    (core : Core heap registry ladders addr free spec)
    (roomy : Roomy side (spec.orders side))
    (member : order ∈ spec.orders side)
    (split : queueAt side order.price (spec.orders side) = front ++ order :: rest)
    {amount : Quantity}
    (positive : 0 < amount)
    (below : amount < order.quantity)
    (levelPrice : level.price = order.price)
    (levelHolds : LevelHolds heap addr ⟨side, indexOf (ladders side) order.price⟩ level
      (front ++ order :: rest))
    (reduced : LevelLinks.Reduced heap addr ⟨side, indexOf (ladders side) order.price⟩ level
      front order rest amount level' heap') :
    Core heap' registry
      (Function.update ladders side
        ((ladders side).setLevel (indexOf (ladders side) order.price) level'))
      addr free (spec.reduce order.id amount) := by
  have sound := split ▸ (core.sound side).queueAt side order.price
  refine core.replaceLevel (core.toLinked.shrink member split levelPrice reduced)
    (core.inRange member) ((core.sound side).reduce core.distinct member positive below)
    (fun wrapped => ?_)
    (fun other different => core.distinct.orders_reduce_of_ne member different amount)
    (fun price different => queueAt_reduce_of_ne core.distinct member different amount)
  rw [queueAt_reduce core.distinct split]
  exact (levelHolds.of_reduced sound (split ▸ roomy _) positive below reduced).unwrapped wrapped

/-- A level that is not too full receives an order of a sound quantity. -/
theorem attach
    (core : Core heap registry ladders addr free spec)
    (roomy : Roomy side (spec.orders side))
    (inRange : InRange (ladders side) order.price)
    (soundOrder : 1 ≤ order.quantity ∧ order.quantity ≤ 2147483647)
    (access : (ladders side).level (indexOf (ladders side) order.price) = .ok level)
    (linked : Linked heap' registry' (Function.update ladders side
      ((ladders side).setLevel (indexOf (ladders side) order.price) level')) addr' free'
      (spec.rest side order))
    (wrapped : level'.wrapped = ((level.addVolume order.quantity).addCount 1).wrapped) :
    Core heap' registry' (Function.update ladders side
      ((ladders side).setLevel (indexOf (ladders side) order.price) level')) addr' free'
      (spec.rest side order) := by
  obtain ⟨level₀, access₀, _, levelHolds⟩ := (core.holds side).level_of inRange
  obtain rfl : level = level₀ := Except.ok.inj (access.symm.trans access₀)
  have soundAfter : Sound ((spec.rest side order).orders side) := by
    intro found member
    rw [Reference.Book.rest, Reference.Book.orders_setOrders_self] at member
    rcases KeyedList.mem_enqueue.mp member with rfl | inSide
    · exact soundOrder
    · exact core.sound side found inSide
  have queueAfter := queueAt_rest (core.links side).sorted order
  refine core.replaceLevel linked inRange soundAfter (fun isWrapped => ?_)
    (fun other different => (Reference.Book.orders_setOrders ..).trans (if_neg different))
    (fun price different => queueAt_rest_of_ne different)
  rw [queueAfter]
  exact levelHolds.toTallies.unwrapped_append (queueAfter ▸ soundAfter.queueAt side order.price)
    (roomy _) (wrapped ▸ isWrapped)

end Core

end Refinement
end MatchingEngine
