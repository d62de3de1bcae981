import MatchingEngine.Model.Observation
import MatchingEngine.Refinement.Carries

/-!
# Books that differ in the addresses of their blocks

Two books are the same up to the addresses of their blocks when a renaming of the live
blocks of the one is the other: every order, every link between two orders, the end
pointers of every level and the id map.  Which blocks are free, and in which order, may
differ, but not how many.

Two books that carry one reference book are so related when their best prices and the
capacities of their pools agree.
-/

namespace MatchingEngine
namespace Refinement

open Reference (Order)

/-! ## Renaming -/

section Rename

variable (rename : BlockAddress → BlockAddress)

/-- An order whose links are renamed. -/
def renameOrder (order : RestingOrder) : RestingOrder :=
  { order with next := order.next.map rename, prev := order.prev.map rename }

/-- A renamed level, without its ghost. -/
def renameLevel (level : PriceLevel) : PriceLevel :=
  { level with
    head := level.head.map rename
    tail := level.tail.map rename
    wrapped := false }

/-- A ladder whose levels are renamed. -/
def renameLadder (ladder : PriceLadder) : PriceLadder :=
  { ladder with levels := ladder.levels.map (renameLevel rename) }

/-- The renaming maps the live blocks of a heap one to one onto those of another, with
their orders. -/
structure RenamesHeap (left right : Heap) : Prop where
  stored : ∀ address order, left address = .order order →
    right (rename address) = .order (renameOrder rename order)
  injective : ∀ address other order otherOrder, left address = .order order →
    left other = .order otherOrder → rename address = rename other → address = other
  onto : ∀ address order, right address = .order order →
    ∃ source sourceOrder, left source = .order sourceOrder ∧ rename source = address

/-- The renaming maps a book to another. -/
structure RenamesBook (left right : OrderBook) : Prop where
  minPrice : right.minPrice = left.minPrice
  maxPrice : right.maxPrice = left.maxPrice
  heap : RenamesHeap rename left.heap right.heap
  idToOrderMap : ∀ id,
    right.idToOrderMap.lookup id = (left.idToOrderMap.lookup id).map rename
  ladder : ∀ side, renameLadder id (right.ladder side) = renameLadder rename (left.ladder side)
  currentlyAllocated :
    right.memoryPool.currentlyAllocated = left.memoryPool.currentlyAllocated
  capacity : capacityOf right.memoryPool = capacityOf left.memoryPool

end Rename

theorem renameOrder_id (order : RestingOrder) : renameOrder id order = order := by
  simp [renameOrder]

/-- Renaming nothing. -/
theorem RenamesBook.refl (book : OrderBook) : RenamesBook id book book where
  minPrice := rfl
  maxPrice := rfl
  heap :=
    { stored := fun address order stored => by rwa [renameOrder_id]
      injective := fun _ _ _ _ _ _ same => same
      onto := fun address order stored => ⟨address, order, stored, rfl⟩ }
  idToOrderMap id := by rw [Option.map_id, id_eq]
  ladder side := rfl
  currentlyAllocated := rfl
  capacity := rfl

/-! ## Books that carry one reference book -/

/-- The block in which the second book has the order of a block of the first. -/
def counterpart (left right : OrderBook) (address : BlockAddress) : BlockAddress :=
  match left.orderAt address with
  | some order => (right.idToOrderMap.lookup order.id).getD address
  | none => address

section Counterpart

variable {left right : OrderBook} {addr addr' : OrderID → BlockAddress}
variable {free free' : List BlockAddress} {spec : Reference.Book} {side : Side}

/-- Every live block is the block of an order, and stores it. -/
theorem Linked.order_of_stored
    (linked : Linked left.heap (registryOf left) left.ladder addr free spec)
    {address : BlockAddress} {block : RestingOrder}
    (stored : left.heap address = .order block) :
    ∃ side, ∃ order ∈ spec.orders side, addr order.id = address :=
  mem_liveBlocks.mp ((linked.pool.live_iff address).mpr ⟨block, stored⟩)

/-- What the block of an order stores. -/
theorem Linked.stored_of_mem
    (linked : Linked left.heap (registryOf left) left.ladder addr free spec)
    {order : Order} {front rest : List Order}
    (member : order ∈ spec.orders side)
    (split : queueAt side order.price (spec.orders side) = front ++ order :: rest) :
    left.heap (addr order.id) = .order
      { resting ⟨side, (order.price - spec.minPrice).toNat⟩ order with
        next := (blocks addr rest).head?
        prev := (blocks addr front).getLast? } := by
  obtain ⟨_, _, _, levelLinks⟩ := (linked.links side).level_of (linked.inRange member)
  rw [split] at levelLinks
  obtain ⟨block, stored, contents⟩ := levelLinks.block_order
    (show order ∈ front ++ order :: rest by simp)
  obtain ⟨next, prev⟩ := levelLinks.links_of_stored stored
  rw [indexOf, linked.minPrice side] at contents
  rw [stored, ← next, ← prev, ← contents]
  rfl

theorem counterpart_addr
    (leftLinked : Linked left.heap (registryOf left) left.ladder addr free spec)
    (rightLinked : Linked right.heap (registryOf right) right.ladder addr' free' spec)
    {order : Order}
    (member : order ∈ spec.orders side) :
    counterpart left right (addr order.id) = addr' order.id := by
  have inQueue : order ∈ queueAt side order.price (spec.orders side) :=
    mem_queueAt.mpr ⟨member, rfl⟩
  obtain ⟨front, rest, split⟩ := List.append_of_mem inQueue
  have stored := leftLinked.stored_of_mem member split
  have found : right.idToOrderMap.lookup order.id = some (addr' order.id) :=
    rightLinked.lookup_of_mem member
  simp only [counterpart, OrderBook.orderAt, stored, resting, found, Option.getD_some]

theorem map_counterpart_blocks
    (leftLinked : Linked left.heap (registryOf left) left.ladder addr free spec)
    (rightLinked : Linked right.heap (registryOf right) right.ladder addr' free' spec)
    {queue : List Order}
    (inSide : ∀ order ∈ queue, order ∈ spec.orders side) :
    (blocks addr queue).map (counterpart left right) = blocks addr' queue := by
  rw [blocks, List.map_map]
  exact List.map_congr_left fun order member =>
    counterpart_addr leftLinked rightLinked (inSide order member)

/-- The links between orders follow the renaming. -/
theorem renamesHeap_of_linked
    (leftLinked : Linked left.heap (registryOf left) left.ladder addr free spec)
    (rightLinked : Linked right.heap (registryOf right) right.ladder addr' free' spec) :
    RenamesHeap (counterpart left right) left.heap right.heap where
  stored address block stored := by
    obtain ⟨side, order, member, rfl⟩ := leftLinked.order_of_stored stored
    have inQueue : order ∈ queueAt side order.price (spec.orders side) :=
      mem_queueAt.mpr ⟨member, rfl⟩
    obtain ⟨front, rest, split⟩ := List.append_of_mem inQueue
    have inSide : ∀ other ∈ front ++ order :: rest, other ∈ spec.orders side :=
      fun other inSplit => (mem_queueAt.mp (split ▸ inSplit)).1
    have next := map_counterpart_blocks leftLinked rightLinked fun other inRest =>
      inSide other (List.mem_append_right front (List.mem_cons_of_mem order inRest))
    have prev := map_counterpart_blocks leftLinked rightLinked fun other inFront =>
      inSide other (List.mem_append_left (order :: rest) inFront)
    rw [leftLinked.stored_of_mem member split] at stored
    obtain rfl := MemoryBlock.order.inj stored
    rw [counterpart_addr leftLinked rightLinked member,
      rightLinked.stored_of_mem member split, renameOrder, ← next, ← prev]
    simp only [List.head?_map, List.getLast?_map, resting]
  injective address other block otherBlock stored otherStored same := by
    obtain ⟨side, order, member, rfl⟩ := leftLinked.order_of_stored stored
    obtain ⟨otherSide, otherOrder, otherMember, rfl⟩ := leftLinked.order_of_stored otherStored
    rw [counterpart_addr leftLinked rightLinked member,
      counterpart_addr leftLinked rightLinked otherMember] at same
    obtain ⟨_, rfl⟩ := rightLinked.eq_of_addr_eq member otherMember same
    rfl
  onto address block stored := by
    obtain ⟨side, order, member, rfl⟩ := rightLinked.order_of_stored stored
    have inQueue : order ∈ queueAt side order.price (spec.orders side) :=
      mem_queueAt.mpr ⟨member, rfl⟩
    obtain ⟨front, rest, split⟩ := List.append_of_mem inQueue
    exact ⟨addr order.id, _, leftLinked.stored_of_mem member split,
      counterpart_addr leftLinked rightLinked member⟩

/-- A level follows the renaming of the blocks of its queue. -/
theorem renameLevel_of_links
    {heap heap' : Heap} {place place' : LevelAddress} {level level' : PriceLevel}
    {queue : List Order} {rename : BlockAddress → BlockAddress}
    (links : LevelLinks heap addr place level queue)
    (links' : LevelLinks heap' addr' place' level' queue)
    (renamed : (blocks addr queue).map rename = blocks addr' queue)
    (samePrice : level'.price = level.price) :
    renameLevel id level' = renameLevel rename level := by
  have head : level'.head = level.head.map rename := by
    rw [links'.head_eq, links.head_eq, ← List.head?_map, ← List.head?_map, ← List.head?_map]
    exact congrArg List.head? renamed.symm
  have tail : level'.tail = level.tail.map rename := by
    rw [links'.tail_eq, links.tail_eq, ← List.getLast?_map, renamed]
  have volume : level'.totalVolume = level.totalVolume :=
    Int.ofNat.inj (links'.total.trans links.total.symm)
  have count : level'.orderCount = level.orderCount :=
    Int.ofNat.inj (links'.count.trans links.count.symm)
  simp only [renameLevel, Option.map_id, id_eq, head, tail, volume, count, samePrice]

/-- The levels of a ladder follow the renaming. -/
theorem renameLadder_counterpart
    (leftLinked : Linked left.heap (registryOf left) left.ladder addr free spec)
    (rightLinked : Linked right.heap (registryOf right) right.ladder addr' free' spec)
    (best : (right.ladder side).bestPrice = (left.ladder side).bestPrice) :
    renameLadder id (right.ladder side) =
      renameLadder (counterpart left right) (left.ladder side) := by
  have leftLinks := leftLinked.links side
  have rightLinks := rightLinked.links side
  have minPrice := (rightLinked.minPrice side).trans (leftLinked.minPrice side).symm
  have maxPrice := (rightLinked.maxPrice side).trans (leftLinked.maxPrice side).symm
  have sameSide := rightLinks.side_eq.trans leftLinks.side_eq.symm
  have sameLength : (right.ladder side).levels.length = (left.ladder side).levels.length := by
    have leftLength := leftLinks.length
    have rightLength := rightLinks.length
    rw [minPrice, maxPrice] at rightLength
    omega
  have levels : (right.ladder side).levels.map (renameLevel id) =
      (left.ladder side).levels.map (renameLevel (counterpart left right)) := by
    refine List.ext_getElem (by simpa using sameLength) fun index rightInside leftInside => ?_
    rw [List.length_map] at rightInside leftInside
    obtain ⟨leftPrice, leftLevel⟩ := leftLinks.lists index _
      (List.getElem?_eq_getElem leftInside)
    obtain ⟨rightPrice, rightLevel⟩ := rightLinks.lists index _
      (List.getElem?_eq_getElem rightInside)
    rw [minPrice] at rightPrice rightLevel
    rw [List.getElem_map, List.getElem_map]
    refine renameLevel_of_links leftLevel rightLevel ?_ (rightPrice.trans leftPrice.symm)
    exact map_counterpart_blocks leftLinked rightLinked fun order inQueue =>
      (mem_queueAt.mp inQueue).1
  unfold renameLadder
  rw [levels, minPrice, maxPrice, sameSide, best]

end Counterpart

variable {left right : OrderBook} {spec : Reference.Book}

/-- Two books that carry one reference book are the same up to the addresses of their
blocks, if their best prices and the capacities of their pools are the same. -/
theorem renamesBook_of_carries
    (leftCarries : Carries left spec)
    (rightCarries : Carries right spec)
    (best : ∀ side, (right.ladder side).bestPrice = (left.ladder side).bestPrice)
    (capacity : capacityOf right.memoryPool = capacityOf left.memoryPool) :
    RenamesBook (counterpart left right) left right := by
  obtain ⟨addr, free, leftLinked⟩ := leftCarries.linked
  obtain ⟨addr', free', rightLinked⟩ := rightCarries.linked
  refine ⟨rightCarries.minPrice.trans leftCarries.minPrice.symm,
    rightCarries.maxPrice.trans leftCarries.maxPrice.symm,
    renamesHeap_of_linked leftLinked rightLinked, fun id => ?_,
    fun side => renameLadder_counterpart leftLinked rightLinked (best side),
    rightCarries.currentlyAllocated_eq.trans leftCarries.currentlyAllocated_eq.symm, capacity⟩
  have leftFound : left.idToOrderMap.lookup id =
      if spec.Contains id then some (addr id) else none := leftLinked.idMap id
  have rightFound : right.idToOrderMap.lookup id =
      if spec.Contains id then some (addr' id) else none := rightLinked.idMap id
  rw [leftFound, rightFound]
  by_cases present : spec.Contains id
  · obtain ⟨side, order, member, rfl⟩ := Reference.Book.contains_iff.mp present
    rw [if_pos present, if_pos present, Option.map_some,
      counterpart_addr leftLinked rightLinked member]
  · rw [if_neg present, if_neg present, Option.map_none]

end Refinement
end MatchingEngine
