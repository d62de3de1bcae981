import MatchingEngine.Refinement.Capacity
import MatchingEngine.Refinement.View

/-!
# Books with the same contents

A reference book and the blocks of its orders determine the levels of the book
that stands for it, with every pointer and every cached number.  Operations that
only take orders out leave the blocks of the others where they are, so two ways
to the same reference book lead to the same lists.
-/

namespace MatchingEngine
namespace Refinement

open Reference (Order)

/-! ## Levels -/

namespace LevelHolds

variable {heap heap' : Heap} {addr addr' : OrderID → BlockAddress} {place : LevelAddress}
variable {level level' : PriceLevel} {queue : List Order}

/-- A queue and its blocks determine a level. -/
theorem level_eq
    (left : LevelHolds heap addr place level queue)
    (right : LevelHolds heap' addr' place level' queue)
    (sameBlocks : blocks addr queue = blocks addr' queue)
    (samePrice : level.price = level'.price)
    (capacity : queue.length < 4294967296) :
    level = level' := by
  have head : level.head = level'.head := by
    rw [left.head_eq, right.head_eq, ← List.head?_map, ← List.head?_map]
    exact congrArg List.head? sameBlocks
  have tail : level.tail = level'.tail := by
    rw [left.tail_eq, right.tail_eq, sameBlocks]
  have volume : level.totalVolume = level'.totalVolume :=
    Int.ofNat.inj (left.total.trans right.total.symm)
  have count : level.orderCount = level'.orderCount :=
    Int.ofNat.inj (left.count.trans right.count.symm)
  have wrapped : level.wrapped = level'.wrapped := by
    rw [Bool.eq_false_iff.mpr fun wrapped => capacity.not_ge (left.unwrapped wrapped),
      Bool.eq_false_iff.mpr fun wrapped => capacity.not_ge (right.unwrapped wrapped)]
  obtain ⟨_, _, _, _, _, _⟩ := level
  obtain ⟨_, _, _, _, _, _⟩ := level'
  simp only [PriceLevel.mk.injEq]
  exact ⟨head, tail, samePrice, volume, count, wrapped⟩

/-- A queue and its blocks determine what the blocks store. -/
theorem block_eq
    (left : LevelHolds heap addr place level queue)
    (right : LevelHolds heap' addr' place level' queue)
    (sameBlocks : blocks addr queue = blocks addr' queue)
    {order : Order}
    (member : order ∈ queue) :
    heap (addr order.id) = heap' (addr order.id) := by
  have sameAddress : ∀ other ∈ queue, addr other.id = addr' other.id :=
    List.map_inj_left.mp sameBlocks
  obtain ⟨front, rest, rfl⟩ := List.append_of_mem member
  obtain ⟨leftBlock, leftStored, leftContents⟩ := left.block_order member
  obtain ⟨rightBlock, rightStored, rightContents⟩ := right.block_order member
  have leftLinks := left.links_of_stored leftStored
  have rightLinks := right.links_of_stored rightStored
  have sameRest : blocks addr rest = blocks addr' rest :=
    List.map_congr_left fun other inRest => sameAddress other
      (List.mem_append_right _ (List.mem_cons_of_mem _ inRest))
  have sameFront : blocks addr front = blocks addr' front :=
    List.map_congr_left fun other inFront => sameAddress other
      (List.mem_append_left _ inFront)
  have next : leftBlock.next = rightBlock.next := by
    rw [leftLinks.1, rightLinks.1, sameRest]
  have prev : leftBlock.prev = rightBlock.prev := by
    rw [leftLinks.2, rightLinks.2, sameFront]
  have contents := leftContents.trans rightContents.symm
  rw [leftStored, sameAddress order member, rightStored]
  obtain ⟨_, _, _, _, _, _, _⟩ := leftBlock
  obtain ⟨_, _, _, _, _, _, _⟩ := rightBlock
  simp only [unlinked, RestingOrder.mk.injEq] at contents
  simp only [MemoryBlock.order.injEq, RestingOrder.mk.injEq]
  exact ⟨next, prev, contents.2.2⟩

end LevelHolds

/-! ## Books -/

/-- The same id map, the same ladders with all their caches, and the same order in
every block that the id map leads to.  The pools have the same number of live
blocks; their free lists may be in another order. -/
structure SameContents (left right : OrderBook) : Prop where
  minPrice : left.minPrice = right.minPrice
  maxPrice : left.maxPrice = right.maxPrice
  idToOrderMap : left.idToOrderMap = right.idToOrderMap
  ladder : ∀ side, left.ladder side = right.ladder side
  stored : ∀ id address, left.idToOrderMap.lookup id = some address →
    left.heap address = right.heap address
  levelBlocks : ∀ side index, left.levelBlocks side index = right.levelBlocks side index
  currentlyAllocated :
    left.memoryPool.currentlyAllocated = right.memoryPool.currentlyAllocated

variable {book left right : OrderBook} {spec : Reference.Book}

theorem Refines.length_levels_eq
    (leftRefines : Refines left spec)
    (rightRefines : Refines right spec)
    (side : Side) :
    (left.ladder side).levels.length = (right.ladder side).levels.length := by
  obtain ⟨_, _, leftCore⟩ := leftRefines.core
  obtain ⟨_, _, rightCore⟩ := rightRefines.core
  have leftLength := (leftCore.holds side).length
  have rightLength := (rightCore.holds side).length
  rw [leftCore.minPrice, leftCore.maxPrice] at leftLength
  rw [rightCore.minPrice, rightCore.maxPrice] at rightLength
  omega

/-- Two books for one reference book that agree on where its orders are. -/
theorem sameContents_of_refines
    (leftRefines : Refines left spec)
    (rightRefines : Refines right spec)
    (roomy : RoomyBook spec)
    (sameMap : left.idToOrderMap = right.idToOrderMap) :
    SameContents left right := by
  obtain ⟨addr, free, leftCore⟩ := leftRefines.core
  obtain ⟨addr', free', rightCore⟩ := rightRefines.core
  have sameAddress : ∀ side, ∀ order ∈ spec.orders side, addr order.id = addr' order.id := by
    intro side order member
    have leftFound : left.idToOrderMap.lookup order.id = some (addr order.id) :=
      leftCore.lookup_of_mem member
    have rightFound : right.idToOrderMap.lookup order.id = some (addr' order.id) :=
      rightCore.lookup_of_mem member
    rw [sameMap, rightFound] at leftFound
    exact (Option.some.inj leftFound).symm
  have sameBlocks : ∀ side price, blocks addr (queueAt side price (spec.orders side)) =
      blocks addr' (queueAt side price (spec.orders side)) := fun side price =>
    List.map_congr_left fun order member => sameAddress side order (mem_queueAt.mp member).1
  have sameLength := leftRefines.length_levels_eq rightRefines
  have sameLadder : ∀ side, left.ladder side = right.ladder side := by
    intro side
    have levels : (left.ladder side).levels = (right.ladder side).levels := by
      refine List.ext_getElem (sameLength side) fun index leftInside rightInside => ?_
      obtain ⟨leftPrice, leftHolds⟩ := (leftCore.holds side).levels index _
        (List.getElem?_eq_getElem leftInside)
      obtain ⟨rightPrice, rightHolds⟩ := (rightCore.holds side).levels index _
        (List.getElem?_eq_getElem rightInside)
      rw [leftCore.minPrice side] at leftPrice leftHolds
      rw [rightCore.minPrice side] at rightPrice rightHolds
      exact leftHolds.level_eq rightHolds (sameBlocks side _) (leftPrice.trans rightPrice.symm)
        (roomy side _)
    have minPrice := (leftCore.minPrice side).trans (rightCore.minPrice side).symm
    have maxPrice := (leftCore.maxPrice side).trans (rightCore.maxPrice side).symm
    have sameSide := (leftCore.holds side).side_eq.trans (rightCore.holds side).side_eq.symm
    have best := (leftRefines.best side).trans (rightRefines.best side).symm
    generalize left.ladder side = leftLadder at *
    generalize right.ladder side = rightLadder at *
    obtain ⟨_, _, _, _, _⟩ := leftLadder
    simp only at minPrice maxPrice sameSide levels best
    simp only [minPrice, maxPrice, sameSide, levels, best]
  refine ⟨leftRefines.minPrice.trans rightRefines.minPrice.symm,
    leftRefines.maxPrice.trans rightRefines.maxPrice.symm, sameMap, sameLadder, ?_, ?_, ?_⟩
  · intro id address found
    have found : (registryOf left).idToOrderMap.lookup id = some address := found
    rw [leftCore.idMap] at found
    split at found
    next present =>
      obtain rfl := Option.some.inj found
      obtain ⟨side, order, member, rfl⟩ := Reference.Book.contains_iff.mp present
      obtain ⟨_, _, _, leftHolds⟩ := (leftCore.holds side).level_of (leftCore.inRange member)
      obtain ⟨_, _, _, rightHolds⟩ := (rightCore.holds side).level_of (rightCore.inRange member)
      rw [← sameLadder side] at rightHolds
      exact leftHolds.block_eq rightHolds (sameBlocks side _) (mem_queueAt.mpr ⟨member, rfl⟩)
    next => simp at found
  · intro side index
    cases found : (left.ladder side).levels[index]? with
    | none =>
        have absent : (right.ladder side).levels[index]? = none := by
          rw [← sameLadder side, found]
        rw [OrderBook.levelBlocks, found, OrderBook.levelBlocks, absent]
    | some level =>
        have present : (right.ladder side).levels[index]? = some level := by
          rw [← sameLadder side, found]
        rw [(list_of_level leftCore.toLinked found).levelBlocks,
          (list_of_level rightCore.toLinked present).levelBlocks, sameBlocks]
  · exact leftRefines.carries.currentlyAllocated_eq.trans
      rightRefines.carries.currentlyAllocated_eq.symm

/-! ## Books that differ in the blocks of their orders -/

/-- A level without its pointers. -/
def withoutPointers (level : PriceLevel) : PriceLevel :=
  { level with head := none, tail := none }

/-- The order that the id map leads to, without its links. -/
def registeredOrder (book : OrderBook) (id : OrderID) : Option RestingOrder :=
  (book.idToOrderMap.lookup id).bind fun address => (book.orderAt address).map unlinked

/-- The same ids lead to the same orders, the lists have the same orders in the same
order, and the caches and the number of live blocks are equal.  The orders may be in
other blocks, and the pools may have other slabs. -/
structure SameUpToBlocks (left right : OrderBook) : Prop where
  minPrice : left.minPrice = right.minPrice
  maxPrice : left.maxPrice = right.maxPrice
  ids : ∀ id, id ∈ left.idToOrderMap ↔ id ∈ right.idToOrderMap
  registered : ∀ id, registeredOrder left id = registeredOrder right id
  levelOrders : ∀ side index,
    (left.levelOrders side index).map unlinked = (right.levelOrders side index).map unlinked
  levels : ∀ side,
    (left.ladder side).levels.map withoutPointers =
      (right.ladder side).levels.map withoutPointers
  bestPrice : ∀ side, (left.ladder side).bestPrice = (right.ladder side).bestPrice
  currentlyAllocated :
    left.memoryPool.currentlyAllocated = right.memoryPool.currentlyAllocated

/-- A queue determines a level but for its pointers. -/
theorem LevelHolds.withoutPointers_eq
    {heap : Heap} {addr : OrderID → BlockAddress} {place : LevelAddress}
    {level : PriceLevel} {queue : List Order}
    (holds : LevelHolds heap addr place level queue)
    (capacity : queue.length < 4294967296) :
    withoutPointers level =
      { price := level.price
        totalVolume := (volume queue % 18446744073709551616).toNat
        orderCount := queue.length } := by
  have total := holds.total
  have count := holds.count
  have unwrapped : level.wrapped = false :=
    Bool.eq_false_iff.mpr fun wrapped => capacity.not_ge (holds.unwrapped wrapped)
  have exactCount : level.orderCount = queue.length := by omega
  have exactVolume : level.totalVolume = (volume queue % 18446744073709551616).toNat := by
    rw [← total, Int.toNat_natCast]
  rw [← exactCount, ← exactVolume, ← unwrapped]
  rfl

/-- The orders on a list, without their links. -/
theorem levelOrders_of_linked
    {addr : OrderID → BlockAddress} {free : List BlockAddress}
    (linked : Linked book.heap (registryOf book) book.ladder addr free spec)
    {side : Side} {index : Nat} {level : PriceLevel}
    (found : (book.ladder side).levels[index]? = some level) :
    (book.levelOrders side index).map unlinked =
      (queueAt side (spec.minPrice + index) (spec.orders side)).map (resting ⟨side, index⟩) := by
  obtain ⟨_, levelLinks⟩ := (linked.links side).lists index level found
  rw [linked.minPrice side] at levelLinks
  rw [OrderBook.levelOrders, (list_of_level linked found).levelBlocks, blocks]
  have contents := fun order => @LevelLinks.block_order _ _ _ _ _ levelLinks order
  generalize queueAt side (spec.minPrice + index) (spec.orders side) = queue at contents
  induction queue with
  | nil => rfl
  | cons order rest inductionHypothesis =>
      obtain ⟨block, stored, equal⟩ := contents order List.mem_cons_self
      have tail := inductionHypothesis fun other member =>
        contents other (List.mem_cons_of_mem _ member)
      simp only [List.map_cons, List.filterMap_cons, OrderBook.orderAt, stored, equal] at tail ⊢
      rw [tail]

/-- The order registered under an id. -/
theorem registeredOrder_of_mem
    {addr : OrderID → BlockAddress} {free : List BlockAddress}
    (linked : Linked book.heap (registryOf book) book.ladder addr free spec)
    {side : Side} {order : Order}
    (member : order ∈ spec.orders side) :
    registeredOrder book order.id =
      some (resting ⟨side, (order.price - spec.minPrice).toNat⟩ order) := by
  obtain ⟨_, _, _, levelLinks⟩ := (linked.links side).level_of (linked.inRange member)
  obtain ⟨block, stored, contents⟩ := levelLinks.block_order (mem_queueAt.mpr ⟨member, rfl⟩)
  have found : book.idToOrderMap.lookup order.id = some (addr order.id) :=
    linked.lookup_of_mem member
  rw [indexOf, linked.minPrice side] at contents
  simp only [registeredOrder, found, Option.bind_some, OrderBook.orderAt, stored,
    Option.map_some, contents]

/-- Two books for one reference book are the same, wherever its orders are. -/
theorem sameUpToBlocks_of_refines
    (leftRefines : Refines left spec)
    (rightRefines : Refines right spec)
    (roomy : RoomyBook spec) :
    SameUpToBlocks left right := by
  obtain ⟨addr, free, leftCore⟩ := leftRefines.core
  obtain ⟨addr', free', rightCore⟩ := rightRefines.core
  have sameLength := leftRefines.length_levels_eq rightRefines
  refine ⟨leftRefines.minPrice.trans rightRefines.minPrice.symm,
    leftRefines.maxPrice.trans rightRefines.maxPrice.symm,
    fun id => leftRefines.carries.mem_idMap.trans rightRefines.carries.mem_idMap.symm,
    fun id => ?_, fun side index => ?_, fun side => ?_,
    fun side => (leftRefines.best side).trans (rightRefines.best side).symm,
    leftRefines.carries.currentlyAllocated_eq.trans
      rightRefines.carries.currentlyAllocated_eq.symm⟩
  · by_cases present : spec.Contains id
    · obtain ⟨side, order, member, rfl⟩ := Reference.Book.contains_iff.mp present
      rw [registeredOrder_of_mem leftCore.toLinked member,
        registeredOrder_of_mem rightCore.toLinked member]
    · have leftAbsent := Finmap.lookup_eq_none.mpr fun found =>
        present (leftRefines.carries.mem_idMap.mp found)
      have rightAbsent := Finmap.lookup_eq_none.mpr fun found =>
        present (rightRefines.carries.mem_idMap.mp found)
      rw [registeredOrder, leftAbsent, registeredOrder, rightAbsent]
      rfl
  · cases leftFound : (left.ladder side).levels[index]? with
    | some level =>
        obtain ⟨inside, _⟩ := List.getElem?_eq_some_iff.mp leftFound
        rw [levelOrders_of_linked leftCore.toLinked leftFound,
          levelOrders_of_linked rightCore.toLinked
            (List.getElem?_eq_getElem (sameLength side ▸ inside))]
    | none =>
        have rightFound : (right.ladder side).levels[index]? = none := by
          rw [List.getElem?_eq_none_iff] at leftFound ⊢
          rwa [← sameLength side]
        simp [OrderBook.levelOrders, OrderBook.levelBlocks, leftFound, rightFound]
  · refine List.ext_getElem (by simpa using sameLength side) fun index leftInside rightInside => ?_
    rw [List.length_map] at leftInside rightInside
    obtain ⟨leftPrice, leftHolds⟩ := (leftCore.holds side).levels index _
      (List.getElem?_eq_getElem leftInside)
    obtain ⟨rightPrice, rightHolds⟩ := (rightCore.holds side).levels index _
      (List.getElem?_eq_getElem rightInside)
    rw [leftCore.minPrice side] at leftPrice leftHolds
    rw [rightCore.minPrice side] at rightPrice rightHolds
    rw [List.getElem_map, List.getElem_map, leftHolds.withoutPointers_eq (roomy side _),
      rightHolds.withoutPointers_eq (roomy side _), leftPrice, rightPrice]

/-! ## Taking orders out -/

/-- The second book has come from the first by taking orders out: its id map has lost
entries and changed none, and its pool has the slabs it had. -/
structure Frees (before after : OrderBook) : Prop where
  lookup : ∀ id address, after.idToOrderMap.lookup id = some address →
    before.idToOrderMap.lookup id = some address
  capacity : capacityOf after.memoryPool = capacityOf before.memoryPool

variable {before middle after : OrderBook}

theorem Frees.refl (book : OrderBook) : Frees book book := ⟨fun _ _ => id, rfl⟩

theorem Frees.trans (first : Frees before middle) (second : Frees middle after) :
    Frees before after :=
  ⟨fun id address found => first.lookup id address (second.lookup id address found),
    second.capacity.trans first.capacity⟩

theorem lookup_of_erase
    {map : IdMap} {erased id : OrderID} {address : BlockAddress}
    (found : (map.erase erased).lookup id = some address) :
    map.lookup id = some address := by
  by_cases same : id = erased
  · rw [same, Finmap.lookup_erase] at found
    cases found
  · rwa [Finmap.lookup_erase_ne same] at found

theorem lookup_of_retireOrder
    {retired : BlockAddress} {registry registry' : OrderBook.Registry} {heap heap' : Heap}
    (returned : OrderBook.retireOrder retired registry heap = .ok (registry', heap'))
    {id : OrderID} {address : BlockAddress}
    (found : registry'.idToOrderMap.lookup id = some address) :
    registry.idToOrderMap.lookup id = some address := by
  obtain ⟨order, _, returned⟩ := bind_eq_ok returned
  obtain ⟨⟨pool, heap''⟩, _, returned⟩ := bind_eq_ok returned
  obtain ⟨rfl, _⟩ := Prod.mk.inj (Except.ok.inj returned)
  exact lookup_of_erase found

theorem frees_cancelOrder
    {cancelRequest : CancelOrderRequest} {result : CancelResult}
    (returned : before.cancelOrder cancelRequest = .ok (result, after)) :
    Frees before after := by
  refine ⟨fun id address found => ?_, keepsCapacity_cancelOrder cancelRequest _ _ returned⟩
  rcases OrderBook.cancelOrder_ok returned with
    ⟨_, rfl⟩ | ⟨_, _, _, _, removed, _, _, _, _, _, rfl, _, retired, rfl⟩
  · exact found
  · rw [setLadder_idToOrderMap] at found
    have kept := lookup_of_retireOrder retired found
    rwa [OrderBook.setLevel, setLadder_idToOrderMap] at kept

theorem frees_onSessionEnd
    {result : DayOrderPruneResult}
    (returned : before.onSessionEnd = .ok (result, after)) :
    Frees before after := by
  refine ⟨fun id address found => ?_, keepsCapacity_onSessionEnd _ _ returned⟩
  refine onSessionEnd_preserves (fun registry => registry.idToOrderMap.lookup id = some address →
    before.idToOrderMap.lookup id = some address) ?_ returned (fun kept => kept) found
  exact fun _ _ _ _ _ retired holds kept => holds (lookup_of_retireOrder retired kept)

theorem frees_runMatching
    {matchingSide : Side} {takes : Price → Bool} {quantity : Quantity}
    {exit : OrderBook.LoopExit}
    (returned : before.runMatching matchingSide takes quantity = .ok exit) :
    Frees before exit.book where
  lookup id address := matchingLoop_preserves
    (fun registry => registry.idToOrderMap.lookup id = some address →
      before.idToOrderMap.lookup id = some address)
    (fun _ _ _ _ _ kept found => kept (lookup_of_erase found)) returned fun found => found
  capacity := capacity_runMatching returned

theorem frees_submitMarketOrder
    {marketRequest : MarketOrderRequest} {result : SubmissionResult}
    (returned : before.submitMarketOrder marketRequest = .ok (result, after)) :
    Frees before after := by
  rcases OrderBook.submitMarketOrder_ok returned with ⟨_, rfl⟩ | ⟨exit, ran, _, rfl⟩
  · exact Frees.refl after
  · exact frees_runMatching ran

theorem frees_submitLimitOrderIoc
    {side : Side} {limitRequest : LimitOrderRequest} {result : SubmissionResult}
    (returned : OrderBook.submitLimitOrderIoc side before limitRequest = .ok (result, after)) :
    Frees before after := by
  obtain ⟨exit, ran, _, rfl⟩ := OrderBook.submitLimitOrderIoc_ok returned
  exact frees_runMatching ran

/-- Books that stand for one reference book after orders have been taken out of one
book have one id map. -/
theorem Frees.idToOrderMap_eq
    (leftFrees : Frees before left)
    (rightFrees : Frees before right)
    (leftRefines : Refines left spec)
    (rightRefines : Refines right spec) :
    left.idToOrderMap = right.idToOrderMap := by
  refine Finmap.ext_lookup fun id => ?_
  obtain ⟨addr, free, leftCore⟩ := leftRefines.core
  obtain ⟨addr', free', rightCore⟩ := rightRefines.core
  have leftFound : left.idToOrderMap.lookup id =
      if spec.Contains id then some (addr id) else none := leftCore.idMap id
  have rightFound : right.idToOrderMap.lookup id =
      if spec.Contains id then some (addr' id) else none := rightCore.idMap id
  by_cases present : spec.Contains id
  · rw [if_pos present] at leftFound rightFound
    have leftKept := leftFrees.lookup id _ leftFound
    have rightKept := rightFrees.lookup id _ rightFound
    rw [leftFound, rightFound, ← leftKept, ← rightKept]
  · rw [leftFound, rightFound, if_neg present, if_neg present]

end Refinement
end MatchingEngine
