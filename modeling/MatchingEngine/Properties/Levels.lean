import MatchingEngine.Refinement.Run

/-!
# Id map, levels and pool in every reachable book

Every book that a run of the public operations reaches describes one set of
orders three times, in the id map, on the lists of the levels and by the live
blocks of the pool, and its caches are exact.
-/

namespace MatchingEngine
namespace Properties

open LinkedChain (Chain)
open OrderBook (BookRun PublicCalls sampleSession sampleRun_public)
open Reference (Order priority)
open Refinement

variable {events : List (Event OrderBook Operation Output)} {book : OrderBook}

/-! ## One set of orders -/

/-- The block of an order that rests at a place. -/
structure RestsAt
    (book : OrderBook) (address : BlockAddress) (order : RestingOrder)
    (place : LevelAddress) : Prop where
  once : (book.levelBlocks place.side place.index).count address = 1
  nowhereElse : ∀ side index, address ∈ book.levelBlocks side index →
    (⟨side, index⟩ : LevelAddress) = place
  side : order.side = (book.ladder place.side).side
  level : order.level = some place

/-- Id map, levels and pool describe the same orders. -/
structure Consistent (book : OrderBook) : Prop where
  mapped : ∀ id address, book.idToOrderMap.lookup id = some address →
    ∃ order place, book.heap address = .order order ∧ order.id = id ∧
      RestsAt book address order place
  listed : ∀ side index, ∀ address ∈ book.levelBlocks side index,
    ∃ order, book.heap address = .order order ∧
      book.idToOrderMap.lookup order.id = some address
  live : ∀ address, (∃ order, book.heap address = .order order) ↔
    ∃ side index, address ∈ book.levelBlocks side index
  free : ∃ blocks, Chain (freeLink book.heap) book.memoryPool.firstFree blocks ∧
    blocks.Nodup ∧ ∀ address, book.memoryPool.Owns address ↔
      (address ∈ blocks ∧ ∀ order, book.heap address ≠ .order order) ∨
      address ∉ blocks ∧ ∃ order, book.heap address = .order order
  chains : ∀ side (index : Nat) (level : PriceLevel),
    (book.ladder side).levels[index]? = some level →
      Chain (nextLink book.heap) level.head (book.levelBlocks side index) ∧
      Chain (prevLink book.heap) level.tail (book.levelBlocks side index).reverse ∧
      (level.head = none ↔ level.orderCount = 0) ∧
      (level.tail = none ↔ level.orderCount = 0)

theorem mem_levelBlocks
    {spec : Reference.Book} {addr : OrderID → BlockAddress} {free : List BlockAddress}
    (core : Core book.heap (registryOf book) book.ladder addr free spec)
    {side : Side} {index : Nat} {address : BlockAddress} :
    address ∈ book.levelBlocks side index ↔
      ∃ order ∈ spec.orders side, order.price = spec.minPrice + index ∧
        addr order.id = address := by
  cases found : (book.ladder side).levels[index]? with
  | some level =>
      rw [(list_of_level core.toLinked found).levelBlocks, mem_blocks]
      simp only [mem_queueAt, and_assoc]
  | none =>
      simp only [OrderBook.levelBlocks, found, List.not_mem_nil, false_iff, not_exists, not_and]
      intro order member orderPrice
      have shape := (core.holds side).toShape
      have inRange := core.inRange member
      have beyond := List.getElem?_eq_none_iff.mp found
      have inside := shape.indexOf_lt inRange
      rw [orderPrice, ← core.minPrice side, Shape.indexOf_add] at inside
      omega

theorem restsAt_of_mem
    {spec : Reference.Book} {addr : OrderID → BlockAddress} {free : List BlockAddress}
    (core : Core book.heap (registryOf book) book.ladder addr free spec)
    {side : Side} {order : Order}
    (member : order ∈ spec.orders side) :
    ∃ block, book.heap (addr order.id) = .order block ∧ block.id = order.id ∧
      RestsAt book (addr order.id) block ⟨side, indexOf (book.ladder side) order.price⟩ := by
  have holds := core.holds side
  have inside := holds.toShape.indexOf_lt (core.inRange member)
  have found := List.getElem?_eq_getElem inside
  have list := list_of_level core.toLinked found
  obtain ⟨_, levelHolds⟩ := holds.levels _ _ found
  rw [Shape.indexOf_price (core.inRange member)] at levelHolds
  rw [← core.minPrice side, Shape.indexOf_price (core.inRange member)] at list
  have inQueue : order ∈ queueAt side order.price (spec.orders side) :=
    mem_queueAt.mpr ⟨member, rfl⟩
  obtain ⟨block, stored, contents⟩ := levelHolds.block_order inQueue
  refine ⟨block, stored, congrArg RestingOrder.id contents, ?_, ?_, ?_,
    congrArg RestingOrder.level contents⟩
  · rw [list.levelBlocks]
    exact List.count_eq_one_of_mem levelHolds.nodup (mem_blocks.mpr ⟨order, inQueue, rfl⟩)
  · intro other index onList
    obtain ⟨listed, listedMember, listedPrice, sameAddress⟩ := (mem_levelBlocks core).mp onList
    obtain ⟨rfl, rfl⟩ := core.eq_of_addr_eq listedMember member sameAddress
    rw [listedPrice, ← core.minPrice other, Shape.indexOf_add]
  · exact (congrArg RestingOrder.side contents).trans holds.side_eq.symm

/-- In every reachable book, id map, levels and pool describe the same orders. -/
theorem book_consistent (run : BookRun PublicCalls events book) : Consistent book := by
  obtain ⟨refines, roomy⟩ := Sane.of_run safeCalls_publicCalls run
  obtain ⟨addr, free, core⟩ := refines.core
  have pool : PoolHolds book.memoryPool book.heap free (liveBlocks addr book.view) := core.pool
  have onList : ∀ address, address ∈ liveBlocks addr book.view ↔
      ∃ side index, address ∈ book.levelBlocks side index := by
    intro address
    rw [mem_liveBlocks]
    constructor
    · rintro ⟨side, order, member, rfl⟩
      refine ⟨side, indexOf (book.ladder side) order.price, (mem_levelBlocks core).mpr
        ⟨order, member, ?_, rfl⟩⟩
      rw [← core.minPrice side, Shape.indexOf_price (core.inRange member)]
    · rintro ⟨side, index, member⟩
      obtain ⟨order, inOrders, _, equal⟩ := (mem_levelBlocks core).mp member
      exact ⟨side, order, inOrders, equal⟩
  refine ⟨?_, ?_, ?_, ?_, ?_⟩
  · intro id address found
    have found : (registryOf book).idToOrderMap.lookup id = some address := found
    rw [core.idMap] at found
    split at found
    next present =>
      obtain rfl := Option.some.inj found
      obtain ⟨side, order, member, rfl⟩ := Reference.Book.contains_iff.mp present
      obtain ⟨block, stored, blockId, restsAt⟩ := restsAt_of_mem core member
      exact ⟨block, _, stored, blockId, restsAt⟩
    next => simp at found
  · intro side index address member
    obtain ⟨order, inOrders, _, rfl⟩ := (mem_levelBlocks core).mp member
    obtain ⟨block, stored, blockId, _⟩ := restsAt_of_mem core inOrders
    refine ⟨block, stored, ?_⟩
    rw [blockId]
    exact core.lookup_of_mem inOrders
  · intro address
    rw [← pool.live_iff, onList]
  · obtain ⟨freeNodup, _, disjoint⟩ := List.nodup_append.mp pool.nodup
    refine ⟨free, pool.chain, freeNodup, fun address => ?_⟩
    simp only [ne_eq, ← not_exists, ← pool.live_iff, ← pool.owned, List.mem_append]
    have apart : address ∈ free → address ∉ liveBlocks addr book.view :=
      fun inFree inLive => disjoint address inFree address inLive rfl
    tauto
  · intro side index level found
    obtain ⟨levelBlocks, _, forward, backward⟩ := list_of_level core.toLinked found
    obtain ⟨_, levelHolds⟩ := (core.holds side).levels index level found
    rw [core.minPrice side] at levelHolds
    have empty := levelHolds.toTallies.empty_iff (roomy side _)
    simp only [PriceLevel.empty, beq_iff_eq] at empty
    rw [levelBlocks, forward.start_eq, backward.start_eq, empty]
    refine ⟨?_, ?_, ?_, ?_⟩
    · exact forward.start_eq ▸ forward
    · exact backward.start_eq ▸ backward
    · rw [List.head?_eq_none_iff, blocks, List.map_eq_nil_iff]
    · rw [List.head?_eq_none_iff, List.reverse_eq_nil_iff, blocks, List.map_eq_nil_iff]

theorem book_consistent_sample : Consistent sampleSession.2 :=
  book_consistent sampleRun_public

/-! ## Best prices -/

/-- The prices whose level holds an order. -/
def occupiedPrices (book : OrderBook) (side : Side) : Set Price :=
  { price | ∃ (index : Nat) (level : PriceLevel),
    (book.ladder side).levels[index]? = some level ∧ level.price = price ∧
      book.levelBlocks side index ≠ [] }

theorem mem_occupiedPrices
    (refines : Refines book book.view) {side : Side} {price : Price} :
    price ∈ occupiedPrices book side ↔
      ∃ order ∈ book.view.orders side, order.price = price := by
  obtain ⟨addr, free, core⟩ := refines.core
  constructor
  · rintro ⟨index, level, found, rfl, nonempty⟩
    obtain ⟨levelPrice, _⟩ := (core.holds side).levels index level found
    obtain ⟨address, member⟩ := List.exists_mem_of_ne_nil _ nonempty
    obtain ⟨order, inOrders, orderPrice, _⟩ := (mem_levelBlocks core).mp member
    exact ⟨order, inOrders, by rw [levelPrice, core.minPrice side, orderPrice]⟩
  · rintro ⟨order, member, rfl⟩
    have inside := (core.holds side).toShape.indexOf_lt (core.inRange member)
    have found := List.getElem?_eq_getElem inside
    refine ⟨_, _, found, ?_, List.ne_nil_of_mem ((mem_levelBlocks core).mpr
      ⟨order, member, ?_, rfl⟩)⟩
    · rw [((core.holds side).levels _ _ found).1, Shape.indexOf_price (core.inRange member)]
    · rw [← core.minPrice side, Shape.indexOf_price (core.inRange member)]

/-- The cached best price is that of the first order of the side. -/
theorem bestPrice_eq_some
    (refines : Refines book book.view) (side : Side) {price : Price} :
    (book.ladder side).bestPrice = some price ↔
      price ∈ occupiedPrices book side ∧
        ∀ other ∈ occupiedPrices book side, priority side price ≤ priority side other := by
  obtain ⟨addr, free, core⟩ := refines.core
  have sorted := (core.holds side).sorted
  simp only [mem_occupiedPrices refines, refines.best side]
  constructor
  · intro best
    refine ⟨?_, ?_⟩
    · obtain ⟨head, atHead, rfl⟩ := Option.map_eq_some_iff.mp best
      exact ⟨head, List.mem_of_mem_head? atHead, rfl⟩
    · rintro other ⟨order, member, rfl⟩
      exact least_of_best sorted best order member
  · rintro ⟨⟨order, member, rfl⟩, least⟩
    refine LadderHolds.bestOf_eq_some sorted (fun other inOrders =>
      least other.price ⟨other, inOrders, rfl⟩) fun nobody => ?_
    exact queueAt_eq_nil.mp nobody order member rfl

theorem bestPrice_eq_none (refines : Refines book book.view) (side : Side) :
    (book.ladder side).bestPrice = none ↔ occupiedPrices book side = ∅ := by
  rw [refines.best side, bestOf, Option.map_eq_none_iff, List.head?_eq_none_iff,
    Set.eq_empty_iff_forall_notMem, List.eq_nil_iff_forall_not_mem]
  simp only [mem_occupiedPrices refines, not_exists, not_and]
  constructor
  · exact fun nobody price order member => absurd member (nobody order)
  · exact fun nobody order member => nobody order.price order member rfl

/-- In every reachable book, the cached best prices are the highest price of a bid
and the lowest price of an ask. -/
theorem bestPrice_exact (run : BookRun PublicCalls events book) :
    (book.bidLevels.bestPrice = none ↔ occupiedPrices book .buy = ∅) ∧
      (∀ price, book.bidLevels.bestPrice = some price ↔
        IsGreatest (occupiedPrices book .buy) price) ∧
      (book.askLevels.bestPrice = none ↔ occupiedPrices book .sell = ∅) ∧
      ∀ price, book.askLevels.bestPrice = some price ↔
        IsLeast (occupiedPrices book .sell) price := by
  obtain ⟨refines, _⟩ := Sane.of_run safeCalls_publicCalls run
  refine ⟨bestPrice_eq_none refines .buy, fun price => ?_, bestPrice_eq_none refines .sell,
    fun price => ?_⟩
  · refine (bestPrice_eq_some refines .buy).trans (and_congr_right fun _ => ?_)
    exact forall₂_congr fun other _ => Int.neg_le_neg_iff
  · exact bestPrice_eq_some refines .sell

theorem bestPrice_exact_sample :
    IsGreatest (occupiedPrices sampleSession.2 .buy) 1 ∧
      IsLeast (occupiedPrices sampleSession.2 .sell) 3 := by
  obtain ⟨_, bid, _, ask⟩ := bestPrice_exact sampleRun_public
  exact ⟨(bid 1).mp (by decide +kernel), (ask 3).mp (by decide +kernel)⟩

/-! ## Aggregates -/

/-- The cached volume of a level is the sum of the quantities on its list. -/
theorem totalVolume_exact
    {spec : Reference.Book}
    (refines : Refines book spec)
    (roomy : RoomyBook spec)
    {side : Side} {index : Nat} {level : PriceLevel}
    (found : (book.ladder side).levels[index]? = some level) :
    (level.totalVolume : Int) =
      ((book.levelOrders side index).map RestingOrder.quantity).sum := by
  obtain ⟨addr, free, core⟩ := refines.core
  obtain ⟨_, levelHolds⟩ := (core.holds side).levels index level found
  rw [core.minPrice side] at levelHolds
  rw [← OrderBook.map_pricedOrders Order.quantity fun _ _ => rfl, refines.pricedOrders_eq]
  exact levelHolds.toTallies.total_exact ((core.holds side).sound.queueAt side _)
    (roomy side _)

/-- In every reachable book, the cached aggregates of every level are exact, and no
update of them or of a quantity has ever wrapped. -/
theorem aggregates_exact
    (run : BookRun PublicCalls events book)
    {side : Side} {index : Nat} {level : PriceLevel}
    (found : (book.ladder side).levels[index]? = some level) :
    level.orderCount = (book.levelBlocks side index).length ∧
      (level.totalVolume : Int) =
        ((book.levelOrders side index).map RestingOrder.quantity).sum ∧
      level.wrapped = false := by
  obtain ⟨refines, roomy⟩ := Sane.of_run safeCalls_publicCalls run
  obtain ⟨addr, free, core⟩ := refines.core
  obtain ⟨_, levelHolds⟩ := (core.holds side).levels index level found
  rw [core.minPrice side] at levelHolds
  have room := roomy side (book.view.minPrice + index)
  refine ⟨?_, totalVolume_exact refines roomy found, ?_⟩
  · have count := levelHolds.toTallies.count
    rw [(list_of_level core.toLinked found).levelBlocks, blocks, List.length_map]
    omega
  · by_contra wrapped
    exact (levelHolds.toTallies.unwrapped (by simpa using wrapped)).not_gt room

theorem aggregates_exact_sample :
    ∃ level, (sampleSession.2.ladder .sell).levels[4]? = some level ∧
      level.orderCount = 1 ∧ level.totalVolume = 3 ∧ level.wrapped = false := by
  obtain ⟨level, found⟩ : ∃ level, (sampleSession.2.ladder .sell).levels[4]? = some level :=
    Option.isSome_iff_exists.mp (by decide +kernel)
  obtain ⟨count, volume, unwrapped⟩ := aggregates_exact sampleRun_public found
  refine ⟨level, found, ?_, ?_, unwrapped⟩
  · rw [count]
    decide +kernel
  · have three : ((sampleSession.2.levelOrders .sell 4).map RestingOrder.quantity).sum = 3 := by
      decide +kernel
    exact Int.ofNat.inj (volume.trans three)

end Properties
end MatchingEngine
