import Mathlib
import MatchingEngine.Refinement.Run

/-!
# Which configurations yield a sound book

The configuration only checks the order of the prices.  A book constructed from
it is sound when, besides, the pool is not empty, its size in bytes does not
wrap, and the number of prices is a 64-bit integer; otherwise the construction
writes outside a slab or overflows.
-/

namespace MatchingEngine
namespace Properties

open Refinement
open LinkedChain

/-! ## Sound books -/

/-- A ladder with one empty level for every price of the range. -/
structure SoundLadder (minPrice maxPrice : Price) (ladder : PriceLadder) : Prop where
  count : (ladder.levels.length : Int) = maxPrice - minPrice + 1
  index : ∀ price ∈ Set.Icc minPrice maxPrice,
    ladder.getLevelAtPrice price = .ok (price - minPrice).toNat
  bijective : Set.BijOn (fun price : Price => (price - minPrice).toNat)
    (Set.Icc minPrice maxPrice) {index | index < ladder.levels.length}
  level : ∀ index < ladder.levels.length,
    ladder.level index = .ok { price := minPrice + index }
  best : ladder.bestPrice = none

/-- Allocate orders one after another. -/
def allocateAll (pool : MemoryPool) :
    List RestingOrder → Heap → Except Fault (List BlockAddress × MemoryPool × Heap)
  | [], heap => .ok ([], pool, heap)
  | order :: orders, heap => do
      let (address, pool, heap) ←
        pool.allocate order.id order.quantity order.lifetime order.side heap
      let (addresses, pool, heap) ← allocateAll pool orders heap
      .ok (address :: addresses, pool, heap)

/-- The order that the pool constructs in a block. -/
def constructed (order : RestingOrder) : RestingOrder :=
  { id := order.id, quantity := order.quantity, lifetime := order.lifetime, side := order.side }

/-- A pool with one slab that is one free list, and that can grow. -/
structure SoundPool (size : Nat) (pool : MemoryPool) (heap : Heap) : Prop where
  slabs : pool.slabs = [size]
  freeList : Chain (freeLink heap) pool.firstFree (slabBlocks 0 0 size)
  untouched : ∀ address, ¬ (address.slab = 0 ∧ address.index < size) → heap address = .raw
  /-- Any orders can be allocated, in different blocks, while there is memory. -/
  grows : ∀ orders,
    (∃ addresses pool' heap', allocateAll pool orders heap = .ok (addresses, pool', heap') ∧
      addresses.Nodup ∧
      List.Forall₂ (fun order address => heap' address = .order (constructed order)) orders
        addresses) ∨
    allocateAll pool orders heap = .error .badAlloc

/-- The construction goes through without an overflow, and the book is sound. -/
def ConstructsSoundly (config : OrderBookConfig) : Prop :=
  InInt64 (config.maxPrice - config.minPrice) ∧
  InInt64 (config.maxPrice - config.minPrice + 1) ∧
  ∃ book, OrderBook.create config = .ok book ∧
    SoundLadder config.minPrice config.maxPrice book.bidLevels ∧
    SoundLadder config.minPrice config.maxPrice book.askLevels ∧
    SoundPool config.initialPoolSize book.memoryPool book.heap ∧
    book.getNumOrders = 0

/-! ## The parts of a new book -/

theorem allocateAll_spec
    {pool : MemoryPool} {heap : Heap} {free live : List BlockAddress}
    (holds : PoolHolds pool heap free live)
    (orders : List RestingOrder) :
    (∃ addresses pool' heap', allocateAll pool orders heap = .ok (addresses, pool', heap') ∧
      (addresses ++ live).Nodup ∧
      List.Forall₂ (fun order address => heap' address = .order (constructed order)) orders
        addresses ∧
      ∀ address ∈ live, heap' address = heap address) ∨
    allocateAll pool orders heap = .error .badAlloc := by
  induction orders generalizing pool heap free live with
  | nil =>
      exact Or.inl ⟨[], pool, heap, rfl, (List.nodup_append.mp holds.nodup).2.1, .nil,
        fun _ _ => rfl⟩
  | cons order orders inductionHypothesis =>
      rcases holds.allocate order.id order.quantity order.lifetime order.side with
        ⟨_, refused⟩ | ⟨address, pool₁, heap₁, free₁, allocated, holds₁, stored, kept⟩
      · refine Or.inr ?_
        rw [allocateAll, refused, error_bind]
      · rcases inductionHypothesis holds₁ with
          ⟨addresses, pool₂, heap₂, later, distinct, storedLater, keptLater⟩ | refused
        · refine Or.inl ⟨address :: addresses, pool₂, heap₂, ?_, ?_, ?_, ?_⟩
          · rw [allocateAll, allocated, ok_bind]
            simp only [later, ok_bind]
          · exact List.perm_middle.nodup_iff.mp distinct
          · refine .cons ?_ storedLater
            rw [keptLater address List.mem_cons_self, stored]
            rfl
          · intro other member
            rw [keptLater other (List.mem_cons_of_mem _ member), kept other member]
        · refine Or.inr ?_
          rw [allocateAll, allocated, ok_bind]
          simp only [refused, error_bind]

theorem soundPool_of_create
    {size : Nat} {pool : MemoryPool} {heap : Heap}
    (range : size < 18446744073709551616)
    (created : MemoryPool.create size (fun _ => .raw) = .ok (pool, heap)) :
    SoundPool size pool heap ∧ 0 < size ∧ size * sizeofMemoryBlock ≤ maxAllocation := by
  obtain ⟨free, holds⟩ := PoolHolds.create range created
  obtain ⟨slabHeap, allocated, created⟩ := bind_eq_ok created
  obtain ⟨positive, fits⟩ := allocateSlab_bounds range allocated
  rw [allocateSlab_eq_ok positive fits] at allocated
  obtain rfl := Except.ok.inj allocated
  obtain ⟨rfl, rfl⟩ := Prod.mk.inj (Except.ok.inj created)
  refine ⟨⟨rfl, ?_, fun address outside => ?_, fun orders => ?_⟩, positive, fits⟩
  · simpa [positive] using chain_withSlab 0 size (fun _ => .raw) (Nat.zero_le size)
  · refine if_neg fun member => outside ?_
    obtain ⟨slab, _, inside⟩ := mem_slabBlocks.mp member
    exact ⟨slab, by omega⟩
  · refine (allocateAll_spec holds orders).imp_left ?_
    rintro ⟨addresses, pool', heap', allocated, distinct, stored, _⟩
    exact ⟨addresses, pool', heap', allocated, (List.append_nil addresses) ▸ distinct, stored⟩

/-- A ladder that has been constructed has levels without orders. -/
theorem level_of_create
    {minPrice maxPrice : Price} {side : Side} {ladder : PriceLadder}
    (created : PriceLadder.create minPrice maxPrice side = .ok ladder)
    {index : Nat}
    (inside : index < ladder.levels.length) :
    ladder.level index = .ok { price := toInt64 (minPrice + index) } := by
  unfold PriceLadder.create at created
  split at created
  · cases created
  split at created
  · cases created
  split at created
  · cases created
  simp only at created
  split at created
  · cases created
  obtain rfl := Except.ok.inj created
  rw [List.length_map, List.length_range] at inside
  simp [PriceLadder.level, inside]

theorem soundLadder_of_create
    {minPrice maxPrice : Price} {side : Side} {ladder : PriceLadder}
    (minRange : InInt64 minPrice)
    (maxRange : InInt64 maxPrice)
    (created : PriceLadder.create minPrice maxPrice side = .ok ladder) :
    SoundLadder minPrice maxPrice ladder := by
  obtain ⟨holds, best, rfl, rfl⟩ := ladder_of_create minRange maxRange created (fun _ => .raw)
    fun _ => ⟨0, 0⟩
  have shape := holds.toShape
  refine ⟨shape.length, fun price inRange => shape.getLevelAtPrice inRange, ⟨?_, ?_, ?_⟩,
    fun index inside => ?_, best⟩
  · intro price inRange
    exact shape.indexOf_lt inRange
  · intro first firstInRange second secondInRange same
    calc
      first = ladder.minPrice + indexOf ladder first := (Shape.indexOf_price firstInRange).symm
      _ = ladder.minPrice + indexOf ladder second :=
        congrArg (fun index : Nat => ladder.minPrice + index) same
      _ = second := Shape.indexOf_price secondInRange
  · intro index inside
    exact ⟨_, shape.inRange_of_lt inside, Shape.indexOf_add index⟩
  · have level := level_of_create created inside
    rw [level]
    obtain ⟨found, access, foundPrice, _⟩ := holds.level_at inside
    obtain rfl := Except.ok.inj (level.symm.trans access)
    rw [show toInt64 (ladder.minPrice + index) = ladder.minPrice + index from foundPrice]

/-- A ladder is refused for a range that has too many prices. -/
theorem ladder_create_cases
    {minPrice maxPrice : Price} (side : Side)
    (ordered : minPrice ≤ maxPrice)
    (range : InInt64 (maxPrice - minPrice + 1)) :
    (∃ ladder, PriceLadder.create minPrice maxPrice side = .ok ladder) ∨
      PriceLadder.create minPrice maxPrice side = .error .lengthError := by
  have difference : InInt64 (maxPrice - minPrice) := by
    unfold InInt64 at range ⊢
    lia
  unfold PriceLadder.create
  rw [if_neg (not_not.mpr ordered), if_neg (not_not.mpr difference), if_neg (not_not.mpr range)]
  simp only
  split
  · exact Or.inr rfl
  · exact Or.inl ⟨_, rfl⟩

theorem range_of_ladder_create
    {minPrice maxPrice : Price} {side : Side} {ladder : PriceLadder}
    (created : PriceLadder.create minPrice maxPrice side = .ok ladder) :
    InInt64 (maxPrice - minPrice) ∧ InInt64 (maxPrice - minPrice + 1) := by
  unfold PriceLadder.create at created
  split at created
  · cases created
  split at created
  · cases created
  next difference =>
    split at created
    · cases created
    next count => exact ⟨not_not.mp difference, not_not.mp count⟩

/-- What the construction of a book goes through. -/
theorem create_eq_ok
    {config : OrderBookConfig} {book : OrderBook}
    (created : OrderBook.create config = .ok book) :
    MemoryPool.create config.initialPoolSize (fun _ => .raw) =
      .ok (book.memoryPool, book.heap) ∧
    PriceLadder.create config.minPrice config.maxPrice .buy = .ok book.bidLevels ∧
    PriceLadder.create config.minPrice config.maxPrice .sell = .ok book.askLevels ∧
    book.getNumOrders = 0 := by
  obtain ⟨⟨pool, heap⟩, pooled, created⟩ := bind_eq_ok created
  obtain ⟨bidLevels, bids, created⟩ := bind_eq_ok created
  obtain ⟨askLevels, asks, created⟩ := bind_eq_ok created
  obtain rfl := Except.ok.inj created
  exact ⟨pooled, bids, asks, rfl⟩

theorem constructsSoundly_of_create
    {config : OrderBookConfig} {book : OrderBook}
    (created : OrderBook.create config = .ok book) :
    ConstructsSoundly config ∧ 1 ≤ config.initialPoolSize ∧
      config.initialPoolSize * sizeofMemoryBlock ≤ maxAllocation := by
  obtain ⟨pooled, bids, asks, noOrders⟩ := create_eq_ok created
  have sizeRange := config.initialPoolSizeRange
  unfold InUInt64 at sizeRange
  obtain ⟨soundPool, positive, fits⟩ := soundPool_of_create (by omega) pooled
  obtain ⟨difference, count⟩ := range_of_ladder_create bids
  exact ⟨⟨difference, count, book, created,
    soundLadder_of_create config.minPriceRange config.maxPriceRange bids,
    soundLadder_of_create config.minPriceRange config.maxPriceRange asks, soundPool, noOrders⟩,
    positive, fits⟩

/-- When memory can be obtained, an accepted configuration yields a sound book exactly if
the pool is not empty, its size in bytes does not wrap in 64 bits, and the number of
prices does not overflow. -/
theorem constructsSoundly_iff
    (config : OrderBookConfig)
    (memory : OrderBook.create config ≠ .error .badAlloc)
    (levels : OrderBook.create config ≠ .error .lengthError) :
    ConstructsSoundly config ↔
      1 ≤ config.initialPoolSize ∧
      config.initialPoolSize * sizeofMemoryBlock < 18446744073709551616 ∧
      config.maxPrice - config.minPrice + 1 ≤ 9223372036854775807 := by
  constructor
  · rintro ⟨_, count, book, created, _⟩
    obtain ⟨_, positive, fits⟩ := constructsSoundly_of_create created
    unfold maxAllocation at fits
    exact ⟨positive, by omega, count.2⟩
  · rintro ⟨positive, noWrap, fewPrices⟩
    have ordered := config.ordered
    have range : InInt64 (config.maxPrice - config.minPrice + 1) := by
      unfold InInt64
      lia
    by_cases fits : config.initialPoolSize * sizeofMemoryBlock ≤ maxAllocation
    · have pooled : MemoryPool.create config.initialPoolSize (fun _ => .raw) = .ok
          (⟨config.initialPoolSize, 0, some ⟨0, 0⟩, [config.initialPoolSize]⟩,
            withSlab 0 config.initialPoolSize fun _ => .raw) := by
        rw [MemoryPool.create, allocateSlab_eq_ok positive fits, ok_bind]
      rcases ladder_create_cases .buy ordered range with ⟨bidLevels, bids⟩ | refused
      · rcases ladder_create_cases .sell ordered range with ⟨askLevels, asks⟩ | refused
        · have created : ∃ book, OrderBook.create config = .ok book := by
            simp only [OrderBook.create, pooled, bids, asks, ok_bind]
            exact ⟨_, rfl⟩
          obtain ⟨book, created⟩ := created
          exact (constructsSoundly_of_create created).1
        · refine absurd ?_ levels
          simp only [OrderBook.create, pooled, bids, refused, ok_bind, error_bind]
      · refine absurd ?_ levels
        simp only [OrderBook.create, pooled, refused, ok_bind, error_bind]
    · refine absurd ?_ memory
      rw [OrderBook.create, MemoryPool.create,
        allocateSlab_eq_badAlloc (not_le.mp fits) noWrap, error_bind, error_bind]

/-- A book whose pool is to start empty. -/
def emptyPoolConfig : OrderBookConfig := OrderBook.fivePrices 0 (by decide)

/-- Linking the slab of an empty pool writes behind its end. -/
theorem empty_pool_out_of_bounds :
    OrderBook.create emptyPoolConfig = .error .outOfBounds ∧
      ¬ ConstructsSoundly emptyPoolConfig := by
  have fails : OrderBook.create emptyPoolConfig = .error .outOfBounds := rfl
  refine ⟨fails, ?_⟩
  rintro ⟨_, _, book, created, _⟩
  rw [fails] at created
  cases created

theorem constructsSoundly_sample : ConstructsSoundly OrderBook.sampleConfig :=
  (constructsSoundly_iff OrderBook.sampleConfig (by rintro ⟨⟩) (by rintro ⟨⟩)).mpr
    (by decide)

end Properties
end MatchingEngine
