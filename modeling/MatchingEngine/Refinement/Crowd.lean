import MatchingEngine.Refinement.Lineage

/-!
# Levels with more orders than their counters can count

A pool that starts with `2 ^ 32` blocks has room for as many orders on one level.
The counter of the level is back at zero when the last of them arrives, and the
ladder takes the level for empty.
-/

namespace MatchingEngine
namespace Refinement

open Reference (Order priority orderPriority)

/-- Room for as many orders as make a counter wrap around. -/
def crowdConfig : OrderBookConfig := OrderBook.fivePrices 4294967296 (by decide)

/-- So many bids of one share each at one price. -/
def crowd (lifetime : RestingLifetime) (count : Nat) : Reference.Book where
  minPrice := 0
  maxPrice := 4
  bids := (List.range count).map fun id => ⟨id, 0, 1, lifetime⟩
  asks := []

section Crowd

variable {lifetime : RestingLifetime} {count : Nat}

theorem mem_crowd {side : Side} {order : Order} :
    order ∈ (crowd lifetime count).orders side ↔
      side = .buy ∧ ∃ id < count, (⟨id, 0, 1, lifetime⟩ : Order) = order := by
  cases side <;> simp [crowd, Reference.Book.orders]

theorem contains_crowd {id : OrderID} : (crowd lifetime count).Contains id ↔ id < count := by
  rw [Reference.Book.contains_iff]
  simp only [mem_crowd]
  constructor
  · rintro ⟨_, _, ⟨_, _, inside, rfl⟩, rfl⟩
    exact inside
  · intro inside
    exact ⟨.buy, _, ⟨rfl, id, inside, rfl⟩, rfl⟩

/-- The whole crowd is in one queue. -/
theorem queueAt_crowd :
    queueAt .buy 0 ((crowd lifetime count).orders .buy) = (crowd lifetime count).bids :=
  List.filter_eq_self.mpr fun order member => by
    obtain ⟨_, _, _, rfl⟩ := mem_crowd.mp (show order ∈ (crowd lifetime count).orders .buy from
      member)
    rfl

theorem length_crowd : (crowd lifetime count).bids.length = count := by
  simp [crowd]

theorem bestOf_crowd (occupied : 0 < count) :
    bestOf ((crowd lifetime count).orders .buy) = some 0 := by
  obtain ⟨rest, rfl⟩ := Nat.exists_eq_add_of_lt occupied
  simp [bestOf, crowd, Reference.Book.orders, List.range_succ_eq_map]

theorem roomy_crowd (small : count < 4294967296) : RoomyBook (crowd lifetime count) := by
  intro side price
  refine (List.length_filter_le _ _).trans_lt ?_
  cases side with
  | buy => exact length_crowd.trans_lt small
  | sell => exact Nat.zero_lt_of_lt small

/-- The next order joins the crowd at its end. -/
theorem rest_crowd :
    (crowd lifetime count).rest .buy ⟨count, 0, 1, lifetime⟩ = crowd lifetime (count + 1) := by
  have atEnd : KeyedList.enqueue (orderPriority .buy) ⟨count, 0, 1, lifetime⟩
      ((crowd lifetime count).orders .buy) =
        (crowd lifetime count).bids ++ [⟨count, 0, 1, lifetime⟩] := by
    refine KeyedList.enqueue_of_forall_le fun order member => ?_
    obtain ⟨_, _, _, rfl⟩ := mem_crowd.mp member
    exact le_refl _
  refine Reference.Book.ext_orders rfl rfl fun side => ?_
  rw [Reference.Book.rest, Reference.Book.orders_setOrders, atEnd]
  cases side with
  | buy =>
      rw [if_pos rfl]
      simp [crowd, Reference.Book.orders, List.range_succ]
  | sell => rfl

/-! ## Books with a crowd -/

/-- A book that holds a crowd, in a pool that has not grown. -/
structure Crowded (lifetime : RestingLifetime) (count : Nat) (book : OrderBook) : Prop where
  refines : Refines book (crowd lifetime count)
  totalElements : book.memoryPool.totalElements = 4294967296

variable {book : OrderBook}

theorem exists_crowded (lifetime : RestingLifetime) :
    ∃ book, OrderBook.create crowdConfig = .ok book ∧ Crowded lifetime 0 book := by
  have pooled : MemoryPool.create crowdConfig.initialPoolSize (fun _ => .raw) = .ok
      (⟨4294967296, 0, some ⟨0, 0⟩, [4294967296]⟩, withSlab 0 4294967296 fun _ => .raw) := by
    rw [MemoryPool.create, show crowdConfig.initialPoolSize = 4294967296 from rfl,
      allocateSlab_eq_ok (by decide) (by decide), ok_bind]
  obtain ⟨book, created, total⟩ : ∃ book, OrderBook.create crowdConfig = .ok book ∧
      book.memoryPool.totalElements = 4294967296 := by
    rw [OrderBook.create, pooled, ok_bind]
    exact ⟨_, rfl, rfl⟩
  exact ⟨book, created, refines_of_create created, total⟩

/-- The pool has a block for every order of the crowd. -/
theorem Crowded.hasFree (crowded : Crowded lifetime count book) (small : count < 4294967296) :
    HasFree book := by
  obtain ⟨addr, free, core⟩ := crowded.refines.core
  have full := core.pool.free_eq_nil_iff
  have total : (registryOf book).memoryPool.totalElements = 4294967296 := crowded.totalElements
  have live : (liveBlocks addr (crowd lifetime count)).length = count := by
    simp [liveBlocks, blocks, crowd]
  have chain := core.pool.chain
  rw [total, live] at full
  cases free with
  | nil => exact absurd (full.mp rfl) (by omega)
  | cons first rest =>
      have someFree : book.memoryPool.firstFree = some first := chain.1
      simp [HasFree, someFree]

/-- Resting an order while there is a free block does not add a slab. -/
theorem totalElements_restOrder
    {id : OrderID} {price : Price} {quantity : Quantity} {side restingSide comparedSide : Side}
    {book' : OrderBook}
    (hasFree : HasFree book)
    (rested : book.restOrder id price quantity lifetime side restingSide comparedSide =
      .ok book') :
    book'.memoryPool.totalElements = book.memoryPool.totalElements := by
  obtain ⟨first, someFree⟩ := Option.ne_none_iff_exists'.mp hasFree
  obtain ⟨address, heap, allocated⟩ := allocate_of_restOrder rested
  simp only [MemoryPool.allocate, someFree, Option.isNone_some, Bool.false_eq_true, if_false,
    ok_bind, deref_some] at allocated
  obtain ⟨next, _, allocated⟩ := bind_eq_ok allocated
  obtain ⟨_, poolAndHeap⟩ := Prod.mk.inj (Except.ok.inj allocated)
  rw [← (Prod.mk.inj poolAndHeap).1]

/-- There is room for one order after another, up to one more than the counter of the
level can count. -/
theorem Crowded.restOrder
    (crowded : Crowded lifetime count book)
    (small : count < 4294967296) :
    ∃ book', book.restOrder count 0 1 lifetime .buy .buy .buy = .ok book' ∧
      Crowded lifetime (count + 1) book' := by
  have hasFree := crowded.hasFree small
  rcases crowded.refines.carries.restOrder ⟨count, 0, 1, lifetime⟩ .buy
    (fun present => lt_irrefl count (contains_crowd.mp present))
      ⟨le_refl (0 : Int), show (0 : Int) ≤ 4 by decide⟩ with
    ⟨noFree, _⟩ | ⟨book', rested, _, refines'⟩
  · exact absurd hasFree noFree
  · refine ⟨book', rested, ?_, ?_⟩
    · rw [← rest_crowd]
      exact refines' ⟨le_refl (1 : Int), show (1 : Int) ≤ 2147483647 by decide⟩
        crowded.refines (roomy_crowd small)
    · rw [totalElements_restOrder hasFree rested, crowded.totalElements]

end Crowd

end Refinement
end MatchingEngine
