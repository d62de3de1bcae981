import MatchingEngine.Refinement.Inversion
import MatchingEngine.Refinement.Pool

/-!
# When the pool grows

Only `allocate` adds a slab, and it does so exactly when the live orders fill
the slabs that there are.  The sizes of the slabs after an operation are
therefore known from the number of live orders after it: no operation allocates
twice, and none allocates before it frees.
-/

namespace MatchingEngine
namespace Refinement

/-- The number of blocks of a pool and of each of its slabs. -/
structure PoolCapacity where
  totalElements : Nat
  slabs : List Nat
  deriving DecidableEq

namespace PoolCapacity

/-- The capacity after an operation that ends with a number of live orders. -/
def demand (capacity : PoolCapacity) (live : Nat) : PoolCapacity :=
  if capacity.totalElements < live then
    ⟨capacity.totalElements * 2, capacity.slabs ++ [capacity.totalElements]⟩
  else capacity

/-- A number of live orders needs a slab that `operator new` refuses. -/
def Exhausted (capacity : PoolCapacity) (live : Nat) : Prop :=
  capacity.totalElements < live ∧
    maxAllocation < capacity.totalElements * sizeofMemoryBlock

theorem demand_of_le
    {capacity : PoolCapacity} {live : Nat}
    (enough : live ≤ capacity.totalElements) :
    capacity.demand live = capacity :=
  if_neg enough.not_gt

theorem not_exhausted_of_le
    {capacity : PoolCapacity} {live : Nat}
    (enough : live ≤ capacity.totalElements) :
    ¬ capacity.Exhausted live :=
  fun exhausted => enough.not_gt exhausted.1

end PoolCapacity

/-- The capacity of a pool. -/
def capacityOf (pool : MemoryPool) : PoolCapacity := ⟨pool.totalElements, pool.slabs⟩

namespace PoolHolds

variable {pool pool' : MemoryPool} {heap heap' : Heap} {free live : List BlockAddress}

theorem live_le_totalElements (holds : PoolHolds pool heap free live) :
    live.length ≤ pool.totalElements := by
  rw [holds.totalElements, List.length_append]
  exact Nat.le_add_left _ _

/-- A pool has a free block unless its live blocks fill it. -/
theorem free_eq_nil_iff (holds : PoolHolds pool heap free live) :
    free = [] ↔ pool.totalElements < live.length + 1 := by
  rw [holds.totalElements, List.length_append, ← List.length_eq_zero_iff]
  omega

/-- The capacity after a block has been allocated. -/
theorem capacity_allocate
    (holds : PoolHolds pool heap free live)
    {id : OrderID} {quantity : Quantity} {lifetime : RestingLifetime} {side : Side}
    {address : BlockAddress}
    (allocated : pool.allocate id quantity lifetime side heap = .ok (address, pool', heap')) :
    ¬ (capacityOf pool).Exhausted (live.length + 1) ∧
      capacityOf pool' = (capacityOf pool).demand (live.length + 1) := by
  have chain := holds.chain
  cases free with
  | cons first rest =>
      have someFree : pool.firstFree = some first := chain.1
      have enough : live.length + 1 ≤ (capacityOf pool).totalElements := by
        have full := holds.free_eq_nil_iff
        simp only [reduceCtorEq, false_iff, not_lt] at full
        exact full
      simp only [MemoryPool.allocate, someFree, Option.isNone_some, Bool.false_eq_true,
        if_false, ok_bind, deref_some] at allocated
      obtain ⟨next, _, allocated⟩ := bind_eq_ok allocated
      obtain ⟨_, poolAndHeap⟩ := Prod.mk.inj (Except.ok.inj allocated)
      obtain ⟨rfl, _⟩ := Prod.mk.inj poolAndHeap
      exact ⟨PoolCapacity.not_exhausted_of_le enough,
        (PoolCapacity.demand_of_le enough).symm⟩
  | nil =>
      have noFree : pool.firstFree = none := chain
      have full : (capacityOf pool).totalElements < live.length + 1 :=
        holds.free_eq_nil_iff.mp rfl
      by_cases fits : pool.totalElements * sizeofMemoryBlock ≤ maxAllocation
      · refine ⟨fun exhausted => fits.not_gt exhausted.2, ?_⟩
        have doubled : toUInt64 ((pool.totalElements : Int) * 2) = pool.totalElements * 2 := by
          unfold sizeofMemoryBlock maxAllocation at fits
          unfold toUInt64
          omega
        simp only [MemoryPool.allocate, noFree, Option.isNone_none, if_true, MemoryPool.grow,
          allocateSlab_eq_ok holds.nonempty fits, ok_bind, deref_some, doubled] at allocated
        obtain ⟨next, _, allocated⟩ := bind_eq_ok allocated
        obtain ⟨_, poolAndHeap⟩ := Prod.mk.inj (Except.ok.inj allocated)
        obtain ⟨rfl, _⟩ := Prod.mk.inj poolAndHeap
        rw [PoolCapacity.demand, if_pos full]
        rfl
      · simp only [MemoryPool.allocate, noFree, Option.isNone_none, if_true, MemoryPool.grow,
          allocateSlab_eq_badAlloc (not_le.mp fits) holds.fits, error_bind] at allocated
        cases allocated

/-- An allocation is refused only when the pool is exhausted. -/
theorem exhausted_of_refused
    (holds : PoolHolds pool heap free live)
    {id : OrderID} {quantity : Quantity} {lifetime : RestingLifetime} {side : Side}
    {fault : Fault}
    (refused : pool.allocate id quantity lifetime side heap = .error fault) :
    (capacityOf pool).Exhausted (live.length + 1) := by
  rcases holds.allocate id quantity lifetime side with ⟨noFree, _⟩ | ⟨_, _, _, _, allocated, _⟩
  · refine ⟨holds.free_eq_nil_iff.mp noFree, ?_⟩
    by_contra fits
    obtain ⟨pool', heap', free', grown, holds', present, _⟩ :=
      (noFree ▸ holds).grow (not_lt.mp fits)
    have firstFree : pool.firstFree = none := (noFree ▸ holds).chain
    cases free' with
    | nil => exact present rfl
    | cons address rest =>
        obtain ⟨next, first, linked, _⟩ := holds'.take { id, quantity, lifetime, side }
        simp only [MemoryPool.allocate, firstFree, Option.isNone_none, if_true, grown, ok_bind,
          first, deref_some, linked] at refused
        cases refused
  · rw [refused] at allocated
    cases allocated

end PoolHolds

/-! ## Operations that allocate nothing -/

theorem capacity_deallocate
    {pool pool' : MemoryPool} {heap heap' : Heap} {orderToFree : Option BlockAddress}
    (returned : pool.deallocate orderToFree heap = .ok (pool', heap')) :
    capacityOf pool' = capacityOf pool := by
  cases orderToFree with
  | none => cases returned
  | some address =>
      obtain ⟨order, _, returned⟩ := bind_eq_ok returned
      obtain ⟨rfl, _⟩ := Prod.mk.inj (Except.ok.inj returned)
      rfl

@[simp] theorem setLadder_idToOrderMap
    (book : OrderBook) (side : Side) (ladder : PriceLadder) :
    (book.setLadder side ladder).idToOrderMap = book.idToOrderMap := by
  cases side <;> rfl

@[simp] theorem setLadder_memoryPool
    (book : OrderBook) (side : Side) (ladder : PriceLadder) :
    (book.setLadder side ladder).memoryPool = book.memoryPool := by
  cases side <;> rfl

@[simp] theorem setLevel_memoryPool
    (book : OrderBook) (address : LevelAddress) (level : PriceLevel) :
    (book.setLevel address level).memoryPool = book.memoryPool :=
  setLadder_memoryPool ..

/-- The allocation that an order is rested with. -/
theorem allocate_of_restOrder
    {book book' : OrderBook} {id : OrderID} {price : Price} {quantity : Quantity}
    {lifetime : RestingLifetime} {side restingSide comparedSide : Side}
    (rested : book.restOrder id price quantity lifetime side restingSide comparedSide =
      .ok book') :
    ∃ address heap, book.memoryPool.allocate id quantity lifetime side book.heap =
      .ok (address, book'.memoryPool, heap) := by
  obtain ⟨address, pool, heap, _, _, _, _, allocated, _, rfl⟩ := OrderBook.restOrder_ok rested
  refine ⟨address, heap, ?_⟩
  rwa [setLadder_memoryPool]

/-- Whenever the operation returns, the pool has the capacity it had. -/
def KeepsCapacity {α : Type} (book : OrderBook) (result : Except Fault (α × OrderBook)) :
    Prop :=
  ∀ answer book', result = .ok (answer, book') →
    capacityOf book'.memoryPool = capacityOf book.memoryPool

variable {book book' : OrderBook}

theorem registry_takeFromMaker
    {address : LevelAddress} {matchingLevel : PriceLevel} {remainingShares : Quantity}
    (returned : book.takeFromMaker address matchingLevel remainingShares = .ok book') :
    book'.idToOrderMap = book.idToOrderMap ∧ book'.memoryPool = book.memoryPool := by
  obtain ⟨level, heap, _, rfl⟩ := OrderBook.takeFromMaker_ok returned
  exact ⟨setLadder_idToOrderMap .., setLevel_memoryPool ..⟩

theorem registry_retireMaker
    {address : LevelAddress} {matchingLevel : PriceLevel} {bestPrice : Price}
    {takingOrderID : OrderID}
    (returned : book.retireMaker address matchingLevel bestPrice takingOrderID = .ok book') :
    book'.idToOrderMap = book.idToOrderMap.erase takingOrderID ∧
      capacityOf book'.memoryPool = capacityOf book.memoryPool := by
  obtain ⟨_, _, _, _, _, _, _, deallocated, _, rfl⟩ := OrderBook.retireMaker_ok returned
  rw [setLadder_memoryPool, setLadder_idToOrderMap]
  exact ⟨rfl, capacity_deallocate deallocated⟩

/-- What retiring a maker preserves, the matching loop preserves. -/
theorem matchingLoop_preserves
    (property : OrderBook.Registry → Prop)
    (preserved : ∀ map pool id pool', capacityOf pool' = capacityOf pool →
      property ⟨map, pool⟩ → property ⟨map.erase id, pool'⟩)
    {matchingSide : Side} {takes : Price → Bool} {fuel : Nat} {remainingShares : Quantity}
    {subResult : SubmissionResult} {exit : OrderBook.LoopExit}
    (returned : OrderBook.matchingLoop matchingSide takes fuel book remainingShares subResult =
      .ok exit)
    (holds : property ⟨book.idToOrderMap, book.memoryPool⟩) :
    property ⟨exit.book.idToOrderMap, exit.book.memoryPool⟩ := by
  have iterations := OrderBook.iterations_of_matchingLoop returned
  clear returned
  induction iterations with
  | stop => exact holds
  | take _ _ taken =>
      obtain ⟨sameMap, samePool⟩ := registry_takeFromMaker taken
      rwa [sameMap, samePool]
  | retire _ _ retired _ inductionHypothesis =>
      obtain ⟨erased, sameCapacity⟩ := registry_retireMaker retired
      refine inductionHypothesis ?_
      rw [erased]
      exact preserved _ _ _ _ sameCapacity holds

theorem capacity_runMatching
    {matchingSide : Side} {takes : Price → Bool} {quantity : Quantity}
    {exit : OrderBook.LoopExit}
    (returned : book.runMatching matchingSide takes quantity = .ok exit) :
    capacityOf exit.book.memoryPool = capacityOf book.memoryPool :=
  matchingLoop_preserves
    (fun registry => capacityOf registry.memoryPool = capacityOf book.memoryPool)
    (fun _ _ _ _ same kept => same.trans kept) returned rfl

theorem capacity_retireOrder
    {address : BlockAddress} {registry registry' : OrderBook.Registry} {heap heap' : Heap}
    (returned : OrderBook.retireOrder address registry heap = .ok (registry', heap')) :
    capacityOf registry'.memoryPool = capacityOf registry.memoryPool := by
  obtain ⟨order, _, returned⟩ := bind_eq_ok returned
  obtain ⟨⟨pool, heap''⟩, deallocated, returned⟩ := bind_eq_ok returned
  obtain ⟨rfl, _⟩ := Prod.mk.inj (Except.ok.inj returned)
  exact capacity_deallocate deallocated

theorem keepsCapacity_cancelOrder (cancelRequest : CancelOrderRequest) :
    KeepsCapacity book (book.cancelOrder cancelRequest) := by
  intro result book' returned
  rcases OrderBook.cancelOrder_ok returned with
    ⟨_, rfl⟩ | ⟨_, _, _, _, removed, _, _, _, _, _, rfl, _, retired, rfl⟩
  · rfl
  · rw [setLadder_memoryPool]
    refine (capacity_retireOrder retired).trans ?_
    rw [setLevel_memoryPool]

section Prune

variable {σ : Type} (property : σ → Prop)
variable {onPrunedOrder : BlockAddress → σ → Heap → Except Fault (σ × Heap)}

/-- What the callback preserves, pruning a level preserves. -/
theorem pruneLoop_preserves
    (preserved : ∀ address state heap state' heap',
      onPrunedOrder address state heap = .ok (state', heap') → property state → property state')
    {place : LevelAddress} {fuel : Nat} {ptr : Option BlockAddress}
    {result result' : LevelPruneStats} {level level' : PriceLevel} {state state' : σ}
    {heap heap' : Heap}
    (returned : PriceLevel.pruneLoop place onPrunedOrder fuel ptr result level state heap =
      .ok (result', level', state', heap'))
    (holds : property state) :
    property state' := by
  induction fuel generalizing ptr result level state heap with
  | zero =>
      cases ptr with
      | none =>
          cases returned
          exact holds
      | some address => cases returned
  | succ fuel inductionHypothesis =>
      cases ptr with
      | none =>
          cases returned
          exact holds
      | some address =>
          obtain ⟨order, _, returned⟩ := bind_eq_ok returned
          simp only at returned
          split at returned
          · obtain ⟨⟨outcome, level₁, heap₁⟩, _, returned⟩ := bind_eq_ok returned
            obtain ⟨⟨state₁, heap₂⟩, pruned, returned⟩ := bind_eq_ok returned
            exact inductionHypothesis returned (preserved _ _ _ _ _ pruned holds)
          · exact inductionHypothesis returned holds

/-- What the callback preserves, pruning a ladder preserves. -/
theorem pruneLevels_preserves
    (preserved : ∀ address state heap state' heap',
      onPrunedOrder address state heap = .ok (state', heap') → property state → property state')
    {fuel count index : Nat} {dayResult dayResult' : DayOrderPruneResult}
    {ladder ladder' : PriceLadder} {state state' : σ} {heap heap' : Heap}
    (returned : PriceLadder.pruneLevels fuel onPrunedOrder count index dayResult ladder state
      heap = .ok (dayResult', ladder', state', heap'))
    (holds : property state) :
    property state' := by
  induction count generalizing index dayResult ladder state heap with
  | zero =>
      cases returned
      exact holds
  | succ count inductionHypothesis =>
      obtain ⟨level, _, returned⟩ := bind_eq_ok returned
      split at returned
      · obtain ⟨⟨stats, level₁, state₁, heap₁⟩, pruned, returned⟩ := bind_eq_ok returned
        exact inductionHypothesis returned (pruneLoop_preserves property preserved pruned holds)
      · exact inductionHypothesis returned holds

/-- Refreshing the best price does not touch the state of the callback. -/
theorem pruneDayOrders_preserves
    (preserved : ∀ address state heap state' heap',
      onPrunedOrder address state heap = .ok (state', heap') → property state → property state')
    {fuel : Nat} {dayResult dayResult' : DayOrderPruneResult}
    {ladder ladder' : PriceLadder} {state state' : σ} {heap heap' : Heap}
    (returned : ladder.pruneDayOrders fuel onPrunedOrder dayResult state heap =
      .ok (dayResult', ladder', state', heap'))
    (holds : property state) :
    property state' := by
  obtain ⟨emptied, pruned, _⟩ := pruneDayOrders_ok returned
  exact pruneLevels_preserves property preserved pruned holds

end Prune

section SessionEnd

variable (property : OrderBook.Registry → Prop)
variable (preserved : ∀ address registry heap registry' heap',
  OrderBook.retireOrder address registry heap = .ok (registry', heap') →
    property registry → property registry')

include preserved

/-- What retiring an order preserves, pruning a side of the book preserves. -/
theorem pruneSide_preserves
    {side : Side} {sessionResult result : DayOrderPruneResult}
    (returned : book.pruneSide side sessionResult = .ok (result, book'))
    (holds : property ⟨book.idToOrderMap, book.memoryPool⟩) :
    property ⟨book'.idToOrderMap, book'.memoryPool⟩ := by
  rcases OrderBook.pruneSide_ok returned with
    ⟨_, _, rfl⟩ | ⟨_, levels, registry, heap, pruned, rfl⟩
  · exact holds
  · rw [setLadder_memoryPool, setLadder_idToOrderMap]
    exact pruneDayOrders_preserves property preserved pruned holds

/-- What retiring an order preserves, the session end preserves. -/
theorem onSessionEnd_preserves
    {result : DayOrderPruneResult}
    (returned : book.onSessionEnd = .ok (result, book'))
    (holds : property ⟨book.idToOrderMap, book.memoryPool⟩) :
    property ⟨book'.idToOrderMap, book'.memoryPool⟩ := by
  obtain ⟨⟨bidResult, middle⟩, bids, asks⟩ := bind_eq_ok returned
  exact pruneSide_preserves property preserved asks
    (pruneSide_preserves property preserved bids holds)

end SessionEnd

theorem keepsCapacity_onSessionEnd : KeepsCapacity book book.onSessionEnd :=
  fun _ _ returned => onSessionEnd_preserves
    (fun registry => capacityOf registry.memoryPool = capacityOf book.memoryPool)
    (fun _ _ _ _ _ retired same => (capacity_retireOrder retired).trans same) returned rfl

end Refinement
end MatchingEngine
