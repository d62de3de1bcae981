import MatchingEngine.Library.LinkedChain
import MatchingEngine.Model.MemoryPool
import Mathlib.Algebra.GroupWithZero.Nat
import Mathlib.Data.List.Nodup
import Mathlib.Data.List.Range

/-!
# The pool holds live and free blocks

`PoolHolds` says that the slabs of the pool consist of the blocks on the free
list and of the live blocks, each of them once, and that exactly the live
blocks store orders.  Allocating moves a block from the first to the second
kind, deallocating moves it back.
-/

namespace MatchingEngine
namespace Refinement

open LinkedChain

/-- The link of a free block. -/
def freeLink (heap : Heap) (address : BlockAddress) : Option (Option BlockAddress) :=
  match heap address with
  | .free next => some next
  | _ => none

theorem freeLink_eq_some
    {heap : Heap} {address : BlockAddress} {next : Option BlockAddress} :
    freeLink heap address = some next ↔ heap address = .free next := by
  unfold freeLink
  cases heap address <;> simp

/-! ## Slabs -/

/-- The addresses of the blocks of a slab from an index on. -/
def slabBlocks (slab first count : Nat) : List BlockAddress :=
  (List.range' first count).map fun index => ⟨slab, index⟩

theorem mem_slabBlocks {slab first count : Nat} {address : BlockAddress} :
    address ∈ slabBlocks slab first count ↔
      address.slab = slab ∧ first ≤ address.index ∧ address.index < first + count := by
  obtain ⟨otherSlab, index⟩ := address
  simp only [slabBlocks, List.mem_map, List.mem_range'_1, BlockAddress.mk.injEq]
  constructor
  · rintro ⟨_, range, rfl, rfl⟩
    exact ⟨rfl, range⟩
  · rintro ⟨rfl, range⟩
    exact ⟨index, range, rfl, rfl⟩

theorem nodup_slabBlocks (slab first count : Nat) :
    (slabBlocks slab first count).Nodup :=
  List.Nodup.map_on (fun left _ right _ equal => by simpa using equal) List.nodup_range'

theorem linkBlocks_eq_ok
    {extent slab remaining i : Nat}
    (inside : i + remaining ≤ extent)
    (heap : Heap) :
    MemoryPool.linkBlocks extent slab remaining i heap =
      .ok fun address =>
        if address ∈ slabBlocks slab i remaining then
          .free (some ⟨slab, address.index + 1⟩)
        else heap address := by
  induction remaining generalizing i heap with
  | zero => simp [MemoryPool.linkBlocks, slabBlocks]
  | succ remaining inductionHypothesis =>
      rw [MemoryPool.linkBlocks, if_pos (by omega), inductionHypothesis (by omega)]
      congr 1
      funext address
      obtain ⟨otherSlab, index⟩ := address
      simp only [mem_slabBlocks, Heap.write_apply, BlockAddress.mk.injEq]
      by_cases first : otherSlab = slab ∧ index = i
      · obtain ⟨rfl, rfl⟩ := first
        simp
      · rw [if_neg first]
        congr 1
        rw [eq_iff_iff]
        omega

/-- The heap after a slab has been added. -/
def withSlab (slab size : Nat) (heap : Heap) : Heap := fun address =>
  if address ∈ slabBlocks slab 0 size then
    .free (if address.index + 1 < size then some ⟨slab, address.index + 1⟩ else none)
  else heap address

theorem withSlab_of_slab_ne
    {slab size : Nat} {address : BlockAddress}
    (different : address.slab ≠ slab)
    (heap : Heap) :
    withSlab slab size heap address = heap address :=
  if_neg fun member => different (mem_slabBlocks.mp member).1

/-- The size of a slab in bytes, when it does not wrap. -/
theorem toUInt64_bytes
    {size : Nat}
    (noWrap : size * sizeofMemoryBlock < 18446744073709551616) :
    toUInt64 ((size : Int) * (sizeofMemoryBlock : Nat)) = size * sizeofMemoryBlock := by
  rw [← Int.natCast_mul]
  exact toUInt64_natCast noWrap

/-- A slab that fits into the address space is allocated. -/
theorem allocateSlab_eq_ok
    {slab size : Nat}
    (positive : 0 < size)
    (fits : size * sizeofMemoryBlock ≤ maxAllocation)
    (heap : Heap) :
    MemoryPool.allocateSlab slab size heap = .ok (withSlab slab size heap) := by
  have noWrap : size * sizeofMemoryBlock < 18446744073709551616 := by
    unfold maxAllocation at fits
    omega
  have small : size < 18446744073709551616 := by
    unfold sizeofMemoryBlock at noWrap
    omega
  have last : toUInt64 ((size : Int) - 1) = size - 1 := by
    unfold toUInt64
    omega
  have extent : size * sizeofMemoryBlock / sizeofMemoryBlock = size :=
    Nat.mul_div_cancel _ (by decide)
  unfold MemoryPool.allocateSlab
  simp only [toUInt64_bytes noWrap, last, extent]
  rw [if_neg fits.not_gt, linkBlocks_eq_ok (by omega), ok_bind,
    if_pos (by omega)]
  congr 1
  funext address
  obtain ⟨otherSlab, index⟩ := address
  simp only [withSlab, mem_slabBlocks, Heap.write_apply, BlockAddress.mk.injEq]
  by_cases isLast : otherSlab = slab ∧ index = size - 1
  · obtain ⟨rfl, rfl⟩ := isLast
    rw [if_pos ⟨rfl, rfl⟩, if_pos (by omega), if_neg (by omega)]
  · rw [if_neg isLast]
    by_cases inSlab : otherSlab = slab ∧ index < size
    · rw [if_pos (by omega), if_pos (by omega), if_pos (by omega)]
    · rw [if_neg (by omega), if_neg (by omega)]

/-- A slab that does not fit into the address space, but whose size in bytes is
computed without wrapping, is refused. -/
theorem allocateSlab_eq_badAlloc
    {slab size : Nat}
    (tooLarge : maxAllocation < size * sizeofMemoryBlock)
    (noWrap : size * sizeofMemoryBlock < 18446744073709551616)
    (heap : Heap) :
    MemoryPool.allocateSlab slab size heap = .error .badAlloc := by
  unfold MemoryPool.allocateSlab
  simp only [toUInt64_bytes noWrap]
  rw [if_pos tooLarge]

/-- A slab that was allocated has blocks and fits into the address space. -/
theorem allocateSlab_bounds
    {slab size : Nat} {heap heap' : Heap}
    (range : size < 18446744073709551616)
    (allocated : MemoryPool.allocateSlab slab size heap = .ok heap') :
    0 < size ∧ size * sizeofMemoryBlock ≤ maxAllocation := by
  unfold MemoryPool.allocateSlab at allocated
  simp only at allocated
  split at allocated
  · simp at allocated
  · next small =>
      cases linked : MemoryPool.linkBlocks
          (toUInt64 ((size : Int) * (sizeofMemoryBlock : Nat)) / sizeofMemoryBlock) slab
          (toUInt64 ((size : Int) - 1)) 0 heap with
      | error fault => simp [linked] at allocated
      | ok linkedHeap =>
          rw [linked, ok_bind] at allocated
          split at allocated
          · next inside =>
              unfold toUInt64 sizeofMemoryBlock at small inside
              unfold maxAllocation at small ⊢
              unfold sizeofMemoryBlock
              push_cast at small inside
              omega
          · simp at allocated

/-- The free list that runs through a new slab. -/
theorem chain_withSlab (slab size : Nat) (heap : Heap) {first : Nat} (inside : first ≤ size) :
    Chain (freeLink (withSlab slab size heap))
      (if first < size then some ⟨slab, first⟩ else none)
      (slabBlocks slab first (size - first)) := by
  induction remaining : size - first generalizing first with
  | zero =>
      rw [if_neg (by omega)]
      rfl
  | succ remaining inductionHypothesis =>
      rw [if_pos (by omega)]
      refine ⟨rfl, _, freeLink_eq_some.mpr ?_,
        inductionHypothesis (show first + 1 ≤ size by omega) (by omega)⟩
      exact if_pos (mem_slabBlocks.mpr ⟨rfl, by simp, by simp; omega⟩)

/-! ## Pools -/

/-- The pool consists of the given free blocks and the given live blocks. -/
structure PoolHolds
    (pool : MemoryPool) (heap : Heap) (free live : List BlockAddress) : Prop where
  chain : Chain (freeLink heap) pool.firstFree free
  nodup : (free ++ live).Nodup
  owned : ∀ address, address ∈ free ++ live ↔ pool.Owns address
  live_iff : ∀ address, address ∈ live ↔ ∃ order, heap address = .order order
  totalElements : pool.totalElements = (free ++ live).length
  slabs : pool.slabs.sum = pool.totalElements
  currentlyAllocated : pool.currentlyAllocated = live.length
  nonempty : 0 < pool.totalElements
  fits : pool.totalElements * sizeofMemoryBlock < 18446744073709551616

namespace PoolHolds

variable {pool : MemoryPool} {heap heap' : Heap} {free live live' : List BlockAddress}

/-- The order in which the live blocks are listed does not matter. -/
theorem perm
    (holds : PoolHolds pool heap free live)
    (permuted : live'.Perm live) :
    PoolHolds pool heap free live' where
  chain := holds.chain
  nodup := ((List.Perm.refl free).append permuted).nodup_iff.mpr holds.nodup
  owned address := by
    rw [← holds.owned, List.mem_append, List.mem_append, permuted.mem_iff]
  live_iff address := permuted.mem_iff.trans (holds.live_iff address)
  totalElements := by
    rw [holds.totalElements, List.length_append, List.length_append, permuted.length_eq]
  slabs := holds.slabs
  currentlyAllocated := by rw [holds.currentlyAllocated, permuted.length_eq]
  nonempty := holds.nonempty
  fits := holds.fits

/-- Changing the orders in live blocks does not matter to the pool. -/
theorem congr
    (holds : PoolHolds pool heap free live)
    (orders : ∀ address ∈ live, ∃ order, heap' address = .order order)
    (frame : ∀ address, address ∉ live → heap' address = heap address) :
    PoolHolds pool heap' free live where
  chain := holds.chain.congr fun address member => by
    have notLive : address ∉ live := fun inLive =>
      (List.nodup_append.mp holds.nodup).2.2 address member address inLive rfl
    simp only [freeLink, frame address notLive]
  nodup := holds.nodup
  owned := holds.owned
  live_iff address := by
    refine ⟨orders address, fun stored => ?_⟩
    by_contra notLive
    rw [frame address notLive] at stored
    exact notLive ((holds.live_iff address).mpr stored)
  totalElements := holds.totalElements
  slabs := holds.slabs
  currentlyAllocated := holds.currentlyAllocated
  nonempty := holds.nonempty
  fits := holds.fits

/-- A new pool. -/
theorem create
    {size : Nat}
    (range : size < 18446744073709551616)
    (created : MemoryPool.create size (fun _ => .raw) = .ok (pool, heap)) :
    ∃ free, PoolHolds pool heap free [] := by
  unfold MemoryPool.create at created
  cases allocated : MemoryPool.allocateSlab 0 size fun _ => .raw with
  | error fault => simp [allocated] at created
  | ok slabHeap =>
      obtain ⟨positive, fits⟩ := allocateSlab_bounds range allocated
      rw [allocateSlab_eq_ok positive fits] at allocated
      obtain rfl := Except.ok.inj allocated
      rw [allocateSlab_eq_ok positive fits, ok_bind] at created
      obtain ⟨rfl, rfl⟩ := Prod.mk.inj (Except.ok.inj created)
      refine ⟨slabBlocks 0 0 size, ?_⟩
      constructor
      · simpa [positive] using chain_withSlab 0 size (fun _ => .raw) (Nat.zero_le size)
      · simpa using nodup_slabBlocks 0 0 size
      · rintro ⟨slab, index⟩
        rw [List.append_nil, mem_slabBlocks]
        cases slab <;> simp [MemoryPool.Owns]
      · intro address
        simp only [List.not_mem_nil, withSlab, false_iff, not_exists]
        intro order
        split <;> simp
      · simp [slabBlocks]
      · simp
      · rfl
      · exact positive
      · change size * sizeofMemoryBlock < _
        unfold maxAllocation at fits
        omega

/-- Adding a slab to a pool without free blocks. -/
theorem grow
    (holds : PoolHolds pool heap [] live)
    (fits : pool.totalElements * sizeofMemoryBlock ≤ maxAllocation) :
    ∃ pool' heap' free,
      pool.grow heap = .ok (pool', heap') ∧
      PoolHolds pool' heap' free live ∧ free ≠ [] ∧
      ∀ address ∈ live, heap' address = heap address := by
  have total := holds.totalElements
  have nonempty := holds.nonempty
  have liveSlots : ∀ address ∈ live, address.slab < pool.slabs.length :=
    fun address member => by
      obtain ⟨size, found, _⟩ := (holds.owned address).mp (by simpa using member)
      exact (List.getElem?_eq_some_iff.mp found).1
  have doubled : toUInt64 ((pool.totalElements : Int) * 2) = pool.totalElements * 2 := by
    unfold sizeofMemoryBlock maxAllocation at fits
    unfold toUInt64
    omega
  have notInSlab : ∀ address ∈ live,
      withSlab pool.slabs.length pool.totalElements heap address = heap address :=
    fun address member => withSlab_of_slab_ne (liveSlots address member).ne heap
  have grown : pool.grow heap = .ok
      ({ pool with
        slabs := pool.slabs ++ [pool.totalElements]
        firstFree := some ⟨pool.slabs.length, 0⟩
        totalElements := pool.totalElements * 2 },
        withSlab pool.slabs.length pool.totalElements heap) := by
    simp only [MemoryPool.grow, allocateSlab_eq_ok nonempty fits, ok_bind, doubled]
  refine ⟨_, _, slabBlocks pool.slabs.length 0 pool.totalElements, grown, ?_, ?_, notInSlab⟩
  · constructor
    · simpa [nonempty] using
        chain_withSlab pool.slabs.length pool.totalElements heap (Nat.zero_le _)
    · refine List.nodup_append.mpr ⟨nodup_slabBlocks _ _ _, by simpa using holds.nodup,
        fun address inSlab other inLive equal => ?_⟩
      have := liveSlots other inLive
      rw [← equal, (mem_slabBlocks.mp inSlab).1] at this
      exact lt_irrefl _ this
    · rintro ⟨slab, index⟩
      have old := holds.owned ⟨slab, index⟩
      rw [List.nil_append] at old
      rw [List.mem_append, mem_slabBlocks, old]
      simp only [MemoryPool.Owns, List.getElem?_append]
      by_cases inOld : slab < pool.slabs.length
      · simp [inOld, inOld.ne]
      · by_cases isNew : slab = pool.slabs.length
        · subst isNew
          simp
        · have beyond : slab - pool.slabs.length ≠ 0 := by omega
          obtain ⟨past, pastEquality⟩ := Nat.exists_eq_succ_of_ne_zero beyond
          simp [inOld, isNew, pastEquality]
    · intro address
      rw [holds.live_iff]
      by_cases inSlab : address ∈ slabBlocks pool.slabs.length 0 pool.totalElements
      · have notLive : ¬ ∃ order, heap address = .order order := by
          rw [← holds.live_iff]
          intro inLive
          exact (liveSlots address inLive).ne (mem_slabBlocks.mp inSlab).1
        simp [withSlab, inSlab, notLive]
      · simp [withSlab, inSlab]
    · have slabLength :
          (slabBlocks pool.slabs.length 0 pool.totalElements).length =
            pool.totalElements := by
        simp [slabBlocks]
      simp only [List.length_append, slabLength, List.nil_append] at total ⊢
      omega
    · simp only [List.sum_append, List.sum_singleton, holds.slabs]
      omega
    · exact holds.currentlyAllocated
    · change 0 < pool.totalElements * 2
      omega
    · change pool.totalElements * 2 * sizeofMemoryBlock < _
      unfold maxAllocation at fits
      rw [Nat.mul_right_comm]
      omega
  · intro empty
    have := congrArg List.length empty
    simp only [slabBlocks, List.length_map, List.length_range', List.length_nil] at this
    omega

/-- The number of blocks never wraps. -/
theorem live_length_lt
    (holds : PoolHolds pool heap free live) :
    live.length < 18446744073709551616 := by
  have total := holds.totalElements
  have fits := holds.fits
  rw [List.length_append] at total
  unfold sizeofMemoryBlock at fits
  omega

/-- Taking the first free block. -/
theorem take
    {address : BlockAddress}
    (holds : PoolHolds pool heap (address :: free) live)
    (order : RestingOrder) :
    ∃ next,
      pool.firstFree = some address ∧ heap.freeNext address = .ok next ∧
      PoolHolds
        { pool with
          firstFree := next
          currentlyAllocated := toUInt64 (pool.currentlyAllocated + 1) }
        (heap.write address (.order order)) free (address :: live) := by
  obtain ⟨first, next, linked, tail⟩ := holds.chain
  have nodup := holds.nodup
  rw [List.cons_append, List.nodup_cons, List.mem_append, not_or] at nodup
  have moved : (free ++ address :: live).Perm (address :: free ++ live) :=
    List.perm_middle
  have count : toUInt64 ((pool.currentlyAllocated : Int) + 1) =
      pool.currentlyAllocated + 1 := by
    have below := (holds.perm (List.Perm.refl live)).live_length_lt
    have total := holds.totalElements
    have fits := holds.fits
    have current := holds.currentlyAllocated
    rw [List.length_append, List.length_cons] at total
    unfold sizeofMemoryBlock at fits
    unfold toUInt64
    omega
  refine ⟨next, first, Heap.freeNext_eq_ok (freeLink_eq_some.mp linked), ?_⟩
  constructor
  · refine tail.congr fun other member => ?_
    have different : other ≠ address := fun equal => nodup.1.1 (equal ▸ member)
    simp only [freeLink, Heap.write_of_ne different]
  · exact moved.nodup_iff.mpr holds.nodup
  · intro other
    rw [moved.mem_iff]
    exact holds.owned other
  · intro other
    by_cases same : other = address
    · subst same
      simp
    · rw [List.mem_cons, or_iff_right same, Heap.write_of_ne same]
      exact holds.live_iff other
  · exact holds.totalElements.trans moved.length_eq.symm
  · exact holds.slabs
  · rw [List.length_cons, ← holds.currentlyAllocated]
    exact count
  · exact holds.nonempty
  · exact holds.fits

/-- Allocation makes one more block live, or is refused when no block is free
and the next slab does not fit into the address space. -/
theorem allocate
    (holds : PoolHolds pool heap free live)
    (id : OrderID) (quantity : Quantity) (lifetime : RestingLifetime) (side : Side) :
    (free = [] ∧
      pool.allocate id quantity lifetime side heap = .error .badAlloc) ∨
    ∃ address pool' heap' free',
      pool.allocate id quantity lifetime side heap = .ok (address, pool', heap') ∧
      PoolHolds pool' heap' free' (address :: live) ∧
      heap' address = .order { id, quantity, lifetime, side } ∧
      ∀ other ∈ live, heap' other = heap other := by
  have allocateFree : ∀ {pool : MemoryPool} {heap : Heap} {address : BlockAddress}
      {free : List BlockAddress}, PoolHolds pool heap (address :: free) live →
      ∃ next, pool.allocate id quantity lifetime side heap =
        .ok (address,
          { pool with
            firstFree := next
            currentlyAllocated := toUInt64 (pool.currentlyAllocated + 1) },
          heap.write address (.order { id, quantity, lifetime, side })) ∧
        PoolHolds
          { pool with
            firstFree := next
            currentlyAllocated := toUInt64 (pool.currentlyAllocated + 1) }
          (heap.write address (.order { id, quantity, lifetime, side })) free
          (address :: live) := by
    intro pool heap address free holds
    obtain ⟨next, first, linked, taken⟩ := holds.take { id, quantity, lifetime, side }
    refine ⟨next, ?_, taken⟩
    simp only [MemoryPool.allocate, first, Option.isNone_some, Bool.false_eq_true, if_false,
      ok_bind, deref_some, linked]
  have notLive : ∀ {heap : Heap} {pool : MemoryPool} {address : BlockAddress}
      {free : List BlockAddress} {order : RestingOrder},
      PoolHolds pool heap (address :: free) live →
      ∀ other ∈ live, heap.write address (.order order) other = heap other := by
    intro heap pool address free order holds other member
    refine Heap.write_of_ne (fun equal => ?_) _ _
    exact (List.nodup_append.mp holds.nodup).2.2 address List.mem_cons_self other member
      equal.symm
  cases free with
  | cons address free =>
      obtain ⟨next, allocated, taken⟩ := allocateFree holds
      exact Or.inr ⟨_, _, _, _, allocated, taken, Heap.write_self .., notLive holds⟩
  | nil =>
      have noFree : pool.firstFree = none := holds.chain
      by_cases fits : pool.totalElements * sizeofMemoryBlock ≤ maxAllocation
      · obtain ⟨pool', heap', free, grown, holds', present, frame⟩ := holds.grow fits
        cases free with
        | nil => exact absurd rfl present
        | cons address free =>
            obtain ⟨next, allocated, taken⟩ := allocateFree holds'
            have someFree : pool'.firstFree = some address := holds'.chain.1
            refine Or.inr ⟨_, _, _, _, ?_, taken, Heap.write_self ..,
              fun other member => (notLive holds' other member).trans (frame other member)⟩
            rw [← allocated]
            simp only [MemoryPool.allocate, noFree, someFree, Option.isNone_none,
              Option.isNone_some, if_true, Bool.false_eq_true, if_false, grown, ok_bind]
      · refine Or.inl ⟨rfl, ?_⟩
        simp only [MemoryPool.allocate, noFree, Option.isNone_none, if_true,
          MemoryPool.grow, allocateSlab_eq_badAlloc (not_le.mp fits) holds.fits,
          error_bind]

/-- Deallocation makes a live block free. -/
theorem deallocate
    {address : BlockAddress}
    (holds : PoolHolds pool heap free (address :: live)) :
    ∃ pool',
      pool.deallocate (some address) heap =
        .ok (pool', heap.write address (.free pool.firstFree)) ∧
      PoolHolds pool' (heap.write address (.free pool.firstFree)) (address :: free)
        live := by
  obtain ⟨order, stored⟩ := (holds.live_iff address).mp List.mem_cons_self
  have moved : (address :: free ++ live).Perm (free ++ address :: live) :=
    List.perm_middle.symm
  have nodup := moved.nodup_iff.mpr holds.nodup
  rw [List.cons_append, List.nodup_cons, List.mem_append, not_or] at nodup
  have count : toUInt64 ((pool.currentlyAllocated : Int) - 1) = live.length := by
    have below := holds.live_length_lt
    have current := holds.currentlyAllocated
    rw [List.length_cons] at below current
    unfold toUInt64
    omega
  refine ⟨{ pool with
      firstFree := some address
      currentlyAllocated := toUInt64 (pool.currentlyAllocated - 1 : Int) }, ?_, ?_⟩
  · simp only [MemoryPool.deallocate, Heap.order_eq_ok stored, ok_bind]
  constructor
  · refine ⟨rfl, pool.firstFree, freeLink_eq_some.mpr (Heap.write_self ..),
      holds.chain.congr fun other member => ?_⟩
    have different : other ≠ address := fun equal => nodup.1.1 (equal ▸ member)
    simp only [freeLink, Heap.write_of_ne different]
  · exact moved.nodup_iff.mpr holds.nodup
  · intro other
    rw [moved.mem_iff]
    exact holds.owned other
  · intro other
    by_cases same : other = address
    · subst same
      simpa using nodup.1.2
    · rw [Heap.write_of_ne same, ← holds.live_iff, List.mem_cons, or_iff_right same]
  · exact holds.totalElements.trans moved.length_eq.symm
  · exact holds.slabs
  · exact count
  · exact holds.nonempty
  · exact holds.fits

end PoolHolds

end Refinement
end MatchingEngine
