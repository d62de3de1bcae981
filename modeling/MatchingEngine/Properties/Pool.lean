import MatchingEngine.Library.Run
import MatchingEngine.Refinement.Capacity
import Mathlib.Order.Bounds.Basic

/-!
# Runs of the memory pool

A client allocates blocks, stores orders in the blocks that it holds and gives
them back, in any order.  Throughout, the free list and the blocks that the
client holds make up the slabs, and the pool has grown just as far as the
largest number of blocks held at a time demanded.
-/

namespace MatchingEngine
namespace Properties

open Refinement

/-! ## Clients of a pool -/

/-- A call of a client of the pool, or an assignment to an order in one of its
blocks. -/
inductive PoolCall
  | allocate (id : OrderID) (quantity : Quantity) (lifetime : RestingLifetime) (side : Side)
  | deallocate (address : BlockAddress)
  | store (address : BlockAddress) (order : RestingOrder)

/-- A pool, the memory, and the blocks that were allocated and not yet given back. -/
structure PoolUse where
  pool : MemoryPool
  heap : Heap
  live : List BlockAddress

namespace PoolUse

/-- A pool that was just constructed. -/
def Starts (size : Nat) (use : PoolUse) : Prop :=
  InUInt64 size ∧ MemoryPool.create size (fun _ => .raw) = .ok (use.pool, use.heap) ∧
    use.live = []

/-- The effect of a call.  It returns the block that was allocated, if any. -/
def perform (use : PoolUse) : PoolCall → Except Fault (Option BlockAddress × PoolUse)
  | .allocate id quantity lifetime side => do
      let (address, pool, heap) ← use.pool.allocate id quantity lifetime side use.heap
      .ok (some address, ⟨pool, heap, address :: use.live⟩)
  | .deallocate address => do
      let (pool, heap) ← use.pool.deallocate (some address) use.heap
      .ok (none, ⟨pool, heap, use.live.erase address⟩)
  | .store address order =>
      .ok (none, { use with heap := use.heap.write address (.order order) })

/-- A client gives back and writes only blocks that it holds. -/
def Allows (use : PoolUse) : PoolCall → Prop
  | .allocate .. => True
  | .deallocate address | .store address _ => address ∈ use.live

end PoolUse

/-- One call that returns. -/
def PoolSteps
    (use : PoolUse) (call : PoolCall) (output : Option BlockAddress) (next : PoolUse) :
    Prop :=
  use.Allows call ∧ use.perform call = .ok (output, next)

/-- Runs of the clients of a pool of an initial size. -/
abbrev PoolRun (size : Nat) :
    List (Event PoolUse PoolCall (Option BlockAddress)) → PoolUse → Prop :=
  Run (PoolUse.Starts size) PoolSteps

/-- The largest number of blocks held at a time. -/
def peakLive (events : List (Event PoolUse PoolCall (Option BlockAddress))) : Nat :=
  (events.map fun event => event.after.live.length).foldl max 0

@[simp] theorem peakLive_nil : peakLive [] = 0 := rfl

theorem peakLive_append_singleton
    (events : List (Event PoolUse PoolCall (Option BlockAddress)))
    (event : Event PoolUse PoolCall (Option BlockAddress)) :
    peakLive (events ++ [event]) = max (peakLive events) event.after.live.length := by
  simp [peakLive]

/-! ## What holds throughout -/

/-- The pool consists of its free list and of the blocks held by the client. -/
def Partitioned (use : PoolUse) : Prop :=
  ∃ free, PoolHolds use.pool use.heap free use.live

theorem Partitioned.of_starts
    {size : Nat} {use : PoolUse}
    (starts : use.Starts size) :
    Partitioned use ∧ capacityOf use.pool = ⟨size, [size]⟩ := by
  obtain ⟨range, created, noLive⟩ := starts
  unfold InUInt64 at range
  obtain ⟨free, holds⟩ := PoolHolds.create (by omega) created
  obtain ⟨heap, _, created⟩ := bind_eq_ok created
  refine ⟨⟨free, noLive ▸ holds⟩, ?_⟩
  rw [← (Prod.mk.inj (Except.ok.inj created)).1]
  rfl

/-- What a call does to the blocks and to the capacity of a pool. -/
structure Served
    (use : PoolUse) (call : PoolCall) (output : Option BlockAddress) (next : PoolUse) :
    Prop where
  partitioned : Partitioned next
  oneMore : next.live.length ≤ use.live.length + 1
  capacity : capacityOf next.pool = (capacityOf use.pool).demand next.live.length
  /-- A block that is handed out is not in use. -/
  fresh : ∀ address, output = some address →
    address ∉ use.live ∧ next.live = address :: use.live
  /-- Blocks that stay in use keep their contents, unless the client stores in them. -/
  kept : ∀ address ∈ use.live, address ∈ next.live →
    (∀ order, call ≠ .store address order) → next.heap address = use.heap address

/-- What a call that may be made does. -/
theorem Partitioned.serves
    {use next : PoolUse} {call : PoolCall} {output : Option BlockAddress}
    (partitioned : Partitioned use)
    (taken : PoolSteps use call output next) :
    Served use call output next := by
  obtain ⟨free, holds⟩ := partitioned
  obtain ⟨allows, performed⟩ := taken
  cases call with
  | allocate id quantity lifetime side =>
      obtain ⟨⟨address, pool, heap⟩, allocated, performed⟩ := bind_eq_ok performed
      obtain ⟨rfl, rfl⟩ := Prod.mk.inj (Except.ok.inj performed)
      rcases holds.allocate id quantity lifetime side with
        ⟨_, refused⟩ | ⟨address', pool', heap', free', allocated', holds', _, kept⟩
      · rw [refused] at allocated
        cases allocated
      · obtain ⟨rfl, poolAndHeap⟩ :=
          Prod.mk.inj (Except.ok.inj (allocated'.symm.trans allocated))
        obtain ⟨rfl, rfl⟩ := Prod.mk.inj poolAndHeap
        refine ⟨⟨free', holds'⟩, le_rfl, (holds.capacity_allocate allocated).2, ?_, ?_⟩
        · rintro address handedOut
          obtain rfl := Option.some.inj handedOut
          exact ⟨(List.nodup_cons.mp (List.nodup_append.mp holds'.nodup).2.1).1, rfl⟩
        · exact fun other member _ _ => kept other member
  | deallocate address =>
      obtain ⟨⟨pool, heap⟩, returned, performed⟩ := bind_eq_ok performed
      obtain ⟨rfl, rfl⟩ := Prod.mk.inj (Except.ok.inj performed)
      obtain ⟨pool', returned', holds'⟩ :=
        (holds.perm (List.perm_cons_erase allows).symm).deallocate
      obtain ⟨rfl, rfl⟩ := Prod.mk.inj (Except.ok.inj (returned'.symm.trans returned))
      have noMore : (use.live.erase address).length ≤ use.live.length :=
        List.length_erase_le ..
      refine ⟨⟨_, holds'⟩, noMore.trans (Nat.le_succ _), ?_, by simp,
        fun other _ stays _ => ?_⟩
      · rw [capacity_deallocate returned, PoolCapacity.demand_of_le]
        exact noMore.trans holds.live_le_totalElements
      · refine Heap.write_of_ne ?_ _ _
        rintro rfl
        exact (List.nodup_append.mp holds.nodup).2.1.not_mem_erase stays
  | store address order =>
      obtain ⟨rfl, rfl⟩ := Prod.mk.inj (Except.ok.inj performed)
      refine ⟨⟨free, holds.congr (fun other member => ?_) fun other notLive => ?_⟩,
        Nat.le_succ _, (PoolCapacity.demand_of_le holds.live_le_totalElements).symm, by simp,
        fun other _ _ notStored => ?_⟩
      · by_cases same : other = address
        · subst same
          exact ⟨order, Heap.write_self ..⟩
        · obtain ⟨block, stored⟩ := (holds.live_iff other).mp member
          exact ⟨block, (Heap.write_of_ne same _ _).trans stored⟩
      · refine Heap.write_of_ne ?_ _ _
        rintro rfl
        exact notLive allows
      · refine Heap.write_of_ne ?_ _ _
        rintro rfl
        exact notStored order rfl

/-- The pool has grown just as far as the largest number of blocks held at a time
demanded. -/
structure Demanded (size peak : Nat) (capacity : PoolCapacity) : Prop where
  slabs : capacity.slabs ≠ []
  doubled : capacity.totalElements = size * 2 ^ (capacity.slabs.length - 1)
  enough : peak ≤ capacity.totalElements
  needed : capacity.slabs.length = 1 ∨ capacity.totalElements < peak * 2

theorem Demanded.demand
    {size peak live : Nat} {capacity : PoolCapacity}
    (demanded : Demanded size peak capacity)
    (nonempty : 0 < capacity.totalElements)
    (oneMore : live ≤ capacity.totalElements + 1) :
    Demanded size (max peak live) (capacity.demand live) := by
  obtain ⟨slabs, doubled, enough, needed⟩ := demanded
  unfold PoolCapacity.demand
  split
  next full =>
    refine ⟨by simp, ?_, ?_, Or.inr ?_⟩
    · have slabCount : 0 < capacity.slabs.length := List.length_pos_iff.mpr slabs
      calc
        capacity.totalElements * 2 = size * 2 ^ (capacity.slabs.length - 1 + 1) := by
          rw [doubled, pow_succ, mul_assoc]
        _ = size * 2 ^ ((capacity.slabs ++ [capacity.totalElements]).length - 1) := by
          rw [List.length_append, List.length_singleton, Nat.sub_add_cancel slabCount,
            Nat.add_sub_cancel]
    · change max peak live ≤ capacity.totalElements * 2
      omega
    · exact Nat.mul_lt_mul_of_pos_right (lt_max_of_lt_right full) (by decide)
  next roomy =>
    refine ⟨slabs, doubled, max_le enough (not_lt.mp roomy), needed.imp_right fun below => ?_⟩
    exact below.trans_le (Nat.mul_le_mul_right 2 (le_max_left ..))

/-- The number of blocks is the smallest doubling of the initial size that suffices. -/
theorem Demanded.isLeast
    {size peak : Nat} {capacity : PoolCapacity}
    (demanded : Demanded size peak capacity) :
    IsLeast {elements | (∃ doublings, elements = size * 2 ^ doublings) ∧ peak ≤ elements}
      capacity.totalElements := by
  refine ⟨⟨⟨_, demanded.doubled⟩, demanded.enough⟩, ?_⟩
  rintro _ ⟨⟨doublings, rfl⟩, covers⟩
  rw [demanded.doubled]
  refine Nat.mul_le_mul_left size (Nat.pow_le_pow_right (by decide) ?_)
  rcases demanded.needed with single | below
  · rw [single]
    exact Nat.zero_le _
  · have fewer : size * 2 ^ (capacity.slabs.length - 1) < size * 2 ^ (doublings + 1) := by
      rw [← demanded.doubled, pow_succ, ← mul_assoc]
      exact below.trans_le (Nat.mul_le_mul_right 2 covers)
    have exponents := Nat.lt_of_mul_lt_mul_left fewer
    exact Nat.lt_succ_iff.mp ((Nat.pow_lt_pow_iff_right (by decide)).mp exponents)

/-! ## Every run -/

variable {size : Nat} {use : PoolUse}
variable {events : List (Event PoolUse PoolCall (Option BlockAddress))}

/-- The invariant of a run. -/
theorem invariant_of_run (run : PoolRun size events use) :
    Partitioned use ∧ Demanded size (peakLive events) (capacityOf use.pool) := by
  induction run with
  | start starts =>
      obtain ⟨partitioned, capacity⟩ := Partitioned.of_starts starts
      refine ⟨partitioned, ?_⟩
      rw [capacity]
      exact ⟨by simp, by simp, Nat.zero_le _, Or.inl rfl⟩
  | @step events before run call output after taken inductionHypothesis =>
      obtain ⟨partitioned, demanded⟩ := inductionHypothesis
      have served := partitioned.serves taken
      refine ⟨served.partitioned, ?_⟩
      obtain ⟨free, holds⟩ := partitioned
      rw [peakLive_append_singleton, served.capacity]
      exact demanded.demand holds.nonempty
        (served.oneMore.trans (Nat.succ_le_succ holds.live_le_totalElements))

/-- What holds of an event of a run. -/
structure HandsOut (event : Event PoolUse PoolCall (Option BlockAddress)) : Prop where
  /-- A block that is handed out is not in use. -/
  fresh : ∀ address, event.output = some address → address ∉ event.before.live
  /-- Allocation does not change the contents of a block in use. -/
  kept : ∀ id quantity lifetime side, event.input = .allocate id quantity lifetime side →
    ∀ address ∈ event.before.live, event.after.heap address = event.before.heap address
  /-- A slab is added only when every block is in use. -/
  grows : event.after.pool.slabs ≠ event.before.pool.slabs →
    ∀ address, event.before.pool.Owns address → address ∈ event.before.live

/-- The calls that a client may make are served, unless `operator new` refuses the
next slab. -/
structure Available (use : PoolUse) : Prop where
  allocates : ∀ id quantity lifetime side,
    (∃ address pool heap,
      use.pool.allocate id quantity lifetime side use.heap = .ok (address, pool, heap)) ∨
    use.pool.allocate id quantity lifetime side use.heap = .error .badAlloc ∧
      (∀ address, use.pool.Owns address → address ∈ use.live) ∧
      maxAllocation < use.pool.totalElements * sizeofMemoryBlock
  deallocates : ∀ address ∈ use.live, ∃ pool heap,
    use.pool.deallocate (some address) use.heap = .ok (pool, heap)

/-- When all blocks are live, the client holds every block. -/
theorem live_of_owns
    {free : List BlockAddress}
    (holds : PoolHolds use.pool use.heap free use.live)
    (full : use.pool.totalElements < use.live.length + 1)
    {address : BlockAddress}
    (owned : use.pool.Owns address) :
    address ∈ use.live := by
  obtain rfl := holds.free_eq_nil_iff.mpr full
  exact (holds.owned address).mpr owned

theorem Partitioned.available (partitioned : Partitioned use) : Available use := by
  obtain ⟨free, holds⟩ := partitioned
  refine ⟨fun id quantity lifetime side => ?_, fun address member => ?_⟩
  · rcases holds.allocate id quantity lifetime side with
      ⟨_, refused⟩ | ⟨address, pool, heap, _, allocated, _⟩
    · obtain ⟨full, tooLarge⟩ := holds.exhausted_of_refused refused
      exact Or.inr ⟨refused, fun _ owned => live_of_owns holds full owned, tooLarge⟩
    · exact Or.inl ⟨address, pool, heap, allocated⟩
  · obtain ⟨pool, returned, _⟩ :=
      (holds.perm (List.perm_cons_erase member).symm).deallocate
    exact ⟨pool, _, returned⟩

theorem Partitioned.handsOut
    {event : Event PoolUse PoolCall (Option BlockAddress)}
    (partitioned : Partitioned event.before)
    (taken : PoolSteps event.before event.input event.output event.after) :
    HandsOut event := by
  have served := partitioned.serves taken
  obtain ⟨free, holds⟩ := partitioned
  refine ⟨fun address handedOut => (served.fresh address handedOut).1,
    fun id quantity lifetime side isAllocation address member => ?_, fun grown => ?_⟩
  · obtain ⟨_, performed⟩ := taken
    rw [isAllocation] at performed
    obtain ⟨⟨newAddress, pool, heap⟩, _, returned⟩ := bind_eq_ok performed
    have handedOut := (Prod.mk.inj (Except.ok.inj returned)).1.symm
    refine served.kept address member ?_ (by simp [isAllocation])
    rw [(served.fresh newAddress handedOut).2]
    exact List.mem_cons_of_mem _ member
  · refine fun address owned => live_of_owns holds ?_ owned
    by_contra enough
    have same := served.capacity
    rw [PoolCapacity.demand_of_le (served.oneMore.trans (not_lt.mp enough))] at same
    exact grown (congrArg PoolCapacity.slabs same)

/-- The free list and the blocks in use are exactly the blocks of all slabs, each of
them once; blocks are handed out only when free; and the number of blocks is the
smallest doubling of the initial size that covers the peak demand. -/
theorem pool_grows_on_demand (run : PoolRun size events use) :
    (∃ free, PoolHolds use.pool use.heap free use.live) ∧
    use.pool.totalElements = size * 2 ^ (use.pool.slabs.length - 1) ∧
    IsLeast {elements | (∃ doublings, elements = size * 2 ^ doublings) ∧
      peakLive events ≤ elements} use.pool.totalElements ∧
    (∀ event ∈ events, HandsOut event) ∧ Available use := by
  obtain ⟨partitioned, demanded⟩ := invariant_of_run run
  refine ⟨partitioned, demanded.doubled, demanded.isLeast, fun event member => ?_,
    partitioned.available⟩
  obtain ⟨earlier, later, rfl⟩ := List.append_of_mem member
  obtain ⟨runBefore, taken⟩ := run.of_split
  exact (invariant_of_run runBefore).1.handsOut taken

theorem extend_run
    (run : PoolRun size events use)
    (call : PoolCall) {output : Option BlockAddress} {next : PoolUse}
    (allows : use.Allows call)
    (performed : use.perform call = .ok (output, next)) :
    PoolRun size (events ++ [⟨use, call, output, next⟩]) next :=
  run.step ⟨allows, performed⟩

/-- A pool of one block: the second allocation adds a slab, and a block that was given
back is handed out again. -/
theorem pool_grows_on_demand_sample :
    ∃ events use, PoolRun 1 events use ∧ use.live = [⟨0, 0⟩, ⟨1, 0⟩] ∧
      use.pool.slabs = [1, 1] ∧ peakLive events = 2 ∧
      (∃ free, PoolHolds use.pool use.heap free use.live) ∧
      use.pool.totalElements = 1 * 2 ^ (use.pool.slabs.length - 1) := by
  have started : PoolRun 1 []
      ⟨⟨1, 0, some ⟨0, 0⟩, [1]⟩, withSlab 0 1 fun _ => .raw, []⟩ := by
    refine .start ⟨by decide, ?_, rfl⟩
    rw [MemoryPool.create, allocateSlab_eq_ok (by decide) (by decide)]
    rfl
  have first := extend_run started (.allocate 7 5 .gtc .buy) trivial rfl
  have second := extend_run first (.allocate 8 3 .day .sell) trivial rfl
  have third := extend_run second (.deallocate ⟨0, 0⟩)
    (List.mem_cons_of_mem _ List.mem_cons_self) rfl
  have run := extend_run third (.allocate 9 1 .day .buy) trivial rfl
  obtain ⟨partitioned, doubled, _⟩ := pool_grows_on_demand run
  exact ⟨_, _, run, rfl, rfl, rfl, partitioned, doubled⟩

end Properties
end MatchingEngine
