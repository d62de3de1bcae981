import MatchingEngine.Model.Memory

/-!
# The memory pool

Blocks come in slabs that are never given back.  Free blocks form a list
threaded through the blocks themselves; when it is empty, a slab as large as
all earlier slabs together is added.  The storage that `operator new` returns
for a slab is fresh, so slabs are numbered in the order of their allocation.
-/

namespace MatchingEngine

/-- Size of a block in bytes. -/
def sizeofMemoryBlock : Nat := 40

/-- The most bytes that `operator new` returns; it throws for more. -/
def maxAllocation : Nat := 9223372036854775807

/-- The pool without its blocks, which are on the heap. -/
structure MemoryPool where
  totalElements : Nat
  currentlyAllocated : Nat
  firstFree : Option BlockAddress
  /-- Number of blocks of each slab, in the order of allocation. -/
  slabs : List Nat
  deriving DecidableEq

namespace MemoryPool

/-- The address is one of a block of a slab. -/
def Owns (pool : MemoryPool) (address : BlockAddress) : Prop :=
  ∃ size, pool.slabs[address.slab]? = some size ∧ address.index < size

/-- The loop of `allocate_slab`, with `remaining` iterations to go: link block
`i` to its successor.  `extent` is the number of blocks in the storage. -/
def linkBlocks (extent slab : Nat) : Nat → Nat → Heap → Except Fault Heap
  | 0, _, heap => .ok heap
  | remaining + 1, i, heap =>
      if i < extent then
        linkBlocks extent slab remaining (i + 1)
          (heap.write ⟨slab, i⟩ (.free (some ⟨slab, i + 1⟩)))
      else .error .outOfBounds

/-- Obtain storage for a slab and thread a free list through it.  The byte count
passed to `operator new` and the index of the last block are computed in
`std::size_t`. -/
def allocateSlab (slab slabSize : Nat) (heap : Heap) : Except Fault Heap :=
  let bytes := toUInt64 (slabSize * sizeofMemoryBlock)
  let extent := bytes / sizeofMemoryBlock
  let indexOfLastBlock := toUInt64 (slabSize - 1 : Int)
  if maxAllocation < bytes then .error .badAlloc
  else do
    let heap ← linkBlocks extent slab indexOfLastBlock 0 heap
    if indexOfLastBlock < extent then
      .ok (heap.write ⟨slab, indexOfLastBlock⟩ (.free none))
    else .error .outOfBounds

/-- The constructor. -/
def create (size : Nat) (heap : Heap) : Except Fault (MemoryPool × Heap) := do
  let heap ← allocateSlab 0 size heap
  .ok (⟨size, 0, some ⟨0, 0⟩, [size]⟩, heap)

/-- The branch of `allocate` for an empty free list: add a slab. -/
def grow (pool : MemoryPool) (heap : Heap) : Except Fault (MemoryPool × Heap) := do
  let newSlab := pool.slabs.length
  let heap ← allocateSlab newSlab pool.totalElements heap
  .ok ({ pool with
    slabs := pool.slabs ++ [pool.totalElements]
    firstFree := some ⟨newSlab, 0⟩
    totalElements := toUInt64 (pool.totalElements * 2) }, heap)

/-- Take the first free block and construct an order in it. -/
def allocate
    (pool : MemoryPool)
    (id : OrderID) (quantity : Quantity) (lifetime : RestingLifetime) (side : Side)
    (heap : Heap) : Except Fault (BlockAddress × MemoryPool × Heap) := do
  let (pool, heap) ← if pool.firstFree.isNone then pool.grow heap else .ok (pool, heap)
  let ret ← deref pool.firstFree
  let next ← heap.freeNext ret
  .ok (ret,
    { pool with
      firstFree := next
      currentlyAllocated := toUInt64 (pool.currentlyAllocated + 1) },
    heap.write ret (.order { id, quantity, lifetime, side }))

/-- Destroy an order and put its block in front of the free list. -/
def deallocate
    (pool : MemoryPool)
    (orderToFree : Option BlockAddress)
    (heap : Heap) : Except Fault (MemoryPool × Heap) :=
  match orderToFree with
  | none => .error .assertionFailed
  | some address => do
      let _ ← heap.order address
      .ok ({ pool with
          firstFree := some address
          currentlyAllocated := toUInt64 (pool.currentlyAllocated - 1 : Int) },
        heap.write address (.free pool.firstFree))

end MemoryPool

end MatchingEngine
