import MatchingEngine.Mirror.Basic

/-!
# Levels and blocks in the mirror

The pool does not look at the orders in its blocks, and a level does not look at
its price or at the places of its orders, other than to compare them.
-/

namespace MatchingEngine
namespace PriceRange

open Transports

variable (range : PriceRange) (heap : Heap) (address : BlockAddress)

/-! ## Blocks -/

theorem order_mirrorHeap :
    (range.mirrorHeap heap).order address = (heap.order address).map range.mirrorOrder := by
  unfold Heap.order mirrorHeap
  cases heap address <;> rfl

theorem freeNext_mirrorHeap :
    (range.mirrorHeap heap).freeNext address = heap.freeNext address := by
  unfold Heap.freeNext mirrorHeap
  cases heap address <;> rfl

theorem write_mirrorHeap (block : MemoryBlock) :
    (range.mirrorHeap heap).write address (range.mirrorBlock block) =
      range.mirrorHeap (heap.write address block) := by
  funext other
  unfold mirrorHeap
  rw [Heap.write_apply, Heap.write_apply]
  split <;> rfl

/-- A change of an order that commutes with the mirror. -/
theorem modifyOrder_mirrorHeap
    {change change' : RestingOrder → RestingOrder}
    (commutes : ∀ order, change' (range.mirrorOrder order) = range.mirrorOrder (change order)) :
    (range.mirrorHeap heap).modifyOrder address change' =
      (heap.modifyOrder address change).map range.mirrorHeap := by
  refine sequence (range.order_mirrorHeap heap address) fun order => ?_
  rw [commutes, map_ok, ← write_mirrorHeap]
  rfl

theorem level_eq_mirrorPlace (order : RestingOrder) (place : LevelAddress) :
    (range.mirrorOrder order).level = some (range.mirrorPlace place) ↔
      order.level = some place := by
  simp only [mirrorOrder, Option.map_eq_some_iff, mirrorPlace_inj, exists_eq_right]

/-! ## The pool -/

theorem linkBlocks_mirrorHeap (extent slab remaining index : Nat) :
    MemoryPool.linkBlocks extent slab remaining index (range.mirrorHeap heap) =
      (MemoryPool.linkBlocks extent slab remaining index heap).map range.mirrorHeap := by
  induction remaining generalizing index heap with
  | zero => rfl
  | succ remaining inductionHypothesis =>
      unfold MemoryPool.linkBlocks
      rw [ite_map, ← inductionHypothesis, ← write_mirrorHeap]
      rfl

theorem allocateSlab_mirrorHeap (slab slabSize : Nat) :
    MemoryPool.allocateSlab slab slabSize (range.mirrorHeap heap) =
      (MemoryPool.allocateSlab slab slabSize heap).map range.mirrorHeap := by
  unfold MemoryPool.allocateSlab
  simp only [ite_map]
  refine if_congr Iff.rfl rfl (sequence (range.linkBlocks_mirrorHeap ..) fun heap => ?_)
  rw [ite_map, map_ok, ← write_mirrorHeap]
  rfl

theorem grow_mirrorHeap (pool : MemoryPool) :
    pool.grow (range.mirrorHeap heap) =
      (pool.grow heap).map (Prod.map id range.mirrorHeap) :=
  sequence (range.allocateSlab_mirrorHeap ..) fun _ => rfl

theorem allocate_mirrorHeap
    (pool : MemoryPool) (id : OrderID) (quantity : Quantity) (lifetime : RestingLifetime)
    (side : Side) :
    pool.allocate id quantity lifetime side.opposite (range.mirrorHeap heap) =
      (pool.allocate id quantity lifetime side heap).map fun allocated =>
        (allocated.1, allocated.2.1, range.mirrorHeap allocated.2.2) := by
  unfold MemoryPool.allocate
  refine branch_sequence Iff.rfl (range.grow_mirrorHeap heap pool) rfl ?_
  rintro ⟨pool, heap⟩
  rw [then_map]
  refine bind_congr fun ret => ?_
  rw [range.freeNext_mirrorHeap, then_map]
  refine bind_congr fun next => ?_
  rw [map_ok, ← write_mirrorHeap]
  rfl

theorem deallocate_mirrorHeap (pool : MemoryPool) (orderToFree : Option BlockAddress) :
    pool.deallocate orderToFree (range.mirrorHeap heap) =
      (pool.deallocate orderToFree heap).map (Prod.map id range.mirrorHeap) := by
  cases orderToFree with
  | none => rfl
  | some address =>
      refine sequence (range.order_mirrorHeap heap address) fun order => ?_
      rw [map_ok, Prod.map_apply, ← write_mirrorHeap]
      rfl

/-! ## Levels -/

variable (level : PriceLevel)

theorem setNext_mirrorLevel (pointer value : Option BlockAddress) :
    (range.mirrorLevel level).setNext pointer value (range.mirrorHeap heap) =
      (level.setNext pointer value heap).map (Prod.map range.mirrorLevel range.mirrorHeap) := by
  cases pointer with
  | none => rfl
  | some address =>
      exact sequence (range.modifyOrder_mirrorHeap heap address fun _ => rfl) fun _ => rfl

theorem setPrev_mirrorLevel (pointer value : Option BlockAddress) :
    (range.mirrorLevel level).setPrev pointer value (range.mirrorHeap heap) =
      (level.setPrev pointer value heap).map (Prod.map range.mirrorLevel range.mirrorHeap) := by
  cases pointer with
  | none => rfl
  | some address =>
      exact sequence (range.modifyOrder_mirrorHeap heap address fun _ => rfl) fun _ => rfl

theorem pushBack_mirrorLevel (place : LevelAddress) (newOrder : BlockAddress) :
    (range.mirrorLevel level).pushBack (range.mirrorPlace place) newOrder
        (range.mirrorHeap heap) =
      (level.pushBack place newOrder heap).map
        (Prod.map range.mirrorLevel range.mirrorHeap) := by
  unfold PriceLevel.pushBack
  refine branch_sequence Iff.rfl
    (range.modifyOrder_mirrorHeap heap newOrder fun _ => rfl) rfl fun heap => ?_
  refine sequence (range.setNext_mirrorLevel heap level level.tail (some newOrder)) ?_
  rintro ⟨level, heap⟩
  refine sequence (range.modifyOrder_mirrorHeap heap newOrder fun _ => rfl) fun heap => ?_
  exact sequence (range.order_mirrorHeap heap newOrder) fun order => rfl

theorem forget_mirrorLevel :
    (range.mirrorLevel level).forget address (range.mirrorHeap heap) =
      (level.forget address heap).map (Prod.map range.mirrorLevel range.mirrorHeap) :=
  sequence (range.modifyOrder_mirrorHeap heap address fun _ => rfl) fun heap =>
    sequence (range.order_mirrorHeap heap address) fun _ => rfl

theorem popFront_mirrorLevel :
    (range.mirrorLevel level).popFront (range.mirrorHeap heap) =
      (level.popFront heap).map
        (Prod.map id (Prod.map range.mirrorLevel range.mirrorHeap)) := by
  unfold PriceLevel.popFront
  rw [show (range.mirrorLevel level).head = level.head from rfl]
  cases level.head with
  | none => rfl
  | some retOrder =>
      refine sequence (range.order_mirrorHeap heap retOrder) fun order => ?_
      refine sequence
        (range.setPrev_mirrorLevel heap { level with head := order.next } order.next none) ?_
      rintro ⟨level, heap⟩
      exact sequence (range.forget_mirrorLevel heap retOrder level) fun _ => rfl

theorem removeOrder_mirrorLevel (place : LevelAddress) :
    (range.mirrorLevel level).removeOrder (range.mirrorPlace place) address
        (range.mirrorHeap heap) =
      (level.removeOrder place address heap).map
        (Prod.map id (Prod.map range.mirrorLevel range.mirrorHeap)) := by
  unfold PriceLevel.removeOrder
  rw [ite_map]
  refine if_congr Iff.rfl rfl (sequence (range.order_mirrorHeap heap address) fun order => ?_)
  rw [ite_map]
  refine if_congr (not_congr (range.level_eq_mirrorPlace order place)) rfl ?_
  refine sequence (range.setNext_mirrorLevel heap level order.prev order.next) ?_
  rintro ⟨level, heap⟩
  refine sequence (range.setPrev_mirrorLevel heap level order.next order.prev) ?_
  rintro ⟨level, heap⟩
  exact sequence (range.forget_mirrorLevel heap address level) fun _ => rfl

theorem takeSharesFromFirst_mirrorLevel (sharesTaken : Quantity) :
    (range.mirrorLevel level).takeSharesFromFirst sharesTaken (range.mirrorHeap heap) =
      (level.takeSharesFromFirst sharesTaken heap).map
        (Prod.map range.mirrorLevel range.mirrorHeap) := by
  unfold PriceLevel.takeSharesFromFirst
  rw [then_map]
  refine bind_congr fun head => ?_
  refine sequence (range.order_mirrorHeap heap head) fun order => ?_
  exact sequence (range.modifyOrder_mirrorHeap heap head fun _ => rfl) fun _ => rfl

theorem reduceOrderQuantity_mirrorLevel (place : LevelAddress) (quantityReduced : Quantity) :
    (range.mirrorLevel level).reduceOrderQuantity (range.mirrorPlace place) address
        quantityReduced (range.mirrorHeap heap) =
      (level.reduceOrderQuantity place address quantityReduced heap).map
        (Prod.map range.mirrorLevel range.mirrorHeap) := by
  unfold PriceLevel.reduceOrderQuantity
  refine sequence (range.order_mirrorHeap heap address) fun order => ?_
  rw [ite_map, ite_map]
  refine if_congr (not_congr (range.level_eq_mirrorPlace order place)) rfl
    (if_congr Iff.rfl rfl ?_)
  exact sequence (range.modifyOrder_mirrorHeap heap address fun _ => rfl) fun _ => rfl

end PriceRange
end MatchingEngine
