import MatchingEngine.Model.Basic
import Mathlib.Logic.Function.Basic

/-!
# Memory: resting orders, pool blocks and pointers

A pointer to a resting order is the address of its pool block: the slab and the
index within the slab.  A block holds a resting order, a link of the free list,
or nothing yet.  Every access checks what the source takes for granted, and an
access through a null or dangling pointer, an index outside an array or a
failed assertion is reported as a fault.
-/

namespace MatchingEngine

/-- Reasons for which an execution of the source has no defined continuation,
or stops in an exception or a failed assertion. -/
inductive Fault
  | nullDereference
  | danglingPointer
  | outOfBounds
  | assertionFailed
  | signedOverflow
  | lengthError
  | badAlloc
  | nonTermination
  deriving DecidableEq

/-- Address of a block: a slab of the pool and an index in it. -/
structure BlockAddress where
  slab : Nat
  index : Nat
  deriving DecidableEq

/-- Address of a price level: the ladder that owns it and its index there. -/
structure LevelAddress where
  side : Side
  index : Nat
  deriving DecidableEq

/-- An order on a price level. -/
structure RestingOrder where
  next : Option BlockAddress := none
  prev : Option BlockAddress := none
  level : Option LevelAddress := none
  id : OrderID
  quantity : Quantity
  lifetime : RestingLifetime
  side : Side
  deriving DecidableEq

/-- The union of the source, with the member that is alive. -/
inductive MemoryBlock
  | raw
  | order (order : RestingOrder)
  | free (next : Option BlockAddress)
  deriving DecidableEq

/-- Contents of all blocks. -/
abbrev Heap := BlockAddress → MemoryBlock

/-- Follow a pointer that must not be null. -/
def deref (pointer : Option α) : Except Fault α :=
  match pointer with
  | some address => .ok address
  | none => .error .nullDereference

@[simp] theorem deref_some (address : α) : deref (some address) = .ok address := rfl

/-- Sequencing after a step that succeeded. -/
@[simp] theorem ok_bind {ε α β : Type} (value : α) (continuation : α → Except ε β) :
    (Except.ok value >>= continuation) = continuation value := rfl

@[simp] theorem error_bind {ε α β : Type} (error : ε) (continuation : α → Except ε β) :
    ((Except.error error : Except ε α) >>= continuation) = .error error := rfl

theorem eq_ok_of_isSome
    {ε α : Type} {result : Except ε α}
    (returns : result.toOption.isSome = true) :
    result = .ok (result.toOption.get returns) := by
  cases result with
  | error => cases returns
  | ok => rfl

/-- A sequence that succeeded has a first step that succeeded. -/
theorem bind_eq_error
    {ε α β : Type} {first : Except ε α} {continuation : α → Except ε β} {error : ε}
    (failed : (first >>= continuation) = .error error) :
    first = .error error ∨ ∃ value, first = .ok value ∧ continuation value = .error error := by
  cases first with
  | error other => exact Or.inl (congrArg Except.error (Except.error.inj failed))
  | ok value => exact Or.inr ⟨value, rfl, failed⟩

theorem bind_eq_ok
    {ε α β : Type} {first : Except ε α} {continuation : α → Except ε β} {result : β}
    (succeeded : (first >>= continuation) = .ok result) :
    ∃ value, first = .ok value ∧ continuation value = .ok result := by
  cases first with
  | error error => cases succeeded
  | ok value => exact ⟨value, rfl, succeeded⟩

namespace Heap

/-- Store a block. -/
def write (heap : Heap) (address : BlockAddress) (block : MemoryBlock) : Heap :=
  Function.update heap address block

@[simp] theorem write_self (heap : Heap) (address : BlockAddress) (block : MemoryBlock) :
    heap.write address block address = block :=
  Function.update_self ..

@[simp] theorem write_of_ne
    {address other : BlockAddress}
    (different : other ≠ address)
    (heap : Heap) (block : MemoryBlock) :
    heap.write address block other = heap other :=
  Function.update_of_ne different ..

theorem write_apply (heap : Heap) (address other : BlockAddress) (block : MemoryBlock) :
    heap.write address block other = if other = address then block else heap other :=
  Function.update_apply ..

/-- The resting order a pointer points at. -/
def order (heap : Heap) (address : BlockAddress) : Except Fault RestingOrder :=
  match heap address with
  | .order order => .ok order
  | _ => .error .danglingPointer

/-- Assign to members of the resting order a pointer points at. -/
def modifyOrder
    (heap : Heap)
    (address : BlockAddress)
    (change : RestingOrder → RestingOrder) : Except Fault Heap := do
  let order ← heap.order address
  .ok (heap.write address (.order (change order)))

/-- The free-list link stored in a block. -/
def freeNext (heap : Heap) (address : BlockAddress) :
    Except Fault (Option BlockAddress) :=
  match heap address with
  | .free next => .ok next
  | _ => .error .danglingPointer

theorem order_eq_ok
    {heap : Heap} {address : BlockAddress} {order : RestingOrder}
    (stored : heap address = .order order) :
    heap.order address = .ok order := by
  simp [Heap.order, stored]

theorem modifyOrder_eq_ok
    {heap : Heap} {address : BlockAddress} {order : RestingOrder}
    (stored : heap address = .order order)
    (change : RestingOrder → RestingOrder) :
    heap.modifyOrder address change =
      .ok (heap.write address (.order (change order))) := by
  simp [modifyOrder, order_eq_ok stored]

theorem freeNext_eq_ok
    {heap : Heap} {address : BlockAddress} {next : Option BlockAddress}
    (stored : heap address = .free next) :
    heap.freeNext address = .ok next := by
  simp [freeNext, stored]

end Heap

end MatchingEngine
