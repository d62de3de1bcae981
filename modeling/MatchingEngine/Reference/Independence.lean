import MatchingEngine.Library.Traces
import MatchingEngine.Reference.Legality

/-!
# Independent calls

A replay call or a cancellation looks at the orders that it names, and changes no
others.  Two such calls are independent when they name no order in common and
never queue orders at one price of one side.  They may then be made in either
order: the answers and the book are the same.  A call that matches may meet any
order, and is independent of none.
-/

namespace MatchingEngine

namespace Operation

/-- The call may look at the order with an id, or change it. -/
def Names : Operation → OrderID → Prop
  | cancelOrder cancelRequest, id => cancelRequest.id = id
  | replayAddVisibleOrder orderId _ _ _, id => orderId = id
  | replayDeleteVisibleOrder orderId, id => orderId = id
  | replayReduceVisibleOrder orderId _, id => orderId = id
  | replayReplaceVisibleOrder originalId newId _ _, id => originalId = id ∨ newId = id
  | submitLimitOrder _, _ | submitMarketOrder _, _ | modifyOrder _, _ | onSessionEnd, _ => True

/-- The call may queue an order at a price of a side.  The side of a replacement is that of
the order which it replaces. -/
def MayQueueAt : Operation → Side → Price → Prop
  | replayAddVisibleOrder _ price _ side, otherSide, otherPrice =>
      side = otherSide ∧ price = otherPrice
  | replayReplaceVisibleOrder _ _ newPrice _, _, otherPrice => newPrice = otherPrice
  | cancelOrder _, _, _ | replayDeleteVisibleOrder _, _, _ | replayReduceVisibleOrder _ _, _, _ =>
      False
  | submitLimitOrder _, _, _ | submitMarketOrder _, _, _ | modifyOrder _, _, _
  | onSessionEnd, _, _ => True

/-- Two calls name no order in common, and queue orders at no place in common. -/
structure Independent (first second : Operation) : Prop where
  names : ∀ id, ¬ (first.Names id ∧ second.Names id)
  places : ∀ side price, ¬ (first.MayQueueAt side price ∧ second.MayQueueAt side price)

variable {first second operation : Operation}

theorem Independent.symm (independent : first.Independent second) : second.Independent first :=
  ⟨fun id both => independent.names id both.symm,
    fun side price both => independent.places side price both.symm⟩

theorem exists_names (operation : Operation) : ∃ id, operation.Names id := by
  cases operation with
  | cancelOrder cancelRequest => exact ⟨cancelRequest.id, rfl⟩
  | replayAddVisibleOrder orderId | replayDeleteVisibleOrder orderId
  | replayReduceVisibleOrder orderId => exact ⟨orderId, rfl⟩
  | replayReplaceVisibleOrder originalId => exact ⟨originalId, Or.inl rfl⟩
  | _ => exact ⟨0, trivial⟩

/-- The call does not look at every order. -/
def Local (operation : Operation) : Prop :=
  ∃ id, ¬ operation.Names id

theorem Independent.isLocal (independent : first.Independent second) : first.Local := by
  obtain ⟨id, named⟩ := second.exists_names
  exact ⟨id, fun both => independent.names id ⟨both, named⟩⟩

end Operation

namespace Reference

/-- The change is about orders that the operation names, and queues orders only where the
operation may. -/
def Change.Within (operation : Operation) : Change → Prop
  | .take .. | .prune => ¬ operation.Local
  | .rest side order => operation.Names order.id ∧ operation.MayQueueAt side order.price
  | .remove id | .reduce id _ => operation.Names id

namespace Book

variable {book other : Book} {operation first second : Operation}

/-! ## What a call changes -/

theorem within_changes (book : Book) (operation : Operation) :
    ∀ change ∈ book.changes operation, change.Within operation := by
  have anyChange : (∀ id, operation.Names id) →
      (∀ side price, operation.MayQueueAt side price) →
      ∀ change : Change, change.Within operation := by
    intro namesAll queuesAnywhere change
    have notLocal : ¬ operation.Local := fun ⟨id, unnamed⟩ => unnamed (namesAll id)
    cases change with
    | take | prune => exact notLocal
    | rest side order => exact ⟨namesAll _, queuesAnywhere _ _⟩
    | remove | reduce => exact namesAll _
  cases operation with
  | cancelOrder cancelRequest =>
      simp only [changes]
      split <;> simp [Change.Within, Operation.Names]
  | replayAddVisibleOrder orderId price quantity side =>
      simp only [changes]
      split <;> simp [Change.Within, Operation.Names, Operation.MayQueueAt]
  | replayDeleteVisibleOrder orderId =>
      simp only [changes]
      split <;> simp [Change.Within, Operation.Names]
  | replayReduceVisibleOrder orderId quantityReduced =>
      simp only [changes]
      repeat' split
      all_goals simp [Change.Within, Operation.Names]
  | replayReplaceVisibleOrder originalId newId newPrice newQuantity =>
      simp only [changes]
      repeat' split
      all_goals simp [Change.Within, Operation.Names, Operation.MayQueueAt]
  | _ => exact fun change _ => anyChange (fun _ => trivial) (fun _ _ => trivial) change

@[simp] theorem reduceIn_id (order : Order) (id : OrderID) (amount : Quantity) :
    (if order.id = id then order.reduce amount else order).id = order.id := by
  split <;> rfl

@[simp] theorem reduceIn_priority (order : Order) (id : OrderID) (amount : Quantity) (side : Side) :
    orderPriority side (if order.id = id then order.reduce amount else order) =
      orderPriority side order := by
  split <;> rfl

/-- A change leaves the orders alone that its call does not name. -/
theorem mem_orders_apply
    {change : Change}
    (within : change.Within operation)
    {side : Side} {order : Order}
    (unnamed : ¬ operation.Names order.id) :
    order ∈ (book.apply change).orders side ↔ order ∈ book.orders side := by
  cases change with
  | take | prune => exact absurd ⟨order.id, unnamed⟩ within
  | rest newSide new =>
      have different : order ≠ new := fun equal => unnamed (equal ▸ within.1)
      rw [Book.apply, mem_orders_rest]
      simp [different]
  | remove id =>
      have different : order.id ≠ id := fun equal => unnamed (equal ▸ within)
      rw [Book.apply, orders_remove, List.mem_filter]
      simp [different]
  | reduce id amount =>
      rw [Book.apply, orders_reduce, List.mem_map]
      constructor
      · rintro ⟨original, inOrders, rfl⟩
        rw [reduceIn_id] at unnamed
        have different : original.id ≠ id := fun equal => unnamed (equal ▸ within)
        rwa [if_neg different]
      · intro inOrders
        refine ⟨order, inOrders, if_neg fun same => unnamed ?_⟩
        show operation.Names order.id
        rwa [same]

theorem mem_orders_applyAll
    {changes : List Change}
    (within : ∀ change ∈ changes, change.Within operation)
    {side : Side} {order : Order}
    (unnamed : ¬ operation.Names order.id) :
    order ∈ (book.applyAll changes).orders side ↔ order ∈ book.orders side := by
  induction changes generalizing book with
  | nil => rfl
  | cons change changes inductionHypothesis =>
      obtain ⟨withinFirst, withinLater⟩ := List.forall_mem_cons.mp within
      rw [applyAll_cons, inductionHypothesis withinLater, mem_orders_apply withinFirst unnamed]

/-- The orders with an id are where they are in another book. -/
theorem locate_congr
    (distinct : other.Distinct)
    {id : OrderID}
    (same : ∀ side order, order.id = id →
      (order ∈ book.orders side ↔ order ∈ other.orders side)) :
    book.locate id = other.locate id := by
  cases located : book.locate id with
  | none =>
      symm
      rw [locate_eq_none, contains_iff] at located ⊢
      rintro ⟨side, order, member, sameId⟩
      exact located ⟨side, order, (same side order sameId).mpr member, sameId⟩
  | some found =>
      obtain ⟨side, order⟩ := found
      obtain ⟨member, rfl⟩ := locate_eq_some located
      exact (distinct.locate_of_mem ((same side order rfl).mp member)).symm

/-! ## What a call looks at -/

theorem replayReplace_answer
    (book : Book) (originalId newId : OrderID) (newPrice : Price) (newQuantity : Quantity) :
    (book.replayReplace originalId newId newPrice newQuantity).1 =
      if newQuantity = 0 ∨ newPrice < book.minPrice ∨ newPrice > book.maxPrice ∨
        book.Contains newId then false
      else (book.locate originalId).isSome := by
  unfold replayReplace
  split
  · rfl
  next accepted =>
    cases book.locate originalId with
    | none => rfl
    | some found =>
        simp only [replayAdd_of_remove accepted]
        rfl

/-- A local call makes the same changes and gives the same answer in books that agree on the
orders which it names. -/
theorem changes_congr
    (isLocal : operation.Local)
    (minPrice : book.minPrice = other.minPrice)
    (maxPrice : book.maxPrice = other.maxPrice)
    (located : ∀ id, operation.Names id → book.locate id = other.locate id) :
    book.changes operation = other.changes operation ∧
      (book.execute operation).1 = (other.execute operation).1 := by
  obtain ⟨unnamedId, unnamed⟩ := isLocal
  have contains : ∀ id, operation.Names id → (book.Contains id ↔ other.Contains id) := by
    intro id named
    rw [← not_iff_not, ← locate_eq_none, ← locate_eq_none, located id named]
  cases operation with
  | cancelOrder cancelRequest =>
      simp only [changes, execute, cancel, located _ rfl]
      refine ⟨trivial, ?_⟩
      split <;> rfl
  | replayAddVisibleOrder orderId price quantity side =>
      simp only [changes, execute, replayAdd, contains _ rfl, minPrice, maxPrice]
      refine ⟨trivial, ?_⟩
      split <;> rfl
  | replayDeleteVisibleOrder orderId =>
      simp only [changes, execute, replayDelete, located _ rfl]
      refine ⟨trivial, ?_⟩
      split <;> rfl
  | replayReduceVisibleOrder orderId quantityReduced =>
      simp only [changes, execute, replayReduce, located _ rfl]
      refine ⟨trivial, ?_⟩
      repeat' split
      all_goals rfl
  | replayReplaceVisibleOrder originalId newId newPrice newQuantity =>
      simp only [changes, execute, Prod.map_fst, replayReplace_answer,
        contains newId (Or.inr rfl), located originalId (Or.inl rfl), minPrice, maxPrice,
        and_self]
  | _ => exact absurd trivial unnamed

/-! ## Changes in either order -/

/-- Both sides are sorted by price. -/
def Sorted (book : Book) : Prop :=
  ∀ side, KeyedList.Ordered (orderPriority side) (book.orders side)

theorem Sorted.apply
    {change : Change}
    (sorted : book.Sorted)
    (isLocal : operation.Local)
    (within : change.Within operation) :
    (book.apply change).Sorted := by
  intro side
  cases change with
  | take | prune => exact absurd isLocal within
  | rest newSide order =>
      rw [Book.apply, rest, orders_setOrders]
      split
      · next same => exact same ▸ (sorted newSide).enqueue order
      · exact sorted side
  | remove id =>
      rw [Book.apply, orders_remove]
      exact (sorted side).filter _
  | reduce id amount =>
      rw [Book.apply, orders_reduce]
      refine List.pairwise_map.mpr ((sorted side).imp fun {earlier later} inOrder => ?_)
      rwa [reduceIn_priority, reduceIn_priority]

theorem remove_comm (book : Book) (first second : OrderID) :
    (book.remove first).remove second = (book.remove second).remove first := by
  refine ext_orders rfl rfl fun side => ?_
  simp only [orders_remove, List.filter_filter, Bool.and_comm]

theorem reduce_remove (book : Book) (reduced removed : OrderID) (amount : Quantity) :
    (book.reduce reduced amount).remove removed = (book.remove removed).reduce reduced amount := by
  refine ext_orders rfl rfl fun side => ?_
  rw [orders_remove, orders_reduce, orders_reduce, orders_remove, List.filter_map]
  refine congrArg (List.map _) (List.filter_congr fun order _ => ?_)
  simp only [Function.comp_apply, reduceIn_id]

theorem reduce_comm
    {first second : OrderID}
    (different : first ≠ second)
    (book : Book) (amount otherAmount : Quantity) :
    (book.reduce first amount).reduce second otherAmount =
      (book.reduce second otherAmount).reduce first amount := by
  refine ext_orders rfl rfl fun side => ?_
  simp only [orders_reduce, List.map_map]
  refine List.map_congr_left fun order _ => ?_
  simp only [Function.comp_apply, reduceIn_id]
  by_cases isFirst : order.id = first
  · simp [isFirst, different]
  · simp [isFirst]

theorem Sorted.rest_remove
    (sorted : book.Sorted)
    {order : Order} {id : OrderID}
    (different : order.id ≠ id)
    (side : Side) :
    (book.rest side order).remove id = (book.remove id).rest side order := by
  refine ext_orders ?_ ?_ fun otherSide => ?_
  · simp [rest, remove]
  · simp [rest, remove]
  rw [orders_remove, rest, rest, orders_setOrders, orders_setOrders, orders_remove,
    orders_remove]
  split
  · exact (sorted side).filter_enqueue_of_keep (by simp [different])
  · rfl

theorem rest_reduce
    {order : Order} {id : OrderID}
    (different : order.id ≠ id)
    (book : Book) (side : Side) (amount : Quantity) :
    (book.rest side order).reduce id amount = (book.reduce id amount).rest side order := by
  refine ext_orders ?_ ?_ fun otherSide => ?_
  · simp [rest, reduce]
  · simp [rest, reduce]
  rw [orders_reduce, rest, rest, orders_setOrders, orders_setOrders, orders_reduce,
    orders_reduce]
  split
  · let change (found : Order) : Order := if found.id = id then found.reduce amount else found
    have mapped : (KeyedList.enqueue (orderPriority side) order (book.orders side)).map change =
        KeyedList.enqueue (orderPriority side) (change order) ((book.orders side).map change) :=
      KeyedList.map_enqueue (fun other => by rw [reduceIn_priority, reduceIn_priority]) _
    have unchanged : change order = order := if_neg different
    rw [unchanged] at mapped
    exact mapped
  · rfl

theorem rest_comm
    {firstSide secondSide : Side} {firstOrder secondOrder : Order}
    (apart : ¬ (firstSide = secondSide ∧ firstOrder.price = secondOrder.price))
    (book : Book) :
    (book.rest firstSide firstOrder).rest secondSide secondOrder =
      (book.rest secondSide secondOrder).rest firstSide firstOrder := by
  refine ext_orders ?_ ?_ fun side => ?_
  · simp [rest]
  · simp [rest]
  simp only [rest, orders_setOrders]
  by_cases sameSide : firstSide = secondSide
  · subst sameSide
    have different : orderPriority firstSide firstOrder ≠ orderPriority firstSide secondOrder :=
      fun equal => apart ⟨rfl, (priority_inj ..).mp equal⟩
    by_cases here : side = firstSide
    · simp only [here, if_true]
      exact KeyedList.enqueue_comm different _
    · simp only [here, if_false]
  · by_cases atFirst : side = firstSide
    · subst atFirst
      simp [sameSide]
    · simp [atFirst, Ne.symm sameSide]

/-- Changes of independent calls may be made in either order. -/
theorem Sorted.apply_comm
    {change otherChange : Change}
    (sorted : book.Sorted)
    (independent : first.Independent second)
    (within : change.Within first)
    (otherWithin : otherChange.Within second) :
    (book.apply change).apply otherChange = (book.apply otherChange).apply change := by
  have firstLocal := independent.isLocal
  have secondLocal := independent.symm.isLocal
  have different : ∀ {id otherId : OrderID}, first.Names id → second.Names otherId →
      id ≠ otherId :=
    fun {id _} named otherNamed equal => independent.names id ⟨named, equal ▸ otherNamed⟩
  cases change with
  | take | prune => exact absurd firstLocal within
  | rest side order =>
      cases otherChange with
      | take | prune => exact absurd secondLocal otherWithin
      | rest otherSide otherOrder =>
          refine rest_comm (fun samePlace => ?_) book
          refine independent.places side order.price ⟨within.2, ?_⟩
          rw [samePlace.1, samePlace.2]
          exact otherWithin.2
      | remove id => exact sorted.rest_remove (different within.1 otherWithin) side
      | reduce id amount => exact rest_reduce (different within.1 otherWithin) book side amount
  | remove id =>
      cases otherChange with
      | take | prune => exact absurd secondLocal otherWithin
      | rest side order =>
          exact (sorted.rest_remove (different within otherWithin.1).symm side).symm
      | remove otherId => exact book.remove_comm id otherId
      | reduce otherId amount => exact (book.reduce_remove otherId id amount).symm
  | reduce id amount =>
      cases otherChange with
      | take | prune => exact absurd secondLocal otherWithin
      | rest side order =>
          exact (rest_reduce (different within otherWithin.1).symm book side amount).symm
      | remove otherId => exact book.reduce_remove id otherId amount
      | reduce otherId otherAmount =>
          exact reduce_comm (different within otherWithin) book amount otherAmount

theorem Sorted.applyAll_apply
    {changes : List Change} {otherChange : Change}
    (sorted : book.Sorted)
    (independent : first.Independent second)
    (within : ∀ change ∈ changes, change.Within first)
    (otherWithin : otherChange.Within second) :
    (book.applyAll changes).apply otherChange = (book.apply otherChange).applyAll changes := by
  induction changes generalizing book with
  | nil => rfl
  | cons change changes inductionHypothesis =>
      obtain ⟨withinFirst, withinLater⟩ := List.forall_mem_cons.mp within
      rw [applyAll_cons, inductionHypothesis (sorted.apply independent.isLocal withinFirst)
        withinLater, sorted.apply_comm independent withinFirst otherWithin, applyAll_cons]

theorem Sorted.applyAll_comm
    {changes otherChanges : List Change}
    (sorted : book.Sorted)
    (independent : first.Independent second)
    (within : ∀ change ∈ changes, change.Within first)
    (otherWithin : ∀ change ∈ otherChanges, change.Within second) :
    (book.applyAll changes).applyAll otherChanges =
      (book.applyAll otherChanges).applyAll changes := by
  induction otherChanges generalizing book with
  | nil => rfl
  | cons otherChange otherChanges inductionHypothesis =>
      obtain ⟨withinFirst, withinLater⟩ := List.forall_mem_cons.mp otherWithin
      rw [applyAll_cons, sorted.applyAll_apply independent within withinFirst,
        inductionHypothesis (sorted.apply independent.symm.isLocal withinFirst) withinLater,
        applyAll_cons]

/-! ## Calls in either order -/

/-- After an independent call, a call makes the same changes and gives the same answer. -/
theorem Valid.changes_after
    (valid : book.Valid)
    (independent : first.Independent second) :
    (book.execute first).2.changes second = book.changes second ∧
      ((book.execute first).2.execute second).1 = (book.execute second).1 := by
  apply changes_congr independent.symm.isLocal (book.execute_minPrice first)
    (book.execute_maxPrice first)
  intro id named
  apply locate_congr valid.distinct
  rintro side order rfl
  rw [(book.execute_changes first).1]
  exact mem_orders_applyAll (book.within_changes first)
    fun namedFirst => independent.names order.id ⟨namedFirst, named⟩

/-- Independent calls commute in valid books. -/
theorem commutes_execute :
    Traces.Commutes Book.execute Valid Operation.PositiveQuantities Operation.Independent where
  preserved valid positive := valid.execute (Safe.of_positive positive _)
  firstAnswer valid _ _ independent := (Valid.changes_after valid independent.symm).2
  secondAnswer valid _ _ independent := (Valid.changes_after valid independent).2
  sameState := by
    intro book first second valid _ _ independent
    rw [((book.execute first).2.execute_changes second).1,
      ((book.execute second).2.execute_changes first).1,
      (valid.changes_after independent).1, (valid.changes_after independent.symm).1,
      (book.execute_changes first).1, (book.execute_changes second).1]
    have sorted : book.Sorted := valid.sorted
    exact sorted.applyAll_comm independent (book.within_changes first)
      (book.within_changes second)

end Book
end Reference
end MatchingEngine
