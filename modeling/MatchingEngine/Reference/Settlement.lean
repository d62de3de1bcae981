import MatchingEngine.Model.History
import MatchingEngine.Reference.Book

/-!
# Books settled by their executions

The executions that a submission reports say what has become of every order it
met: each takes its shares from the order it names, which leaves with its last
share.  This is said without a limit price and without an order of execution, so
that it also describes a taker that did not meet the best makers first.
-/

namespace MatchingEngine
namespace Reference

/-- What a list of executions leaves of an order: none of one that they use up. -/
def Order.afterExecutions (executions : List ExecutionResult) (order : Order) : Option Order :=
  if executedAgainst order.id executions < order.quantity then
    some (order.reduce (executedAgainst order.id executions))
  else none

namespace Book

/-- The shares that a list of executions fills. -/
def filledBy (executions : List ExecutionResult) : Quantity :=
  (executions.map ExecutionResult.executedQuantity).sum

/-- The book after a list of executions; every order that is left keeps its place. -/
def afterExecutions (book : Book) (executions : List ExecutionResult) : Book :=
  { book with
    bids := book.bids.filterMap (Order.afterExecutions executions)
    asks := book.asks.filterMap (Order.afterExecutions executions) }

/-- The executions take shares from orders of the book, from none more than it has. -/
structure Covers (book : Book) (executions : List ExecutionResult) : Prop where
  positive : ∀ execution ∈ executions, 0 < execution.executedQuantity
  named : ∀ execution ∈ executions, book.Contains execution.makerOrderID
  within : ∀ side, ∀ order ∈ book.orders side,
    executedAgainst order.id executions ≤ order.quantity

/-- The book after the submission of an order that may rest, told by its executions:
what they leave of the order is queued. -/
def afterSubmission (book : Book) (side : Side) (order : Order)
    (executions : List ExecutionResult) : Book :=
  if filledBy executions < order.quantity then
    (book.afterExecutions executions).rest side (order.reduce (filledBy executions))
  else book.afterExecutions executions

/-- A submission of an order that may rest has done what its executions say, and
nothing else. -/
structure Settles (before : Book) (side : Side) (order : Order) (result : SubmissionResult)
    (after : Book) : Prop where
  covers : before.Covers result.executions
  filled : result.quantityFilled = filledBy result.executions
  within : result.quantityFilled ≤ order.quantity
  status : result.status = restingStatus (order.quantity - result.quantityFilled) order.quantity
  settled : after = before.afterSubmission side order result.executions

variable {book : Book} {side : Side} {order : Order} {executions : List ExecutionResult}

theorem orders_afterExecutions (book : Book) (executions : List ExecutionResult) (side : Side) :
    (book.afterExecutions executions).orders side =
      (book.orders side).filterMap (Order.afterExecutions executions) := by
  cases side <;> rfl

/-- No execution brings in an id. -/
theorem contains_of_afterExecutions {id : OrderID}
    (present : (book.afterExecutions executions).Contains id) :
    book.Contains id := by
  obtain ⟨side, order, member, rfl⟩ := contains_iff.mp present
  rw [orders_afterExecutions] at member
  obtain ⟨original, inSide, left⟩ := List.mem_filterMap.mp member
  unfold Order.afterExecutions at left
  split at left <;> cases left
  exact contains_iff.mpr ⟨side, original, inSide, rfl⟩

theorem filledBy_map_execution (taken : List (Order × Quantity)) :
    filledBy (taken.map execution) = (taken.map Prod.snd).sum := by
  rw [filledBy, List.map_map]
  rfl

/-- An order that has been settled has not been rejected. -/
theorem Settles.status_ne_rejected
    {after : Book} {result : SubmissionResult}
    (settles : book.Settles side order result after) :
    result.status ≠ .rejected := by
  rw [settles.status, restingStatus]
  split
  · simp
  · split <;> simp

theorem executedAgainst_cons (id : OrderID) (execution : ExecutionResult)
    (executions : List ExecutionResult) :
    executedAgainst id (execution :: executions) =
      (if execution.makerOrderID = id then execution.executedQuantity else 0) +
        executedAgainst id executions := by
  rw [executedAgainst, List.filter_cons]
  split <;> simp_all [executedAgainst]

/-! ## Building up executions -/

theorem Covers.nil (positive : ∀ side, ∀ order ∈ book.orders side, 0 < order.quantity) :
    book.Covers [] where
  positive := by simp
  named := by simp
  within side order member := (positive side order member).le

theorem afterExecutions_nil (positive : ∀ side, ∀ order ∈ book.orders side, 0 < order.quantity) :
    book.afterExecutions [] = book := by
  refine ext_orders rfl rfl fun side => ?_
  rw [orders_afterExecutions]
  refine (List.filterMap_congr fun order member => ?_).trans List.filterMap_some
  rw [Order.afterExecutions, executedAgainst_nil, if_pos (positive side order member),
    Order.reduce, sub_zero]

/-- The executions of a book without an order take nothing from it. -/
theorem Covers.executedAgainst_removed
    {id : OrderID}
    (covers : (book.remove id).Covers executions) :
    executedAgainst id executions = 0 :=
  executedAgainst_of_not_mem fun execution member =>
    (contains_remove.mp (covers.named execution member)).2

/-- An execution of all that an order has, before others that do not name it. -/
theorem Distinct.covers_cons
    (distinct : book.Distinct)
    (member : order ∈ book.orders side)
    (positive : 0 < order.quantity)
    (covers : (book.remove order.id).Covers executions) (price : Price) :
    book.Covers (⟨order.id, price, order.quantity⟩ :: executions) where
  positive := List.forall_mem_cons.mpr ⟨positive, covers.positive⟩
  named := List.forall_mem_cons.mpr ⟨contains_of_mem member, fun execution later =>
    (contains_remove.mp (covers.named execution later)).1⟩
  within other found inOther := by
    rw [executedAgainst_cons]
    by_cases same : order.id = found.id
    · obtain ⟨_, rfl⟩ := distinct.eq_of_id_eq member inOther same
      rw [if_pos rfl, covers.executedAgainst_removed, add_zero]
    · rw [if_neg same, zero_add]
      refine covers.within other found ?_
      rw [orders_remove]
      exact List.mem_filter.mpr ⟨inOther, decide_eq_true (Ne.symm same)⟩

theorem Distinct.afterExecutions_cons
    (distinct : book.Distinct)
    (member : order ∈ book.orders side)
    (covers : (book.remove order.id).Covers executions) (price : Price) :
    book.afterExecutions (⟨order.id, price, order.quantity⟩ :: executions) =
      (book.remove order.id).afterExecutions executions := by
  refine ext_orders rfl rfl fun other => ?_
  rw [orders_afterExecutions, orders_afterExecutions, orders_remove, List.filterMap_filter]
  refine List.filterMap_congr fun found inOther => ?_
  by_cases same : found.id = order.id
  · obtain ⟨_, rfl⟩ := distinct.eq_of_id_eq inOther member same
    simp [Order.afterExecutions, executedAgainst_cons, covers.executedAgainst_removed]
  · simp [Order.afterExecutions, executedAgainst_cons, same, Ne.symm same]

/-- One execution that leaves some of the order. -/
theorem Distinct.covers_singleton
    (distinct : book.Distinct)
    (sound : ∀ side, ∀ order ∈ book.orders side, 0 < order.quantity)
    (member : order ∈ book.orders side)
    {amount : Quantity}
    (positive : 0 < amount)
    (below : amount < order.quantity) (price : Price) :
    book.Covers [⟨order.id, price, amount⟩] where
  positive := by simpa using positive
  named := by simpa using contains_of_mem member
  within other found inOther := by
    rw [executedAgainst_cons, executedAgainst_nil, add_zero]
    split
    next same =>
      obtain ⟨_, rfl⟩ := distinct.eq_of_id_eq member inOther same
      exact below.le
    next => exact (sound other found inOther).le

theorem Distinct.afterExecutions_singleton
    (distinct : book.Distinct)
    (sound : ∀ side, ∀ order ∈ book.orders side, 0 < order.quantity)
    (member : order ∈ book.orders side)
    {amount : Quantity}
    (below : amount < order.quantity) (price : Price) :
    book.afterExecutions [⟨order.id, price, amount⟩] = book.reduce order.id amount := by
  refine ext_orders rfl rfl fun other => ?_
  rw [orders_afterExecutions, orders_reduce, ← List.filterMap_eq_map]
  refine List.filterMap_congr fun found inOther => ?_
  rw [Order.afterExecutions, executedAgainst_cons, executedAgainst_nil, add_zero,
    Function.comp_apply]
  by_cases same : found.id = order.id
  · obtain ⟨_, rfl⟩ := distinct.eq_of_id_eq inOther member same
    rw [if_pos rfl, if_pos rfl, if_pos below]
  · rw [if_neg (Ne.symm same), if_neg same, if_pos (sound other found inOther), Order.reduce,
      sub_zero]

end Book
end Reference
end MatchingEngine
