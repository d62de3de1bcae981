import MatchingEngine.Refinement.Passive

/-!
# Two runs side by side

Orders that rest in a book rest also in the book without one of its orders.  The run
without that order stays one order and one allocation behind.
-/

namespace MatchingEngine
namespace Refinement

open Reference (Order)

variable {next left right : OrderBook} {request : LimitOrderRequest}
variable {order : Order} {side : Side}

/-- The left book has one order more than the right one, and its pool is one allocation
ahead. -/
structure Ahead (side : Side) (order : Order) (left right : OrderBook) : Prop where
  sane : Sane left
  member : order ∈ left.view.orders side
  refines : Refines right (left.view.remove order.id)
  available : ¬ (capacityOf right.memoryPool).Exhausted
    (right.memoryPool.currentlyAllocated + 1)
  capacity : capacityOf left.memoryPool =
    (capacityOf right.memoryPool).demand (right.memoryPool.currentlyAllocated + 1)

namespace Ahead

theorem right_view (ahead : Ahead side order left right) :
    right.view = left.view.remove order.id := ahead.refines.view_eq

theorem right_sane (ahead : Ahead side order left right) : Sane right := by
  have refines := ahead.refines
  refine ⟨?_, ?_⟩ <;> rw [ahead.right_view]
  · exact refines
  · exact ahead.sane.roomy.remove order.id

theorem currentlyAllocated_eq (ahead : Ahead side order left right) :
    left.memoryPool.currentlyAllocated = right.memoryPool.currentlyAllocated + 1 := by
  rw [ahead.sane.refines.carries.currentlyAllocated_eq, ahead.refines.carries.currentlyAllocated_eq,
    (ahead.sane.refines.valid.distinct.perm_remove ahead.member).length_eq, List.length_cons]

/-- What can rest with the order present can rest without it. -/
theorem restable
    (ahead : Ahead side order left right)
    (restable : Restable left request) :
    Restable right request := by
  obtain ⟨fresh, lower, upper⟩ := restable.fresh_inRange ahead.sane
  have passive := (passive_iff ahead.sane.refines).mp restable.passive
  refine ⟨fun rejects => ?_, restable.lifetime,
    (passive_iff ahead.refines).mpr fun other member => ?_⟩
  · rcases (rejects_iff ahead.refines request).mp rejects with present | above | below
    · exact fresh (Reference.Book.contains_remove.mp present).1
    · exact above.not_ge upper
    · exact below.not_ge lower
  · rw [Reference.Book.orders_remove] at member
    exact passive other (List.mem_of_mem_filter member)

/-- When an order rests in the left book, it rests in the right book too. -/
theorem submitLimitOrder
    (ahead : Ahead side order left right)
    (otherId : request.id ≠ order.id)
    (positive : 1 ≤ request.quantity)
    (range : InInt32 request.quantity)
    {result : SubmissionResult}
    (submitted : left.submitLimitOrder request = .ok (result, next))
    (resting : result.status = .resting)
    (capacity : next.WithinCapacity) :
    ∃ next', right.submitLimitOrder request = .ok (result, next') ∧
      Ahead side order next next' := by
  have leftRestable := restable_of_resting ahead.sane positive range submitted resting
  obtain ⟨rfl, leftRests⟩ := leftRestable.restsOrder ahead.sane positive range submitted
  obtain ⟨next', submitted', rightRests⟩ := (ahead.restable leftRestable).exists_restsOrder
    ahead.right_sane positive range ahead.available
  have view := leftRests.refines.view_eq
  have live : next'.memoryPool.currentlyAllocated = left.memoryPool.currentlyAllocated := by
    rw [ahead.currentlyAllocated_eq, rightRests.refines.carries.currentlyAllocated_eq,
      ahead.right_sane.refines.carries.currentlyAllocated_eq,
      (Reference.Book.perm_rest ..).length_eq, List.length_cons]
  refine ⟨next', submitted', ⟨⟨?_, ?_⟩, ?_, ?_, ?_, ?_⟩⟩
  · rw [view]
    exact leftRests.refines
  · rw [view]
    exact leftRests.refines.roomy capacity
  · rw [view]
    exact Reference.Book.mem_orders_rest.mpr (Or.inr ahead.member)
  · rw [view, ahead.sane.refines.valid.remove_rest_of_ne _ otherId, ← ahead.right_view]
    exact rightRests.refines
  · rw [live, rightRests.capacity, ← ahead.capacity]
    exact leftRests.available
  · rw [live, rightRests.capacity, ← ahead.capacity]
    exact leftRests.capacity

end Ahead

/-- A submission that rests without executing. -/
def RestsWhole (output : Output) : Prop :=
  ∃ result, output = .submission result ∧ result.status = .resting

instance : DecidablePred RestsWhole := fun output =>
  match output with
  | .submission result =>
      if resting : result.status = .resting then .isTrue ⟨result, rfl, resting⟩
      else .isFalse fun ⟨_, same, rests⟩ => resting (Output.submission.inj same ▸ rests)
  | .cancellation _ | .modification _ | .sessionEnd _ | .replay _ =>
      .isFalse fun ⟨_, same, _⟩ => by cases same

/-- Whatever rests in the left book rests in the right book. -/
theorem Ahead.perform
    (ahead : Ahead side order left right)
    {requests : List LimitOrderRequest}
    {others : List (Event OrderBook Operation Output)} {last : OrderBook}
    (performed : left.perform (requests.map .submitLimitOrder) = .ok (others, last))
    (otherIds : ∀ other ∈ requests, other.id ≠ order.id)
    (positive : ∀ other ∈ requests, 1 ≤ other.quantity ∧ InInt32 other.quantity)
    (rest : ∀ event ∈ others, RestsWhole event.output)
    (capacity : ∀ event ∈ others, event.after.WithinCapacity) :
    ∃ alone last',
      right.perform (requests.map .submitLimitOrder) = .ok (alone, last') ∧
      alone.map Event.output = others.map Event.output ∧
      Ahead side order last last' := by
  induction requests generalizing left right others with
  | nil =>
      obtain ⟨rfl, rfl⟩ := Prod.mk.inj (Except.ok.inj performed)
      exact ⟨[], right, rfl, rfl, ahead⟩
  | cons request requests inductionHypothesis =>
      obtain ⟨output, next, later, executed, laterPerformed, rfl⟩ :=
        OrderBook.perform_cons performed
      obtain ⟨headRests, tailRest⟩ := List.forall_mem_cons.mp rest
      obtain ⟨headCapacity, tailCapacity⟩ := List.forall_mem_cons.mp capacity
      obtain ⟨headId, tailIds⟩ := List.forall_mem_cons.mp otherIds
      obtain ⟨headPositive, tailPositive⟩ := List.forall_mem_cons.mp positive
      obtain ⟨result, rfl, resting⟩ := headRests
      obtain ⟨⟨result', next₁⟩, submitted, executed⟩ := bind_eq_ok executed
      obtain ⟨sameOutput, rfl⟩ := Prod.mk.inj (Except.ok.inj executed)
      obtain rfl := Output.submission.inj sameOutput
      obtain ⟨next', submitted', ahead'⟩ := ahead.submitLimitOrder headId headPositive.1
        headPositive.2 submitted resting headCapacity
      obtain ⟨alone, last', performed', sameOutputs, ahead''⟩ :=
        inductionHypothesis ahead' laterPerformed tailIds tailPositive tailRest tailCapacity
      refine ⟨⟨right, .submitLimitOrder request, .submission result', next'⟩ :: alone, last', ?_,
        ?_, ahead''⟩
      · simp only [List.map_cons, OrderBook.perform, OrderBook.execute, submitted', ok_bind,
          performed']
      · rw [List.map_cons, List.map_cons, sameOutputs]

end Refinement
end MatchingEngine
