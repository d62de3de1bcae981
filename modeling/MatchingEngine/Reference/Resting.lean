import MatchingEngine.Reference.Legality

/-!
# Orders that rest as a whole

A limit order rests as a whole just when it meets no order that it accepts.  Taking
it out again undoes the submission, also when other orders have rested since.
-/

namespace MatchingEngine
namespace Reference
namespace Book

variable {book : Book}

/-- A limit order that meets no order it accepts rests as a whole. -/
theorem submitLimit_of_passive
    {request : LimitOrderRequest} {lifetime : RestingLifetime}
    (accepted : ¬ book.Rejects request)
    (tif : request.tif = resubmissionTif lifetime)
    (positive : 1 ≤ request.quantity)
    (passive : ∀ order ∈ book.orders request.side.opposite,
      accepts request.side request.price order.price = false) :
    book.submitLimit request =
      ({ quantityRequested := request.quantity, status := .resting },
        book.rest request.side ⟨request.id, request.price, request.quantity, lifetime⟩) := by
  have noOffers : (book.orders request.side.opposite).filter
      (fun order => accepts request.side request.price order.price) = [] :=
    List.filter_eq_nil_iff.mpr fun order member => by simp [passive order member]
  have others : (book.orders request.side.opposite).filter
      (fun order => !accepts request.side request.price order.price) =
        book.orders request.side.opposite :=
    List.filter_eq_self.mpr fun order member => by simp [passive order member]
  have nothing : book.matching request.side.opposite (accepts request.side request.price)
      request.quantity = ⟨[], []⟩ := by
    rw [matching, noOffers, Fill.fill_nil]
  have unchanged : book.afterMatching request.side.opposite
      (accepts request.side request.price) request.quantity = book := by
    rw [afterMatching, nothing, others, List.nil_append, setOrders_orders]
  have nonzero : request.quantity ≠ 0 := by lia
  have resting : book.submitResting request lifetime =
      ({ quantityRequested := request.quantity, status := .resting },
        book.rest request.side ⟨request.id, request.price, request.quantity, lifetime⟩) := by
    simp only [submitResting, nothing, unchanged, Fill.total_nil, Int.sub_zero, nonzero,
      if_false, report, restingStatus, lt_irrefl]
    rfl
  rw [submitLimit, if_neg accepted, tif]
  cases lifetime <;> exact resting

/-- A limit order that rests has executed against nothing, for want of an order that it
accepts. -/
theorem Valid.none_accepted_of_resting
    (valid : book.Valid)
    {request : LimitOrderRequest}
    (positive : 1 ≤ request.quantity)
    (resting : (book.submitLimit request).1.status = .resting) :
    ¬ book.Rejects request ∧ (request.tif = .gtc ∨ request.tif = .day) ∧
      ∀ order ∈ book.orders request.side.opposite,
        accepts request.side request.price order.price = false := by
  have whole : ∀ lifetime, (book.submitResting request lifetime).1.status = .resting →
      ∀ order ∈ book.orders request.side.opposite,
        accepts request.side request.price order.price = false := by
    intro lifetime resting order member
    by_contra accepted
    have inOffers : order ∈ (book.orders request.side.opposite).filter fun order =>
        accepts request.side request.price order.price :=
      List.mem_filter.mpr ⟨member, by simpa using accepted⟩
    have positiveOffers : ∀ offer ∈ (book.orders request.side.opposite).filter fun order =>
        accepts request.side request.price order.price, 0 < offer.quantity :=
      fun offer inOffers => valid.positive _ offer (List.mem_of_mem_filter inOffers)
    have atLeast : order.quantity ≤ Fill.offered Order.quantity
        ((book.orders request.side.opposite).filter fun order =>
          accepts request.side request.price order.price) :=
      List.single_le_sum (fun quantity inQuantities => by
        obtain ⟨offer, inOffers, rfl⟩ := List.mem_map.mp inQuantities
        exact (positiveOffers offer inOffers).le) _ (List.mem_map_of_mem inOffers)
    have total := @Fill.total_fill _ _ Order.reduce request.quantity _ positiveOffers
    have orderPositive := valid.positive _ order member
    simp only [submitResting, report, restingStatus, matching, total] at resting
    split at resting
    · cases resting
    split at resting
    · cases resting
    · lia
  unfold submitLimit at resting
  split at resting
  · cases resting
  next accepted =>
  refine ⟨accepted, ?_⟩
  cases kind : request.tif with
  | gtc =>
      rw [kind] at resting
      exact ⟨Or.inl rfl, whole _ resting⟩
  | day =>
      rw [kind] at resting
      exact ⟨Or.inr rfl, whole _ resting⟩
  | ioc =>
      simp only [kind, submitImmediate, report, droppedStatus] at resting
      split at resting
      · cases resting
      · split at resting <;> cases resting
  | fok =>
      simp only [kind, submitAllOrNothing, report] at resting
      split at resting <;> cases resting

/-- Removing a new order undoes resting it. -/
theorem remove_rest_self
    (side : Side) {order : Order}
    (fresh : ¬ book.Contains order.id) :
    (book.rest side order).remove order.id = book := by
  have kept : ∀ other, (book.orders other).filter (fun found => found.id ≠ order.id) =
      book.orders other := fun other =>
    List.filter_eq_self.mpr fun found member => by
      simpa using fun equal : found.id = order.id => fresh (equal ▸ contains_of_mem member)
  refine ext_orders (setOrders_minPrice ..) (setOrders_maxPrice ..) fun other => ?_
  rw [orders_remove, rest, orders_setOrders]
  by_cases same : other = side
  · subst same
    rw [if_pos rfl, KeyedList.filter_enqueue_of_drop (by simp), kept]
  · rw [if_neg same, kept]

/-- Removing an order before or after another has been rested. -/
theorem Valid.remove_rest_of_ne
    (valid : book.Valid)
    (side : Side) {order : Order} {id : OrderID}
    (different : order.id ≠ id) :
    (book.rest side order).remove id = (book.remove id).rest side order := by
  refine ext_orders
    ((setOrders_minPrice ..).trans (setOrders_minPrice (book.remove id) ..).symm)
    ((setOrders_maxPrice ..).trans (setOrders_maxPrice (book.remove id) ..).symm) fun other => ?_
  rw [orders_remove, rest, rest, orders_setOrders, orders_setOrders, orders_remove, orders_remove]
  by_cases same : other = side
  · subst same
    rw [if_pos rfl, if_pos rfl]
    exact (valid.sorted other).filter_enqueue_of_keep (by simpa using different)
  · rw [if_neg same, if_neg same]

end Book
end Reference

end MatchingEngine
