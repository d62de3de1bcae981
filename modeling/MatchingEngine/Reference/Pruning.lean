import MatchingEngine.Reference.Legality

/-!
# Removing the DAY orders

Removing orders one by one is removing them at once.  The DAY orders of a book,
removed in any sequence, leave the pruned book.
-/

namespace MatchingEngine
namespace Reference
namespace Book

/-- Remove the orders with some ids. -/
def removeAll (book : Book) (ids : List OrderID) : Book :=
  ids.foldl remove book

@[simp] theorem removeAll_nil (book : Book) : book.removeAll [] = book := rfl

@[simp] theorem removeAll_cons (book : Book) (id : OrderID) (ids : List OrderID) :
    book.removeAll (id :: ids) = (book.remove id).removeAll ids := rfl

theorem orders_removeAll (book : Book) (ids : List OrderID) (side : Side) :
    (book.removeAll ids).orders side =
      (book.orders side).filter fun order => order.id ∉ ids := by
  induction ids generalizing book with
  | nil => simp
  | cons id ids inductionHypothesis =>
      rw [removeAll_cons, inductionHypothesis, orders_remove, List.filter_filter]
      refine List.filter_congr fun order _ => ?_
      rw [← Bool.decide_and, decide_eq_decide, List.mem_cons, not_or, and_comm]

@[simp] theorem removeAll_minPrice (book : Book) (ids : List OrderID) :
    (book.removeAll ids).minPrice = book.minPrice := by
  induction ids generalizing book with
  | nil => rfl
  | cons id ids inductionHypothesis => exact inductionHypothesis (book.remove id)

@[simp] theorem removeAll_maxPrice (book : Book) (ids : List OrderID) :
    (book.removeAll ids).maxPrice = book.maxPrice := by
  induction ids generalizing book with
  | nil => rfl
  | cons id ids inductionHypothesis => exact inductionHypothesis (book.remove id)

/-- Removing every DAY order, and no other, prunes the book. -/
theorem Distinct.removeAll_eq_prune
    {book : Book} {ids : List OrderID}
    (distinct : book.Distinct)
    (dayIds : ∀ id, id ∈ ids ↔
      ∃ side, ∃ order ∈ book.orders side, order.lifetime = .day ∧ order.id = id) :
    book.removeAll ids = book.prune := by
  refine ext_orders (removeAll_minPrice ..) (removeAll_maxPrice ..) fun side => ?_
  rw [orders_removeAll, orders_prune]
  refine List.filter_congr fun order member => ?_
  rw [decide_eq_decide, dayIds]
  refine not_congr ⟨?_, fun day => ⟨side, order, member, day, rfl⟩⟩
  rintro ⟨other, found, foundMember, day, sameId⟩
  obtain ⟨_, rfl⟩ := distinct.eq_of_id_eq foundMember member sameId
  exact day

/-- The ids that are left after pruning. -/
theorem Distinct.contains_prune
    {book : Book}
    (distinct : book.Distinct)
    (id : OrderID) :
    book.prune.Contains id ↔ book.Contains id ∧
      ¬ ∃ side, ∃ order ∈ book.orders side, order.lifetime = .day ∧ order.id = id := by
  simp only [contains_iff, orders_prune, List.mem_filter, decide_eq_true_eq]
  constructor
  · rintro ⟨side, order, ⟨member, notDay⟩, rfl⟩
    refine ⟨⟨side, order, member, rfl⟩, ?_⟩
    rintro ⟨other, found, foundMember, day, sameId⟩
    obtain ⟨_, rfl⟩ := distinct.eq_of_id_eq foundMember member sameId
    exact notDay day
  · rintro ⟨⟨side, order, member, rfl⟩, noDay⟩
    exact ⟨side, order, ⟨member, fun day => noDay ⟨side, order, member, day, rfl⟩⟩, rfl⟩

/-- Cancelling takes the order with an id out, if there is one. -/
theorem cancel_eq_remove (book : Book) (request : CancelOrderRequest) :
    (book.cancel request).2 = book.remove request.id := by
  unfold cancel
  cases located : book.locate request.id with
  | some found => rfl
  | none =>
      have absent := locate_eq_none.mp located
      refine ext_orders rfl rfl fun side => ?_
      rw [orders_remove, List.filter_eq_self.mpr]
      intro order member
      simpa using fun equal : order.id = request.id => absent (equal ▸ contains_of_mem member)

end Book
end Reference

end MatchingEngine
