import MatchingEngine.Reference.Changes

/-!
# Matching in two parts

The second part of a taker finds what the first one has left.  Both parts together
take what the whole takes and leave the same book.
-/

namespace MatchingEngine
namespace Reference

/-- Reducing an order takes shares off its quantity and keeps its id. -/
theorem Order.shrinks_reduce : Fill.Shrinks Order.quantity Order.reduce Order.id where
  size _ _ := rfl
  again order amount amount' := by simp [Order.reduce, sub_sub]
  key _ _ := rfl

namespace Book

variable {book : Book} {side : Side} {takes : Price → Bool} {first second : Quantity}

/-- What is left of the makers that a taker accepts. -/
theorem filter_afterMatching :
    ((book.afterMatching side takes first).orders side).filter (fun order => takes order.price) =
      (book.matching side takes first).rest := by
  have acceptedRest : ∀ order ∈ (book.matching side takes first).rest,
      takes order.price = true := by
    intro order member
    have prices : ((book.matching side takes first).rest.map Order.price).Sublist
        (((book.orders side).filter fun order => takes order.price).map Order.price) :=
      (divides_matching book side takes first).rest_map_sublist fun _ _ => rfl
    obtain ⟨maker, inMakers, samePrice⟩ :=
      List.mem_map.mp (prices.subset (List.mem_map_of_mem member))
    rw [← samePrice]
    exact (List.mem_filter.mp inMakers).2
  rw [orders_afterMatching, if_pos rfl, List.filter_append, List.filter_eq_self.mpr acceptedRest,
    List.filter_filter, List.filter_eq_nil_iff.mpr (by simp), List.append_nil]

/-- The makers that a taker does not accept stay as they are. -/
theorem filter_not_afterMatching :
    ((book.afterMatching side takes first).orders side).filter (fun order => !takes order.price) =
      (book.orders side).filter fun order => !takes order.price := by
  have acceptedRest : ∀ order ∈ (book.matching side takes first).rest,
      ¬ (!takes order.price) = true := by
    intro order member
    rw [← filter_afterMatching] at member
    simpa using (List.mem_filter.mp member).2
  rw [orders_afterMatching, if_pos rfl, List.filter_append,
    List.filter_eq_nil_iff.mpr acceptedRest, List.nil_append, List.filter_filter]
  exact List.filter_congr fun order _ => Bool.and_self _

/-- The second part of a taker finds what the first has left. -/
theorem matching_afterMatching :
    (book.afterMatching side takes first).matching side takes second =
      Fill.fill Order.quantity Order.reduce second (book.matching side takes first).rest := by
  rw [matching, filter_afterMatching]

theorem Valid.matching_add
    (valid : book.Valid)
    (firstNonneg : 0 ≤ first)
    (secondNonneg : 0 ≤ second) :
    book.matching side takes (first + second) =
      ⟨Fill.joinWith (Fill.mergeTaken Order.id) (book.matching side takes first).taken
          ((book.afterMatching side takes first).matching side takes second).taken,
        ((book.afterMatching side takes first).matching side takes second).rest⟩ := by
  rw [matching_afterMatching]
  exact Fill.fill_add firstNonneg secondNonneg Order.shrinks_reduce
    ((valid.distinct.side side).sublist (List.filter_sublist.map Order.id))

/-- Both ways leave the same book. -/
theorem Valid.afterMatching_add
    (valid : book.Valid)
    (firstNonneg : 0 ≤ first)
    (secondNonneg : 0 ≤ second) :
    (book.afterMatching side takes first).afterMatching side takes second =
      book.afterMatching side takes (first + second) := by
  have whole : book.afterMatching side takes (first + second) = book.setOrders side
      (((book.afterMatching side takes first).matching side takes second).rest ++
        (book.orders side).filter fun order => !takes order.price) := by
    rw [afterMatching, valid.matching_add firstNonneg secondNonneg]
  rw [whole, afterMatching, filter_not_afterMatching]
  exact setOrders_setOrders ..

/-- The makers of a matching are distinct. -/
theorem Valid.nodup_executions
    (valid : book.Valid) (quantity : Quantity) :
    (((book.matching side takes quantity).taken.map execution).map
      ExecutionResult.makerOrderID).Nodup := by
  have makers : ((book.matching side takes quantity).taken.map Prod.fst).Sublist
      (book.orders side) :=
    (divides_matching book side takes quantity).taken_sublist.trans List.filter_sublist
  have ids := (valid.distinct.side side).sublist (makers.map Order.id)
  rw [List.map_map] at ids ⊢
  exact ids

end Book
end Reference

end MatchingEngine
