import MatchingEngine.Properties.Levels

/-!
# No call makes an invalid access

The model reports a fault where the source would use an index outside an array,
follow a null or dangling pointer, overflow a signed integer or fail an assertion.
No public call does so in a reachable book, whatever its arguments: at most the
allocation of a slab is refused.
-/

namespace MatchingEngine
namespace Properties

open OrderBook (BookRun PublicCalls sampleSession sampleRun_public)
open Refinement

variable {events : List (Event OrderBook Operation Output)} {book : OrderBook}

/-- Everything that the id map leads to can be followed: a live order, a level of one of
the ladders, and a list on that level. -/
def PointersValid (book : OrderBook) : Prop :=
  ∀ id address, book.idToOrderMap.lookup id = some address →
    ∃ order place level,
      book.heap address = .order order ∧ order.id = id ∧ order.level = some place ∧
        (book.ladder place.side).levels[place.index]? = some level ∧ level.head ≠ none

/-- The level of a cached best price lies in the array, and its list has a first order. -/
def BestLevelsOccupied (book : OrderBook) : Prop :=
  ∀ side price, (book.ladder side).bestPrice = some price →
    ∃ index level front,
      (book.ladder side).getLevelAtPrice price = .ok index ∧
        (book.ladder side).level index = .ok level ∧ level.front = some front

theorem pointersValid_of_run (run : BookRun PublicCalls events book) : PointersValid book := by
  intro id address found
  obtain ⟨order, place, stored, sameId, rests⟩ := (book_consistent run).mapped id address found
  have onList : address ∈ book.levelBlocks place.side place.index :=
    List.count_pos_iff.mp (by rw [rests.once]; exact Nat.one_pos)
  obtain ⟨level, inArray⟩ : ∃ level,
      (book.ladder place.side).levels[place.index]? = some level := by
    cases inArray : (book.ladder place.side).levels[place.index]? with
    | some level => exact ⟨level, rfl⟩
    | none => simp [OrderBook.levelBlocks, inArray] at onList
  refine ⟨order, place, level, stored, sameId, rests.level, inArray, fun nothing => ?_⟩
  have chain := ((book_consistent run).chains place.side place.index level inArray).1.start_eq
  rw [nothing, eq_comm, List.head?_eq_none_iff] at chain
  rw [chain] at onList
  cases onList

theorem bestLevelsOccupied_of_run (run : BookRun PublicCalls events book) :
    BestLevelsOccupied book := by
  intro side price best
  obtain ⟨refines, _⟩ := Sane.of_run safeCalls_publicCalls run
  obtain ⟨addr, free, core⟩ := refines.core
  have isBest : bestOf (book.view.orders side) = some price := (refines.best side).symm.trans best
  obtain ⟨order, member, rfl⟩ : ∃ order ∈ book.view.orders side, order.price = price := by
    cases orders : book.view.orders side with
    | nil => simp [bestOf, orders] at isBest
    | cons order rest =>
        rw [orders] at isBest
        exact ⟨order, List.mem_cons_self, Option.some.inj isBest⟩
  obtain ⟨level, access, _, levelHolds⟩ := (core.holds side).level_of (core.inRange member)
  have head := levelHolds.head_eq
  have inQueue : order ∈ queueAt side order.price (book.view.orders side) :=
    mem_queueAt.mpr ⟨member, rfl⟩
  obtain ⟨first, rest, queue⟩ := List.exists_cons_of_ne_nil (List.ne_nil_of_mem inQueue)
  rw [queue] at head
  exact ⟨_, level, addr first.id, (core.holds side).toShape.getLevelAtPrice (core.inRange member),
    access, head⟩

/-- No public call in a reachable book uses an index outside an array, follows a null or
dangling pointer or fails an assertion. -/
theorem no_invalid_access
    (run : BookRun PublicCalls events book)
    {operation : Operation}
    (positive : operation.PositiveQuantities) :
    PointersValid book ∧ BestLevelsOccupied book ∧
      ∀ fault, book.execute operation = .error fault → fault = .badAlloc := by
  refine ⟨pointersValid_of_run run, bestLevelsOccupied_of_run run, fun fault failed => ?_⟩
  obtain ⟨refines, roomy⟩ := Sane.of_run safeCalls_publicCalls run
  rcases execute_simulates refines roomy
    (safeCalls_publicCalls book operation refines positive) with
      ⟨_, exhausted⟩ | ⟨book', returned, _⟩
  · exact Except.error.inj (failed.symm.trans exhausted)
  · cases failed.symm.trans returned

/-- A market order that sweeps two levels of the sample session. -/
theorem no_invalid_access_sample :
    PointersValid sampleSession.2 ∧ BestLevelsOccupied sampleSession.2 ∧
      ∀ fault, sampleSession.2.execute (.submitMarketOrder ⟨9, 100, .buy⟩) = .error fault →
        fault = .badAlloc :=
  no_invalid_access sampleRun_public (by decide)

end Properties
end MatchingEngine
