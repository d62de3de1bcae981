import MatchingEngine.Reference.Pruning
import MatchingEngine.Refinement.Contents
import MatchingEngine.Refinement.Pruning
import MatchingEngine.Refinement.Run

/-!
# The session end cancels the DAY orders

Pruning all DAY orders at once leaves the book that cancelling them one by one
leaves, whatever the order of the cancellations.  What survives are the GTC
orders, and there is nothing to prune for a second session end.
-/

namespace MatchingEngine
namespace Properties

open OrderBook (BookRun PublicCalls sampleSession sampleRun_public)
open Refinement

variable {events : List (Event OrderBook Operation Output)} {book : OrderBook}
variable {spec : Reference.Book}

/-! ## One by one -/

/-- The ids of the DAY orders on the lists of a side, and then of the other. -/
def dayIds (book : OrderBook) : List OrderID :=
  let onSide (side : Side) : List RestingOrder :=
    (List.range (book.ladder side).levels.length).flatMap (book.levelOrders side)
  ((onSide .buy ++ onSide .sell).filter fun order => order.lifetime = .day).map
    RestingOrder.id

/-- One call of `cancel_order` for each id. -/
def cancelCalls (ids : List OrderID) : List Operation :=
  ids.map fun id => .cancelOrder ⟨id⟩

theorem perform_cancelCalls
    (refines : Refines book spec)
    (roomy : RoomyBook spec)
    (ids : List OrderID) :
    ∃ calls cancelled,
      book.perform (cancelCalls ids) = .ok (calls, cancelled) ∧
      Refines cancelled (spec.removeAll ids) ∧ Frees book cancelled := by
  induction ids generalizing book spec with
  | nil => exact ⟨[], book, rfl, refines, Frees.refl book⟩
  | cons id ids inductionHypothesis =>
      obtain ⟨book', cancelled, refines'⟩ :=
        (refines.carries.cancelOrder ⟨id⟩).simulates trivial refines roomy
      rw [spec.cancel_eq_remove] at refines'
      obtain ⟨calls, last, performed, lastRefines, frees⟩ :=
        inductionHypothesis refines' (roomy.remove id)
      refine ⟨⟨book, .cancelOrder ⟨id⟩, .cancellation (spec.cancel ⟨id⟩).1, book'⟩ ::
        calls, last, ?_, lastRefines, (frees_cancelOrder cancelled).trans frees⟩
      simp only [cancelCalls, List.map_cons, OrderBook.perform, OrderBook.execute, cancelled,
        ok_bind]
      rw [← cancelCalls, performed, ok_bind]

theorem mem_dayIds (book : OrderBook) (id : OrderID) :
    id ∈ dayIds book ↔
      ∃ side, ∃ order ∈ book.view.orders side, order.lifetime = .day ∧ order.id = id := by
  have onLevel : ∀ side index,
      (∃ order ∈ book.levelOrders side index, order.lifetime = .day ∧ order.id = id) ↔
        ∃ order ∈ book.pricedOrders side index, order.lifetime = .day ∧ order.id = id := by
    intro side index
    have same : (book.pricedOrders side index).map (fun order => (order.lifetime, order.id)) =
        (book.levelOrders side index).map fun order => (order.lifetime, order.id) :=
      book.map_pricedOrders _ (fun _ _ => rfl) side index
    have listed := congrArg ((RestingLifetime.day, id) ∈ ·) same
    simpa only [List.mem_map, Prod.mk.injEq, eq_iff_iff] using listed.symm
  have inRange : ∀ side index, index ∈ book.levelIndices side ↔
      index ∈ List.range (book.ladder side).levels.length := by
    intro side index
    cases side <;> simp [OrderBook.levelIndices]
  have onSide : ∀ side,
      (∃ order ∈ (List.range (book.ladder side).levels.length).flatMap (book.levelOrders side),
        order.lifetime = .day ∧ order.id = id) ↔
      ∃ order ∈ book.view.orders side, order.lifetime = .day ∧ order.id = id := by
    intro side
    simp only [book.orders_view, OrderBook.sideOrders, List.mem_flatMap, inRange]
    constructor
    · rintro ⟨order, ⟨index, inside, onList⟩, isDay⟩
      obtain ⟨priced, onPriced, isDay⟩ := (onLevel side index).mp ⟨order, onList, isDay⟩
      exact ⟨priced, ⟨index, inside, onPriced⟩, isDay⟩
    · rintro ⟨order, ⟨index, inside, onPriced⟩, isDay⟩
      obtain ⟨listed, onList, isDay⟩ := (onLevel side index).mpr ⟨order, onPriced, isDay⟩
      exact ⟨listed, ⟨index, inside, onList⟩, isDay⟩
  rw [dayIds, List.mem_map]
  simp only [List.mem_filter, List.mem_append, decide_eq_true_eq]
  constructor
  · rintro ⟨order, ⟨onBuy | onSell, day⟩, sameId⟩
    · exact ⟨.buy, (onSide .buy).mp ⟨order, onBuy, day, sameId⟩⟩
    · exact ⟨.sell, (onSide .sell).mp ⟨order, onSell, day, sameId⟩⟩
  · rintro ⟨side | side, rests⟩
    · obtain ⟨order, onBuy, day, sameId⟩ := (onSide .buy).mpr rests
      exact ⟨order, ⟨Or.inl onBuy, day⟩, sameId⟩
    · obtain ⟨order, onSell, day, sameId⟩ := (onSide .sell).mpr rests
      exact ⟨order, ⟨Or.inr onSell, day⟩, sameId⟩

/-! ## All at once -/

/-- What the session end leaves of a book. -/
structure SessionEnded (book pruned : OrderBook) : Prop where
  survivors : ∀ side index, pruned.pricedOrders side index =
    (book.pricedOrders side index).filter fun order => order.lifetime = .gtc
  mapped : ∀ id, pruned.idToOrderMap.lookup id =
    if id ∈ dayIds book then none else book.idToOrderMap.lookup id
  again : pruned.onSessionEnd = .ok ({}, pruned)

/-- The session end is the cancellation of all DAY orders in any order, keeps the GTC
orders as they are and leaves nothing for a second one. -/
theorem session_end_cancels
    (run : BookRun PublicCalls events book)
    {ids : List OrderID}
    (ordering : ids.Perm (dayIds book)) :
    ∃ report pruned calls cancelled,
      book.onSessionEnd = .ok (report, pruned) ∧
      book.perform (cancelCalls ids) = .ok (calls, cancelled) ∧
      SameContents pruned cancelled ∧
      capacityOf pruned.memoryPool = capacityOf cancelled.memoryPool ∧
      SessionEnded book pruned := by
  obtain ⟨refines, roomy⟩ := Sane.of_run safeCalls_publicCalls run
  obtain ⟨pruned, ended, prunedRefines⟩ := onSessionEnd refines roomy
  obtain ⟨calls, cancelled, performed, cancelledRefines, cancelledFrees⟩ :=
    perform_cancelCalls refines roomy ids
  have prunedFrees := frees_onSessionEnd ended
  have prunedOrders : book.view.sessionEnd.2 = book.view.prune := rfl
  rw [prunedOrders] at prunedRefines
  have isDay : ∀ id, id ∈ ids ↔
      ∃ side, ∃ order ∈ book.view.orders side, order.lifetime = .day ∧ order.id = id :=
    fun id => ordering.mem_iff.trans (mem_dayIds book id)
  rw [refines.valid.distinct.removeAll_eq_prune isDay] at cancelledRefines
  have roomyPruned : RoomyBook book.view.prune := roomy.of_sublist fun side => by
    rw [Reference.Book.orders_prune]
    exact List.filter_sublist
  refine ⟨_, pruned, calls, cancelled, ended, performed,
    sameContents_of_refines prunedRefines cancelledRefines roomyPruned
      (prunedFrees.idToOrderMap_eq cancelledFrees prunedRefines cancelledRefines),
    prunedFrees.capacity.trans cancelledFrees.capacity.symm, ?_, ?_, ?_⟩
  · intro side index
    rw [prunedRefines.pricedOrders_eq, refines.pricedOrders_eq, Reference.Book.orders_prune,
      queueAt_filter]
    refine List.filter_congr fun order _ => ?_
    cases order.lifetime <;> rfl
  · intro id
    have survives := refines.valid.distinct.contains_prune id
    rw [← prunedRefines.mem_idMap, ← refines.mem_idMap, ← mem_dayIds] at survives
    by_cases day : id ∈ dayIds book
    · rw [if_pos day, Finmap.lookup_eq_none, survives]
      exact fun kept => kept.2 day
    · rw [if_neg day]
      by_cases present : id ∈ book.idToOrderMap
      · obtain ⟨address, found⟩ := Finmap.mem_iff.mp (survives.mpr ⟨present, day⟩)
        rw [found, prunedFrees.lookup id address found]
      · rw [Finmap.lookup_eq_none.mpr present, Finmap.lookup_eq_none, survives]
        exact fun kept => present kept.1
  · refine onSessionEnd_of_kept prunedRefines roomyPruned fun side order member => ?_
    rw [Reference.Book.orders_prune, List.mem_filter] at member
    exact of_decide_eq_true member.2

theorem session_end_cancels_sample :
    ∃ report pruned calls cancelled,
      sampleSession.2.onSessionEnd = .ok (report, pruned) ∧
      sampleSession.2.perform (cancelCalls [2, 6]) = .ok (calls, cancelled) ∧
      SameContents pruned cancelled ∧
      capacityOf pruned.memoryPool = capacityOf cancelled.memoryPool ∧
      SessionEnded sampleSession.2 pruned :=
  session_end_cancels sampleRun_public (by decide +kernel)

end Properties
end MatchingEngine
