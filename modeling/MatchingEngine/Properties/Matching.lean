import MatchingEngine.Refinement.Run

/-!
# Submissions in every reachable book

What a submission returns and what book it leaves, in every book that a run of
the public operations reaches: those of the reference book for the kinds that
may be filled in part, all or nothing for the others.
-/

namespace MatchingEngine
namespace Properties

open OrderBook (BookRun PublicCalls sampleSession sampleRun_public)
open Reference (Order)
open Refinement

variable {events : List (Event OrderBook Operation Output)} {book : OrderBook}

/-! ## Price-time priority -/

/-- A submission returns the answer of the reference, and the book that it leaves
has the orders of the reference on its levels and their ids in its map. -/
def Agrees
    (result : Except Fault (SubmissionResult × OrderBook))
    (expected : SubmissionResult × Reference.Book) : Prop :=
  ∃ next,
    result = .ok (expected.1, next) ∧
    next.view = expected.2 ∧
    ∀ id, id ∈ next.idToOrderMap ↔ expected.2.Contains id

theorem Agrees.of_simulates
    {result : Except Fault (SubmissionResult × OrderBook)}
    {expected : SubmissionResult × Reference.Book}
    (simulates : Simulates result expected) :
    Agrees result expected := by
  obtain ⟨next, returned, refines⟩ := simulates
  exact ⟨next, returned, refines.view_eq, fun _ => refines.mem_idMap⟩

/-- Accepted GTC, DAY and IOC requests and market requests are matched in
price-time priority.  The one other outcome is a remainder that cannot rest
because the pool is exhausted and no storage is to be had. -/
theorem submissions_agree
    (run : BookRun PublicCalls events book) :
    (∀ request : LimitOrderRequest, request.tif ≠ .fok →
      1 ≤ request.quantity → InInt32 request.quantity → ¬ book.rejects request →
        Agrees (book.submitLimitOrder request) (book.view.submitLimit request) ∨
        request.tif ≠ .ioc ∧ book.memoryPool.firstFree = none ∧
          book.submitLimitOrder request = .error .badAlloc) ∧
    ∀ request : MarketOrderRequest,
      1 ≤ request.quantity → InInt32 request.quantity → request.id ∉ book.idToOrderMap →
        Agrees (book.submitMarketOrder request) (book.view.submitMarket request) := by
  obtain ⟨refines, roomy⟩ := Sane.of_run safeCalls_publicCalls run
  constructor
  · intro request notFok positive range accepted
    have quantities : (Operation.submitLimitOrder request).PositiveQuantities :=
      ⟨positive, range⟩
    have safe : book.view.Safe (.submitLimitOrder request) :=
      Reference.Book.Safe.of_positive quantities book.view
    by_cases immediate : request.tif = .ioc
    · have notRejected := (rejects_iff refines request).not.mp accepted
      have simulates := submitLimitOrderIoc refines roomy range.2
      refine Or.inl (Agrees.of_simulates ?_)
      rw [OrderBook.submitLimitOrder, if_neg accepted, Reference.Book.submitLimit,
        if_neg notRejected, immediate]
      exact simulates
    · rcases submitLimitOrder refines roomy safe with ⟨noFree, exhausted⟩ | simulates
      · exact Or.inr ⟨immediate, not_not.mp noFree, exhausted⟩
      · exact Or.inl (Agrees.of_simulates simulates)
  · intro request _ range _
    exact Agrees.of_simulates (submitMarketOrder refines roomy range.2)

/-- A bid that takes one ask and rests with what is left, and a market bid that
takes all of one ask and part of the next. -/
theorem submissions_agree_sample :
    Agrees (sampleSession.2.submitLimitOrder ⟨7, 3, 5, .buy, .gtc⟩)
        (sampleSession.2.view.submitLimit ⟨7, 3, 5, .buy, .gtc⟩) ∧
      Agrees (sampleSession.2.submitMarketOrder ⟨7, 5, .buy⟩)
        (sampleSession.2.view.submitMarket ⟨7, 5, .buy⟩) := by
  obtain ⟨limits, markets⟩ := submissions_agree sampleRun_public
  constructor
  · refine (limits ⟨7, 3, 5, .buy, .gtc⟩ (by decide) (by decide) (by decide)
      (by decide +kernel)).resolve_right ?_
    rintro ⟨_, noFree, _⟩
    exact absurd noFree (by decide +kernel)
  · exact markets ⟨7, 5, .buy⟩ (by decide) (by decide) (by decide +kernel)

/-! ## All or nothing -/

/-- A FOK request is filled exactly when an IOC request would be, and then with the
same executions and the same book; otherwise it leaves the book as it is.  The
scan before it stays within the ladder and does not wrap, and no assertion
fails. -/
theorem fillOrKill_all_or_nothing
    (run : BookRun PublicCalls events book)
    {id : OrderID} {price : Price} {quantity : Quantity}
    (side : Side)
    (fresh : id ∉ book.idToOrderMap)
    (inRange : book.minPrice ≤ price ∧ price ≤ book.maxPrice)
    (positive : 1 ≤ quantity)
    (range : InInt32 quantity) :
    ∃ fok fokBook ioc iocBook sufficient,
      book.submitLimitOrder ⟨id, price, quantity, side, .fok⟩ = .ok (fok, fokBook) ∧
      book.submitLimitOrder ⟨id, price, quantity, side, .ioc⟩ = .ok (ioc, iocBook) ∧
      (fok.status = .filled ↔ ioc.status = .filled) ∧
      (fok.status = .filled →
        fok.executions = ioc.executions ∧ fok.quantityFilled = ioc.quantityFilled ∧
          fokBook = iocBook) ∧
      (fok.status ≠ .filled →
        fok.status = .killed ∧ fok.executions = [] ∧ fokBook = book) ∧
      (book.ladder side.opposite).hasSufficientMarketableLiquidity price quantity =
        .ok ⟨sufficient, false⟩ := by
  obtain ⟨refines, roomy⟩ := Sane.of_run safeCalls_publicCalls run
  obtain ⟨addr, free, core⟩ := refines.core
  have downward := Reference.downward_accepts side price
  have scan := (core.holds side.opposite).hasSufficientMarketableLiquidity
    (roomy _) (refines.best _) (refines.inRange _ (refines.minPrice ▸ refines.maxPrice ▸ inRange))
    positive range.2
  rw [liquidityWithin_eq_offered] at scan
  have total := total_matching refines side.opposite (Reference.Book.accepts side price) quantity
  obtain ⟨exit, matchingRun, _, matched⟩ := runMatching refines roomy downward range.2
  generalize Fill.offered Order.quantity ((book.view.orders side.opposite).filter
    fun order => Reference.Book.accepts side price order.price) = offered at scan total
  generalize book.view.matching side.opposite (Reference.Book.accepts side price) quantity =
    outcome at total matched
  have accepted : ∀ tif, ¬ book.rejects ⟨id, price, quantity, side, tif⟩ := by
    rintro tif (present | above | below)
    · exact fresh present
    · exact above.not_ge inRange.2
    · exact below.not_ge inRange.1
  have immediate : book.submitLimitOrder ⟨id, price, quantity, side, .ioc⟩ = .ok
      (Reference.Book.report outcome quantity
        (Reference.Book.droppedStatus (quantity - outcome.total) quantity), exit.book) := by
    rw [OrderBook.submitLimitOrder, if_neg (accepted _)]
    change OrderBook.submitLimitOrderIoc side book ⟨id, price, quantity, side, .ioc⟩ = _
    rw [OrderBook.submitLimitOrderIoc, crosses_eq_accepts, matchingRun, ok_bind]
    exact matched.dropped
  have allOrNothing : book.submitLimitOrder ⟨id, price, quantity, side, .fok⟩ =
      if quantity ≤ offered then
        .ok (Reference.Book.report outcome quantity .filled, exit.book)
      else .ok ({ quantityRequested := quantity, status := .killed }, book) := by
    rw [OrderBook.submitLimitOrder, if_neg (accepted _)]
    change OrderBook.submitLimitOrderFok side book ⟨id, price, quantity, side, .fok⟩ = _
    rw [OrderBook.submitLimitOrderFok, scan, ok_bind, crosses_eq_accepts, matchingRun,
      ok_bind]
    by_cases enough : quantity ≤ offered
    · simp only [enough, decide_true, not_true_eq_false, if_false, if_true]
      exact matched.full (by lia)
    · simp only [enough, decide_false, Bool.false_eq_true, not_false_eq_true, if_true,
        if_false]
  by_cases enough : quantity ≤ offered
  · have exact : outcome.total = quantity := by lia
    rw [if_pos enough] at allOrNothing
    refine ⟨_, _, _, _, _, allOrNothing, immediate, ?_, fun _ => ⟨rfl, rfl, rfl⟩,
      fun notFilled => absurd rfl notFilled, scan⟩
    simp [Reference.Book.report, Reference.Book.droppedStatus, exact]
  · have short : quantity - outcome.total ≠ 0 := by lia
    rw [if_neg enough] at allOrNothing
    refine ⟨_, _, _, _, _, allOrNothing, immediate, ?_, fun filled => ?_,
      fun _ => ⟨rfl, rfl, rfl⟩, scan⟩
    · simp only [Reference.Book.report, Reference.Book.droppedStatus, short, if_false]
      split <;> simp
    · simp at filled

/-- A bid for everything on offer at two prices. -/
theorem fillOrKill_all_or_nothing_sample :
    ∃ fok fokBook ioc iocBook sufficient,
      sampleSession.2.submitLimitOrder ⟨7, 4, 9, .buy, .fok⟩ = .ok (fok, fokBook) ∧
      sampleSession.2.submitLimitOrder ⟨7, 4, 9, .buy, .ioc⟩ = .ok (ioc, iocBook) ∧
      (fok.status = .filled ↔ ioc.status = .filled) ∧
      (fok.status = .filled →
        fok.executions = ioc.executions ∧ fok.quantityFilled = ioc.quantityFilled ∧
          fokBook = iocBook) ∧
      (fok.status ≠ .filled →
        fok.status = .killed ∧ fok.executions = [] ∧ fokBook = sampleSession.2) ∧
      (sampleSession.2.ladder .sell).hasSufficientMarketableLiquidity 4 9 =
        .ok ⟨sufficient, false⟩ :=
  fillOrKill_all_or_nothing sampleRun_public .buy (by decide +kernel) (by decide +kernel)
    (by decide) (by decide)

end Properties
end MatchingEngine
