import MatchingEngine.Reference.Splitting
import MatchingEngine.Refinement.Contents
import MatchingEngine.Refinement.Run

/-!
# Splitting a taker

A taker whose remainder is dropped can be submitted in two parts.  The second part
finds what the first one has left, and the two lists of executions are the list of
the whole, but for a maker that the cut falls into: it is reported in both parts.
-/

namespace MatchingEngine
namespace Properties

open OrderBook (BookRun PublicCalls sampleSession sampleRun_public)
open Refinement
open Fill (joinWith mergeTaken)
open Reference (Order)
open Reference.Book (execution report)

variable {book : OrderBook} {spec : Reference.Book}
variable {side : Side} {takes : Price → Bool} {q₁ q₂ : Quantity}

/-! ## Results -/

/-- Two reports about one maker are one execution of both quantities. -/
def mergeExecutions (last head : ExecutionResult) : Option ExecutionResult :=
  if last.makerOrderID = head.makerOrderID then
    some { last with executedQuantity := last.executedQuantity + head.executedQuantity }
  else none

/-- The results of two parts together are the result of the whole, in which no maker is
reported twice. -/
structure Splits (first second whole : SubmissionResult) : Prop where
  quantityFilled : first.quantityFilled + second.quantityFilled = whole.quantityFilled
  executions : joinWith mergeExecutions first.executions second.executions = whole.executions
  distinct : (whole.executions.map ExecutionResult.makerOrderID).Nodup

theorem map_execution_mergeTaken (last head : Order × Quantity) :
    (mergeTaken Order.id last head).map execution =
      mergeExecutions (execution last) (execution head) := by
  by_cases same : last.1.id = head.1.id <;>
    simp [mergeTaken, mergeExecutions, execution, same]

theorem splits_report
    (valid : spec.Valid)
    (firstNonneg : 0 ≤ q₁)
    (secondNonneg : 0 ≤ q₂)
    (status₁ status₂ status : SubmitStatus) :
    Splits (report (spec.matching side takes q₁) q₁ status₁)
      (report ((spec.afterMatching side takes q₁).matching side takes q₂) q₂ status₂)
      (report (spec.matching side takes (q₁ + q₂)) (q₁ + q₂) status) := by
  have whole := @Reference.Book.Valid.matching_add spec side takes q₁ q₂ valid firstNonneg
    secondNonneg
  refine ⟨?_, ?_, valid.nodup_executions _⟩
  · rw [report, report, report, Reference.Book.matching_afterMatching]
    exact (Fill.total_fill_add firstNonneg secondNonneg Order.shrinks_reduce
      ((valid.distinct.side side).sublist (List.filter_sublist.map Order.id))).symm
  · simp only [report, whole]
    exact (Fill.map_joinWith map_execution_mergeTaken _ _).symm

/-! ## Every reachable book -/

/-- Submitting two parts one after the other has the effect of submitting the whole. -/
def SplitsTaker
    (book : OrderBook) (first second whole : OrderBook →
      Except Fault (SubmissionResult × OrderBook)) : Prop :=
  ∃ firstResult middle secondResult left wholeResult right,
    first book = .ok (firstResult, middle) ∧
    second middle = .ok (secondResult, left) ∧
    whole book = .ok (wholeResult, right) ∧
    SameContents left right ∧
    Splits firstResult secondResult wholeResult

/-- What a taker does whose remainder is dropped. -/
structure Drops
    (submit : OrderBook → Except Fault (SubmissionResult × OrderBook)) (side : Side)
    (takes : Price → Bool) (quantity : Quantity) (spec : Reference.Book) : Prop where
  simulates : ∀ {book}, Refines book spec → RoomyBook spec →
    Simulates (submit book)
      (report (spec.matching side takes quantity) quantity
        (Reference.Book.droppedStatus
          (quantity - (spec.matching side takes quantity).total) quantity),
        spec.afterMatching side takes quantity)
  frees : ∀ {book result book'}, Refines book spec → submit book = .ok (result, book') →
    Frees book book'

theorem splitsTaker_of_drops
    {first second whole : OrderBook → Except Fault (SubmissionResult × OrderBook)}
    (sane : Sane book)
    (downward : Reference.Downward side takes)
    (firstNonneg : 0 ≤ q₁)
    (secondNonneg : 0 ≤ q₂)
    (firstDrops : Drops first side takes q₁ book.view)
    (secondDrops : Drops second side takes q₂ (book.view.afterMatching side takes q₁))
    (wholeDrops : Drops whole side takes (q₁ + q₂) book.view) :
    SplitsTaker book first second whole := by
  have valid := sane.refines.valid
  have middleRoomy := sane.roomy.afterMatching sane.refines downward q₁
  obtain ⟨middle, returned₁, refines₁⟩ := firstDrops.simulates sane.refines sane.roomy
  obtain ⟨left, returned₂, refines₂⟩ := secondDrops.simulates refines₁ middleRoomy
  obtain ⟨right, returned, refines⟩ := wholeDrops.simulates sane.refines sane.roomy
  have sameBook : (book.view.afterMatching side takes q₁).afterMatching side takes q₂ =
      book.view.afterMatching side takes (q₁ + q₂) :=
    valid.afterMatching_add firstNonneg secondNonneg
  have leftFrees := (firstDrops.frees sane.refines returned₁).trans
    (secondDrops.frees refines₁ returned₂)
  have rightFrees := wholeDrops.frees sane.refines returned
  simp only [sameBook] at refines₂
  refine ⟨_, middle, _, left, _, right, returned₁, returned₂, returned, ?_,
    splits_report valid firstNonneg secondNonneg _ _ _⟩
  exact sameContents_of_refines refines₂ refines
    (sane.roomy.afterMatching sane.refines downward _)
    (leftFrees.idToOrderMap_eq rightFrees refines₂ refines)

theorem drops_ioc
    {request : LimitOrderRequest}
    (range : request.quantity ≤ 2147483647)
    (ioc : request.tif = .ioc)
    (accepted : ¬ spec.Rejects request) :
    Drops (fun book => book.submitLimitOrder request) request.side.opposite
      (Reference.Book.accepts request.side request.price) request.quantity spec := by
  have immediate : ∀ {book}, Refines book spec → book.submitLimitOrder request =
      OrderBook.submitLimitOrderIoc request.side book request := by
    intro book refines
    unfold OrderBook.submitLimitOrder
    rw [if_neg fun rejects => accepted ((rejects_iff refines request).mp rejects)]
    simp only [ioc]
  refine ⟨fun refines roomy => ?_, fun refines returned => ?_⟩
  · simp only [immediate refines]
    exact submitLimitOrderIoc refines roomy range
  · simp only [immediate refines] at returned
    exact frees_submitLimitOrderIoc returned

theorem drops_market
    {request : MarketOrderRequest}
    (range : request.quantity ≤ 2147483647)
    (fresh : ¬ spec.Contains request.id) :
    Drops (fun book => book.submitMarketOrder request) request.side.opposite (fun _ => true)
      request.quantity spec := by
  refine ⟨fun refines roomy => ?_, fun _ returned => frees_submitMarketOrder returned⟩
  have simulates := submitMarketOrder refines roomy range
  unfold Reference.Book.submitMarket at simulates
  rwa [if_neg fresh] at simulates

variable {events : List (Event OrderBook Operation Output)}

/-- Splitting an order that never rests changes neither the book nor, but for a maker that
the cut falls into, the executions. -/
theorem split_taker
    (run : BookRun PublicCalls events book)
    {firstId secondId wholeId : OrderID}
    (firstFresh : firstId ∉ book.idToOrderMap)
    (secondFresh : secondId ∉ book.idToOrderMap)
    (wholeFresh : wholeId ∉ book.idToOrderMap)
    (firstPositive : 1 ≤ q₁)
    (secondPositive : 1 ≤ q₂)
    (range : q₁ + q₂ ≤ 2147483647) :
    (∀ price, book.minPrice ≤ price → price ≤ book.maxPrice →
      SplitsTaker book
        (fun book => book.submitLimitOrder ⟨firstId, price, q₁, side, .ioc⟩)
        (fun book => book.submitLimitOrder ⟨secondId, price, q₂, side, .ioc⟩)
        (fun book => book.submitLimitOrder ⟨wholeId, price, q₁ + q₂, side, .ioc⟩)) ∧
    SplitsTaker book
      (fun book => book.submitMarketOrder ⟨firstId, q₁, side⟩)
      (fun book => book.submitMarketOrder ⟨secondId, q₂, side⟩)
      (fun book => book.submitMarketOrder ⟨wholeId, q₁ + q₂, side⟩) := by
  have sane := Sane.of_run safeCalls_publicCalls run
  have absent : ∀ {id}, id ∉ book.idToOrderMap → ¬ book.view.Contains id := fun fresh present =>
    fresh (sane.refines.mem_idMap.mpr present)
  have firstNonneg : 0 ≤ q₁ := by lia
  have secondNonneg : 0 ≤ q₂ := by lia
  have firstRange : q₁ ≤ 2147483647 := by lia
  have secondRange : q₂ ≤ 2147483647 := by lia
  refine ⟨fun price lower upper => ?_, ?_⟩
  · have accepted : ∀ {spec : Reference.Book} {id : OrderID} (quantity : Quantity),
        spec.minPrice = book.minPrice → spec.maxPrice = book.maxPrice → ¬ spec.Contains id →
        ¬ spec.Rejects ⟨id, price, quantity, side, .ioc⟩ := by
      rintro spec id quantity minPrice maxPrice fresh (present | above | below)
      · exact fresh present
      · exact above.not_ge (upper.trans_eq maxPrice.symm)
      · exact below.not_ge (minPrice.trans_le lower)
    exact splitsTaker_of_drops sane (Reference.downward_accepts side price) firstNonneg
      secondNonneg (drops_ioc firstRange rfl (accepted q₁ rfl rfl (absent firstFresh)))
      (drops_ioc secondRange rfl (accepted q₂ (Reference.Book.setOrders_minPrice ..)
        (Reference.Book.setOrders_maxPrice ..) fun present =>
          absent secondFresh (Reference.Book.contains_of_afterMatching present)))
      (drops_ioc range rfl (accepted (q₁ + q₂) rfl rfl (absent wholeFresh)))
  · exact splitsTaker_of_drops sane (Reference.downward_all side.opposite) firstNonneg
      secondNonneg (drops_market firstRange (absent firstFresh))
      (drops_market secondRange fun present =>
        absent secondFresh (Reference.Book.contains_of_afterMatching present))
      (drops_market range (absent wholeFresh))

/-- The cut falls into the best ask of the sample session. -/
theorem split_taker_sample :
    SplitsTaker sampleSession.2
        (fun book => book.submitLimitOrder ⟨7, 3, 2, .buy, .ioc⟩)
        (fun book => book.submitLimitOrder ⟨8, 3, 9, .buy, .ioc⟩)
        (fun book => book.submitLimitOrder ⟨9, 3, 11, .buy, .ioc⟩) ∧
      SplitsTaker sampleSession.2
        (fun book => book.submitMarketOrder ⟨7, 2, .buy⟩)
        (fun book => book.submitMarketOrder ⟨8, 9, .buy⟩)
        (fun book => book.submitMarketOrder ⟨9, 11, .buy⟩) := by
  have firstFresh : 7 ∉ sampleSession.2.idToOrderMap := by decide +kernel
  have secondFresh : 8 ∉ sampleSession.2.idToOrderMap := by decide +kernel
  have wholeFresh : 9 ∉ sampleSession.2.idToOrderMap := by decide +kernel
  obtain ⟨limits, market⟩ := @split_taker _ .buy 2 9 _ sampleRun_public 7 8 9 firstFresh
    secondFresh wholeFresh (by decide) (by decide) (by decide)
  exact ⟨limits 3 (by decide +kernel) (by decide +kernel), market⟩

end Properties
end MatchingEngine
