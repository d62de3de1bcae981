import MatchingEngine.Properties.Levels

/-!
# The book is never crossed

The reference book stays uncrossed under the matching operations, because a
remainder rests only when no maker is left that it would accept.  Through the
refinement this holds of the best prices of the source.  For requests whose
quantity is not positive it depends on the path that the request takes; the
second part says for which of them the book stays sound.
-/

namespace MatchingEngine
namespace Properties

open OrderBook (BookRun MatchingCalls sampleSession sampleRun)
open Refinement

variable {events : List (Event OrderBook Operation Output)} {book : OrderBook}

theorem occupied_apart
    (refines : Refines book book.view)
    (uncrossed : book.view.Uncrossed) :
    ∀ bid ∈ occupiedPrices book .buy, ∀ ask ∈ occupiedPrices book .sell, bid < ask := by
  intro bid bidOccupied ask askOccupied
  obtain ⟨bidOrder, inBids, rfl⟩ := (mem_occupiedPrices refines).mp bidOccupied
  obtain ⟨askOrder, inAsks, rfl⟩ := (mem_occupiedPrices refines).mp askOccupied
  exact uncrossed bidOrder inBids askOrder inAsks

/-- The best bid is below the best ask, unless a side is empty, and every resting bid
is priced below every resting ask. -/
theorem never_crossed (run : BookRun MatchingCalls events book) :
    (book.getBestBidPrice = none ∨ book.getBestAskPrice = none ∨
      ∃ bid ask, book.getBestBidPrice = some bid ∧ book.getBestAskPrice = some ask ∧
        bid < ask) ∧
    ∀ bid ∈ occupiedPrices book .buy, ∀ ask ∈ occupiedPrices book .sell, bid < ask := by
  obtain ⟨⟨refines, _⟩, uncrossed⟩ := uncrossed_of_run safeCalls_matchingCalls
    (fun _ _ allowed => allowed.1) run
  have apart := occupied_apart refines uncrossed
  refine ⟨?_, apart⟩
  cases bestBid : book.getBestBidPrice with
  | none => exact Or.inl rfl
  | some bid =>
      cases bestAsk : book.getBestAskPrice with
      | none => exact Or.inr (Or.inl rfl)
      | some ask =>
          refine Or.inr (Or.inr ⟨bid, ask, rfl, rfl, apart bid ?_ ask ?_⟩)
          · exact ((bestPrice_eq_some refines .buy).mp bestBid).1
          · exact ((bestPrice_eq_some refines .sell).mp bestAsk).1

theorem never_crossed_sample :
    sampleSession.2.getBestBidPrice = none ∨ sampleSession.2.getBestAskPrice = none ∨
      ∃ bid ask, sampleSession.2.getBestBidPrice = some bid ∧
        sampleSession.2.getBestAskPrice = some ask ∧ bid < ask :=
  (never_crossed sampleRun).1

/-! ## Quantities that are not positive -/

/-- Every matching operation, with any `std::int32_t` quantity. -/
def AnyQuantityCalls (_ : OrderBook) (operation : Operation) : Prop :=
  operation.IsMatching ∧ operation.RepresentableQuantities

instance (book : OrderBook) : DecidablePred (AnyQuantityCalls book) := fun operation =>
  inferInstanceAs
    (Decidable (operation.IsMatching ∧ operation.RepresentableQuantities))

/-- A limit request that passes the guard has a quantity that its path can handle:
at least zero where a remainder rests, and more than zero where the liquidity is
scanned. -/
def HandledQuantity (book : OrderBook) : Operation → Prop
  | .submitLimitOrder limitRequest =>
      book.rejects limitRequest ∨
        match limitRequest.tif with
        | .gtc | .day => 0 ≤ limitRequest.quantity
        | .ioc => True
        | .fok => 0 < limitRequest.quantity
  | _ => True

instance (book : OrderBook) : DecidablePred (HandledQuantity book) := fun operation =>
  match operation with
  | .submitLimitOrder ⟨_, _, _, _, .gtc⟩ | .submitLimitOrder ⟨_, _, _, _, .day⟩ =>
      inferInstanceAs (Decidable (_ ∨ 0 ≤ (_ : Int)))
  | .submitLimitOrder ⟨_, _, _, _, .ioc⟩ => inferInstanceAs (Decidable (_ ∨ True))
  | .submitLimitOrder ⟨_, _, _, _, .fok⟩ =>
      inferInstanceAs (Decidable (_ ∨ 0 < (_ : Int)))
  | .submitMarketOrder _ | .cancelOrder _ | .modifyOrder _ | .onSessionEnd
  | .replayAddVisibleOrder .. | .replayDeleteVisibleOrder _ | .replayReduceVisibleOrder ..
  | .replayReplaceVisibleOrder .. => .isTrue trivial

/-- Matching calls with any quantities that the engine handles. -/
def HandledCalls (book : OrderBook) (operation : Operation) : Prop :=
  AnyQuantityCalls book operation ∧ HandledQuantity book operation

instance (book : OrderBook) : DecidablePred (HandledCalls book) := fun operation =>
  inferInstanceAs (Decidable (AnyQuantityCalls book operation ∧ _))

theorem safeCalls_handledCalls : SafeCalls HandledCalls := by
  rintro book operation refines ⟨⟨isMatching, representable⟩, handled⟩
  cases operation with
  | submitLimitOrder limitRequest =>
      refine ⟨representable.2, ?_⟩
      rcases handled with rejects | sign
      · exact Or.inl ((rejects_iff refines limitRequest).mp rejects)
      · exact Or.inr sign
  | submitMarketOrder => exact representable.2
  | modifyOrder => exact representable.2
  | cancelOrder | onSessionEnd => trivial
  | replayAddVisibleOrder | replayDeleteVisibleOrder | replayReduceVisibleOrder
  | replayReplaceVisibleOrder => exact isMatching.elim

/-- In every run of matching operations whose quantities are handled, only orders of
at least one share rest, every cached volume is exact, the book is not crossed,
and no assertion fails. -/
theorem handled_quantities_sound (run : BookRun HandledCalls events book) :
    (∀ side index, ∀ order ∈ book.levelOrders side index, 1 ≤ order.quantity) ∧
    (∀ side (index : Nat) (level : PriceLevel),
      (book.ladder side).levels[index]? = some level →
        (level.totalVolume : Int) =
          ((book.levelOrders side index).map RestingOrder.quantity).sum) ∧
    (∀ bid ∈ occupiedPrices book .buy, ∀ ask ∈ occupiedPrices book .sell, bid < ask) ∧
    ∀ operation, HandledCalls book operation →
      book.execute operation ≠ .error .assertionFailed := by
  obtain ⟨⟨refines, roomy⟩, uncrossed⟩ := uncrossed_of_run safeCalls_handledCalls
    (fun _ _ allowed => allowed.1.1) run
  refine ⟨fun side index order member => ?_,
    fun side index level => totalVolume_exact refines roomy,
    occupied_apart refines uncrossed, fun operation handled failed => ?_⟩
  · have quantity := List.mem_map_of_mem (f := RestingOrder.quantity) member
    rw [← OrderBook.map_pricedOrders Reference.Order.quantity fun _ _ => rfl,
      refines.pricedOrders_eq] at quantity
    obtain ⟨resting, inQueue, equal⟩ := List.mem_map.mp quantity
    rw [← equal]
    exact refines.valid.positive side resting (mem_queueAt.mp inQueue).1
  · have safe := safeCalls_handledCalls book operation refines handled
    rcases execute_simulates refines roomy safe with ⟨_, exhausted⟩ | ⟨next, returned, _⟩
    · rw [failed] at exhausted
      cases exhausted
    · rw [failed] at returned
      cases returned

/-- Quantities of zero and below on the paths that handle them. -/
theorem handled_quantities_sound_sample :
    ∃ events book, BookRun HandledCalls events book ∧
      (∀ order ∈ book.levelOrders .buy 1, 1 ≤ order.quantity) := by
  let calls : List Operation :=
    [.submitLimitOrder ⟨1, 0, 5, .buy, .gtc⟩, .submitLimitOrder ⟨2, 0, -3, .sell, .ioc⟩,
      .submitLimitOrder ⟨3, 1, 0, .sell, .day⟩, .submitMarketOrder ⟨4, -7, .sell⟩,
      .submitLimitOrder ⟨1, 0, -1, .sell, .fok⟩, .modifyOrder ⟨2, -2, 0⟩]
  have run : BookRun HandledCalls _ _ :=
    OrderBook.run_of_session OrderBook.sampleConfig calls rfl
      (by decide +kernel) (by decide +kernel)
  exact ⟨_, _, run, (handled_quantities_sound run).1 .buy 1⟩

/-- A GTC order for minus five shares rests, as an order of that size on a level whose
volume has wrapped, and a FOK order for no shares fails an assertion. -/
theorem negative_quantity_rests :
    ∃ events book, BookRun AnyQuantityCalls events book ∧
      ¬ (∀ side index, ∀ order ∈ book.levelOrders side index, 1 ≤ order.quantity) ∧
      (book.ladder .buy).levels[1]?.map PriceLevel.totalVolume =
        some 18446744073709551611 ∧
      book.execute (.submitLimitOrder ⟨2, 0, 0, .buy, .fok⟩) = .error .assertionFailed := by
  let calls : List Operation := [.submitLimitOrder ⟨1, 0, -5, .buy, .gtc⟩]
  have run : BookRun AnyQuantityCalls _ _ :=
    OrderBook.run_of_session OrderBook.sampleConfig calls rfl
      (by decide +kernel) (by decide +kernel)
  refine ⟨_, _, run, fun positive => ?_, by decide +kernel, rfl⟩
  exact absurd (positive .buy 1) (by decide +kernel)

end Properties
end MatchingEngine
