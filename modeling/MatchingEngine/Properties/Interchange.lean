import MatchingEngine.Properties.Relabelling

/-!
# Books with the same orders are interchangeable

What a book answers depends only on the orders on its levels.  How they came
there, which blocks of the pool they live in and how large the pool has grown
cannot be told from any query or from any later call.
-/

namespace MatchingEngine
namespace Properties

open OrderBook (BookRun PublicCalls sampleConfig sampleSession sampleRun_public session
  run_of_session)
open Reference (Relabelling)
open Refinement

variable {book left right : OrderBook} {spec : Reference.Book}
variable {events leftEvents rightEvents : List (Event OrderBook Operation Output)}

/-! ## Answers -/

/-- Every query returns the same on both books. -/
structure AnswersAlike (left right : OrderBook) : Prop where
  numOrders : left.getNumOrders = right.getNumOrders
  currAlloc : left.getMemoryPoolCurrAlloc = right.getMemoryPoolCurrAlloc
  bestBid : left.getBestBidPrice = right.getBestBidPrice
  bestAsk : left.getBestAskPrice = right.getBestAskPrice
  numLevelsBids : left.getNumLevelsBids = right.getNumLevelsBids
  numLevelsAsks : left.getNumLevelsAsks = right.getNumLevelsAsks
  topBids : ∀ depth, left.getTopBidLevels depth = right.getTopBidLevels depth
  topAsks : ∀ depth, left.getTopAskLevels depth = right.getTopAskLevels depth
  numOrdersAt : ∀ price side, left.getNumOrdersAtLevel price side =
    right.getNumOrdersAtLevel price side
  numSharesAt : ∀ price side, left.getNumSharesAtLevel price side =
    right.getNumSharesAtLevel price side
  levelExists : ∀ price side, left.checkLevelExists price side =
    right.checkLevelExists price side

/-- Answers with the same prices are the same answers. -/
theorem AnswersRelabelled.alike
    {prices : Price → Price}
    (answers : AnswersRelabelled prices left right)
    (samePrices : ∀ price, prices price = price) :
    AnswersAlike left right := by
  obtain rfl : prices = id := funext samePrices
  have sameTop : ∀ levels : Except Fault (List (Price × Volume)),
      levels.map (List.map (Prod.map id id)) = levels := by
    intro levels
    cases levels with
    | error fault => rfl
    | ok entries => exact congrArg Except.ok (List.map_id _)
  refine ⟨answers.numOrders.symm, answers.currAlloc.symm, ?_, ?_, answers.numLevelsBids.symm,
    answers.numLevelsAsks.symm, fun depth => ?_, fun depth => ?_,
    fun price side => (answers.numOrdersAt price side).symm,
    fun price side => (answers.numSharesAt price side).symm,
    fun price side => (answers.levelExists price side).symm⟩
  · rw [answers.bestBid, Option.map_id]
    rfl
  · rw [answers.bestAsk, Option.map_id]
    rfl
  · rw [answers.topBids, sameTop]
  · rw [answers.topAsks, sameTop]

/-- Books that stand for one reference book answer every query alike. -/
theorem answersAlike_of_refines
    (leftRefines : Refines left spec)
    (rightRefines : Refines right spec)
    (roomy : RoomyBook spec) :
    AnswersAlike left right := by
  rw [← Relabelling.book_identity spec] at rightRefines
  exact (answersRelabelled_of_refines leftRefines rightRefines roomy).alike fun _ => rfl

/-! ## Later calls -/

/-- Whatever calls are made on one book, within the capacity of its levels, the other book
returns the same from each of them, unless its pool runs out, and has the same orders and
answers afterwards. -/
def FollowsAlike (left right : OrderBook) : Prop :=
  ∀ operations : List Operation, (∀ operation ∈ operations, operation.PositiveQuantities) →
    ∀ events last, left.perform operations = .ok (events, last) →
      (∀ event ∈ events, event.after.WithinCapacity) →
      RunsOut right operations ∨
      ∃ events' last', right.perform operations = .ok (events', last') ∧
        events'.map Event.output = events.map Event.output ∧
        last'.view = last.view ∧ AnswersAlike last last'

theorem followsAlike_of_refines
    (leftRefines : Refines left spec)
    (rightRefines : Refines right spec)
    (roomy : RoomyBook spec) :
    FollowsAlike left right := by
  intro operations positive events last performed capacity
  have along := roomyAlong_of_perform leftRefines roomy positive performed capacity
  have returned : ∃ events' last', left.perform operations = .ok (events', last') ∧
      events'.map Event.output = (spec.executeAll operations).1 ∧
      Refines last' (spec.executeAll operations).2 := by
    refine (leftRefines.perform along positive).resolve_left fun runsOut => ?_
    cases runsOut.perform.symm.trans performed
  obtain ⟨_, _, performed', leftOutputs, lastRefines⟩ := returned
  obtain ⟨rfl, rfl⟩ := Prod.mk.inj (Except.ok.inj (performed'.symm.trans performed))
  refine (rightRefines.perform along positive).imp_right ?_
  rintro ⟨events', last', reached, rightOutputs, lastRefines'⟩
  exact ⟨events', last', reached, rightOutputs.trans leftOutputs.symm,
    lastRefines'.view_eq.trans lastRefines.view_eq.symm,
    answersAlike_of_refines lastRefines lastRefines' (along operations (List.prefix_refl _))⟩

/-- The orders that rest at the end of the sample session, submitted at once. -/
def directCalls : List Operation :=
  [.submitLimitOrder ⟨6, 1, 3, .buy, .day⟩,
    .submitLimitOrder ⟨1, 3, 3, .sell, .gtc⟩,
    .submitLimitOrder ⟨2, 4, 6, .sell, .day⟩]

/-- The events of the direct calls, and the book at their end. -/
def directSession : List (Event OrderBook Operation Output) × OrderBook :=
  (session sampleConfig directCalls).toOption.get (by decide +kernel)

theorem directRun : BookRun PublicCalls directSession.1 directSession.2 :=
  run_of_session sampleConfig directCalls rfl (by decide +kernel) (by decide +kernel)

end Properties
end MatchingEngine
