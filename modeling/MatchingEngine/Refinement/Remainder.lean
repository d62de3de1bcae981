import MatchingEngine.Refinement.Passive

/-!
# Where a matching loop leaves its taker

What a loop has not filled can be submitted again as an order of its own.  Where the
order may rest, the remainder trades with nobody and rests.
-/

namespace MatchingEngine
namespace OrderBook

open Refinement

variable {book : OrderBook} {matchingSide : Side} {takes : Price → Bool}

/-- What one loop leaves to a second one: no maker that the taker would accept, no new
order, and the shares that it has not filled. -/
structure LeavesRemainder
    (matchingSide : Side) (takes : Price → Bool) (book : OrderBook)
    (remainingShares : Quantity) (subResult : SubmissionResult) (exit : LoopExit) : Prop where
  minPrice : exit.book.minPrice = book.minPrice
  maxPrice : exit.book.maxPrice = book.maxPrice
  absent : ∀ id, id ∉ book.idToOrderMap → id ∉ exit.book.idToOrderMap
  quantityRequested : exit.subResult.quantityRequested = subResult.quantityRequested
  filledRange : InInt32 exit.subResult.quantityFilled
  returned : exit.returned = true →
    exit.subResult.quantityFilled = toInt32 (remainingShares + subResult.quantityFilled)
  left : exit.returned = false →
    exit.remainingShares = toInt32
        (remainingShares + subResult.quantityFilled - exit.subResult.quantityFilled) ∧
      (0 < exit.remainingShares →
        ∀ bestPrice ∈ (exit.book.ladder matchingSide).bestPrice, takes bestPrice = false)

theorem Iterations.leavesRemainder
    {remainingShares : Quantity} {subResult : SubmissionResult} {exit : LoopExit}
    (iterations : Iterations matchingSide takes book remainingShares subResult exit)
    (remainingRange : InInt32 remainingShares)
    (filledRange : InInt32 subResult.quantityFilled) :
    LeavesRemainder matchingSide takes book remainingShares subResult exit := by
  induction iterations with
  | @stop book remainingShares subResult nothingToTake =>
      refine ⟨rfl, rfl, fun _ => id, rfl, filledRange, nofun, fun _ => ⟨?_, nothingToTake⟩⟩
      rw [add_sub_cancel_right, toInt32_of_inInt32 remainingRange]
  | @take book book' remainingShares subResult _ _ _ _ meets larger taken =>
      obtain ⟨level, heap, _, rfl⟩ := takeFromMaker_ok taken
      refine ⟨setLadder_minPrice .., setLadder_maxPrice .., fun id fresh => ?_, rfl,
        inInt32_toInt32 _, fun _ => ?_, nofun⟩
      · rw [OrderBook.setLevel, setLadder_idToOrderMap]
        exact fresh
      · exact congrArg toInt32 (add_comm ..)
  | @retire book book' remainingShares subResult exit bestPrice _ _ takingOrder meets usedUp
      retired rest inductionHypothesis =>
      obtain ⟨_, _, _, _, _, levels, _, _, _, rfl⟩ := retireMaker_ok retired
      have later := inductionHypothesis (inInt32_toInt32 _) (inInt32_toInt32 _)
      -- What leaves the taker is credited to the fill, both modulo `2 ^ 32`.
      have balance : ∀ filled : Int,
          toInt32 (toInt32 (remainingShares - takingOrder.quantity) +
              toInt32 (subResult.quantityFilled + takingOrder.quantity) - filled) =
            toInt32 (remainingShares + subResult.quantityFilled - filled) := by
        intro filled
        unfold toInt32
        lia
      refine ⟨later.minPrice.trans (setLadder_minPrice ..),
        later.maxPrice.trans (setLadder_maxPrice ..), fun id fresh => later.absent id ?_,
        later.quantityRequested, later.filledRange, fun hasReturned => ?_, fun hasLeft => ?_⟩
      · rw [setLadder_idToOrderMap]
        exact fun present => fresh (Finmap.mem_erase.mp present).2
      · rw [later.returned hasReturned]
        simpa [recordExecution] using balance 0
      · obtain ⟨left, nothingToTake⟩ := later.left hasLeft
        exact ⟨left.trans (balance _), nothingToTake⟩

end OrderBook

namespace Refinement

variable {book : OrderBook}

/-! ## Orders that may rest -/

/-- The guards do not look at the time in force. -/
theorem submitLimitOrder_immediate
    {request : LimitOrderRequest}
    (accepted : ¬ book.rejects request) :
    book.submitLimitOrder { request with tif := .ioc } =
      OrderBook.submitLimitOrderIoc request.side book { request with tif := .ioc } :=
  if_neg accepted

section Remainder

variable {request : LimitOrderRequest} {exit : OrderBook.LoopExit}
variable
  (leaves : OrderBook.LeavesRemainder request.side.opposite
    (OrderBook.crosses request.side request.price) book request.quantity
    { quantityRequested := request.quantity } exit)

include leaves

theorem full_of_returned
    (range : InInt32 request.quantity)
    (returned : exit.returned = true) :
    exit.subResult.quantityFilled = request.quantity := by
  rw [leaves.returned returned, add_zero, toInt32_of_inInt32 range]

theorem nothingLeft_iff
    (range : InInt32 request.quantity)
    (hasLeft : exit.returned = false) :
    exit.remainingShares = 0 ↔ exit.subResult.quantityFilled = request.quantity := by
  have filledRange := leaves.filledRange
  rw [(leaves.left hasLeft).1, add_zero]
  unfold InInt32 at range filledRange
  unfold toInt32
  lia

/-- The remainder of an order rests without trading. -/
theorem submitRemainder
    (mayRest : request.tif = .gtc ∨ request.tif = .day)
    (accepted : ¬ book.rejects request)
    (hasLeft : exit.returned = false)
    (remains : exit.remainingShares ≠ 0) :
    exit.book.submitLimitOrder { request with
        quantity := toInt32 (request.quantity - exit.subResult.quantityFilled) } = (do
      let last ← exit.book.restOrder request.id request.price exit.remainingShares
        (if request.tif = .gtc then .gtc else .day) request.side request.side
        (exit.book.ladder request.side).side
      .ok ({ quantityRequested := exit.remainingShares, status := .resting }, last)) := by
  obtain ⟨left, nothingToTake⟩ := leaves.left hasLeft
  rw [add_zero] at left
  have stillAccepted :
      ¬ exit.book.rejects { request with quantity := exit.remainingShares } := by
    rintro (present | above | below)
    · exact leaves.absent request.id (fun present => accepted (Or.inl present)) present
    · exact accepted (Or.inr (Or.inl (leaves.maxPrice ▸ above)))
    · exact accepted (Or.inr (Or.inr (leaves.minPrice ▸ below)))
  rw [← left]
  refine (@OrderBook.submitLimitOrder_of_mayRest exit.book
    { request with quantity := exit.remainingShares } mayRest stillAccepted).trans ?_
  unfold OrderBook.submitLimitOrderResting
  rw [runMatching_of_nothingToTake nothingToTake, ok_bind]
  simp only [Bool.false_eq_true, if_false, remains, lt_irrefl]

end Remainder

end Refinement
end MatchingEngine
