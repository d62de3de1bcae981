import MatchingEngine.Library.Transport
import MatchingEngine.Refinement.Passive
import MatchingEngine.Refinement.Replay

/-!
# Replaying and matching share one book

An order that does not cross is inserted in the same way by the replay operation and
by a submission, and an order is taken out in the same way by a cancellation, a
deletion and a reduction by all of its shares.
-/

namespace MatchingEngine
namespace Properties

open OrderBook (UnboundedRun PublicCalls crosses sampleSession sampleRun_public)
open Refinement
open Reference (Order)
open Transports (map_ok then_map ite_map)

variable {events : List (Event OrderBook Operation Output)} {book : OrderBook}
variable {spec : Reference.Book}

/-! ## Insertion -/

/-- The replay operation answers as the submission does, and leaves the same book. -/
theorem replayAddVisibleOrder_eq
    (id : OrderID) {price : Price} {quantity : Quantity} {side : Side}
    (sameSide : (book.ladder side).side = side)
    (positive : 0 < quantity)
    (passive : Passive book side price) :
    book.replayAddVisibleOrder id price quantity side =
      (book.submitLimitOrder ⟨id, price, quantity, side, .gtc⟩).map fun submitted =>
        (decide (submitted.1.status = .resting), submitted.2) := by
  have guard : (quantity = 0 ∨ id ∈ book.idToOrderMap ∨ price < book.minPrice ∨
      price > book.maxPrice) ↔ book.rejects ⟨id, price, quantity, side, .gtc⟩ := by
    rw [or_iff_right (ne_of_gt positive), OrderBook.rejects, or_comm (a := price < _)]
  unfold OrderBook.replayAddVisibleOrder OrderBook.submitLimitOrder
  rw [ite_map]
  refine if_congr guard rfl ?_
  have rested : OrderBook.submitLimitOrderResting side book ⟨id, price, quantity, side, .gtc⟩ =
      _ := submitLimitOrderResting_of_passive passive positive
  simp only [rested, sameSide, then_map]
  rfl

/-- A passive submission rests or is rejected. -/
theorem status_of_passive
    {request : LimitOrderRequest} {result : SubmissionResult} {next : OrderBook}
    (passive : Passive book request.side request.price)
    (positive : 0 < request.quantity)
    (gtc : request.tif = .gtc)
    (submitted : book.submitLimitOrder request = .ok (result, next)) :
    result.status = .resting ∨ result.status = .rejected := by
  unfold OrderBook.submitLimitOrder at submitted
  split at submitted
  · obtain ⟨rfl, _⟩ := Prod.mk.inj (Except.ok.inj submitted)
    exact Or.inr rfl
  · simp only [gtc] at submitted
    rw [submitLimitOrderResting_of_passive passive positive] at submitted
    obtain ⟨_, _, submitted⟩ := bind_eq_ok submitted
    obtain ⟨rfl, _⟩ := Prod.mk.inj (Except.ok.inj submitted)
    exact Or.inl rfl

/-- The replay operation inserts where the submission rests, and refuses where it is
rejected; both leave the same book, or fail alike. -/
structure InsertsAgree
    (book : OrderBook) (id : OrderID) (price : Price) (quantity : Quantity) (side : Side) :
    Prop where
  inserts : ∀ next, book.replayAddVisibleOrder id price quantity side = .ok (true, next) ↔
    ∃ result, book.submitLimitOrder ⟨id, price, quantity, side, .gtc⟩ = .ok (result, next) ∧
      result.status = .resting
  refuses : ∀ next, book.replayAddVisibleOrder id price quantity side = .ok (false, next) ↔
    ∃ result, book.submitLimitOrder ⟨id, price, quantity, side, .gtc⟩ = .ok (result, next) ∧
      result.status = .rejected
  fails : ∀ fault, book.replayAddVisibleOrder id price quantity side = .error fault ↔
    book.submitLimitOrder ⟨id, price, quantity, side, .gtc⟩ = .error fault

theorem insertsAgree
    (id : OrderID) {price : Price} {quantity : Quantity} {side : Side}
    (sameSide : (book.ladder side).side = side)
    (positive : 0 < quantity)
    (passive : Passive book side price) :
    InsertsAgree book id price quantity side := by
  have equal := replayAddVisibleOrder_eq id sameSide positive passive
  cases submitted : book.submitLimitOrder ⟨id, price, quantity, side, .gtc⟩ with
  | error fault =>
      rw [submitted] at equal
      constructor <;> simp [equal, submitted]
  | ok answer =>
      obtain ⟨result, after⟩ := answer
      have status : result.status = .resting ∨ result.status = .rejected :=
        status_of_passive passive positive rfl submitted
      rw [submitted, map_ok] at equal
      constructor
      all_goals
        rw [equal, submitted]
        rcases status with resting | rejected <;> simp [*]

/-! ## Removal -/

/-- Cancelling, deleting and reducing by all shares take an order out in the same way. -/
def RemovalsAgree (book : OrderBook) (id : OrderID) (quantity : Quantity) : Prop :=
  ∃ next,
    book.cancelOrder ⟨id⟩ = .ok (⟨quantity, .canceled⟩, next) ∧
      book.replayDeleteVisibleOrder id = .ok (true, next) ∧
      book.replayReduceVisibleOrder id quantity = .ok (true, next)

theorem removalsAgree
    (orderly : Orderly book spec)
    {id : OrderID} {quantity : Quantity}
    (live : book.quantityOf id = some quantity) :
    RemovalsAgree book id quantity := by
  obtain ⟨address, lookup, atAddress⟩ := Option.bind_eq_some_iff.mp live
  have present : spec.Contains id :=
    orderly.carries.mem_idMap.mp (Finmap.mem_iff.mpr ⟨address, lookup⟩)
  obtain ⟨side, order, member, rfl⟩ := Reference.Book.contains_iff.mp present
  obtain ⟨addr, _, block, _, _, _, _, found, stored, contents, _⟩ :=
    orderly.carries.resting member
  obtain rfl : address = addr order.id := Option.some.inj (lookup.symm.trans found)
  have blockQuantity : block.quantity = quantity := by
    simpa [OrderBook.orderAt, stored] using atAddress
  have orderQuantity : order.quantity = quantity :=
    (congrArg RestingOrder.quantity contents).symm.trans blockQuantity
  obtain ⟨next, cancelled, _⟩ := orderly.carries.cancelOrder_of_mem member
  have deleted : book.replayDeleteVisibleOrder order.id = .ok (true, next) := by
    rw [OrderBook.replayDeleteVisibleOrder, cancelled]
    rfl
  have positive := (orderly.sound side order member).1
  refine ⟨next, orderQuantity ▸ cancelled, deleted, ?_⟩
  unfold OrderBook.replayReduceVisibleOrder
  rw [if_neg (by lia), found]
  simp only [Heap.order_eq_ok stored, ok_bind, blockQuantity, gt_iff_lt, lt_self_iff_false,
    if_false, if_true]
  exact deleted

/-! ## Every reachable book -/

/-- In every reachable book, passive orders are inserted, and live orders taken out, by
the replay operations as by the others. -/
theorem replay_agrees_with_matching (run : UnboundedRun PublicCalls events book) :
    (∀ id price quantity side, 1 ≤ quantity → Passive book side price →
      InsertsAgree book id price quantity side) ∧
    ∀ id quantity, book.quantityOf id = some quantity → RemovalsAgree book id quantity := by
  obtain ⟨spec, orderly⟩ := orderly_of_run run
  exact ⟨fun id _ _ side positive passive =>
      insertsAgree id (orderly.carries.ladder_side side) positive passive,
    fun _ _ live => removalsAgree orderly live⟩

theorem replay_agrees_with_matching_sample :
    InsertsAgree sampleSession.2 9 2 5 .buy ∧ InsertsAgree sampleSession.2 6 2 5 .sell ∧
      RemovalsAgree sampleSession.2 6 3 := by
  obtain ⟨inserts, removals⟩ := replay_agrees_with_matching sampleRun_public.unbounded
  have bestBid : (sampleSession.2.ladder .buy).bestPrice = some 1 := by decide +kernel
  have bestAsk : (sampleSession.2.ladder .sell).bestPrice = some 3 := by decide +kernel
  refine ⟨inserts 9 2 5 .buy (by decide) fun best isBest => ?_,
    inserts 6 2 5 .sell (by decide) fun best isBest => ?_,
    removals 6 3 (by decide +kernel)⟩
  · obtain rfl := Option.some.inj (isBest.symm.trans bestAsk)
    rfl
  · obtain rfl := Option.some.inj (isBest.symm.trans bestBid)
    rfl

end Properties
end MatchingEngine
