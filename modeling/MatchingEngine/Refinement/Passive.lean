import MatchingEngine.Reference.Resting
import MatchingEngine.Refinement.Contents
import MatchingEngine.Refinement.Run

/-!
# Orders that rest as a whole

An order that does not cross the best price of the other side trades with nobody.
If it may rest, it rests as a whole, and the book and its pool have one order more.
-/

namespace MatchingEngine
namespace Refinement

open OrderBook (crosses)
open Reference (Order priority)

variable {book next : OrderBook} {spec : Reference.Book}
variable {request : LimitOrderRequest} {side : Side}

/-- A loop that finds nothing to take ends where it starts. -/
theorem runMatching_of_nothingToTake
    {matchingSide : Side} {takes : Price → Bool} {quantity : Quantity}
    (nothingToTake : 0 < quantity →
      ∀ bestPrice ∈ (book.ladder matchingSide).bestPrice, takes bestPrice = false) :
    book.runMatching matchingSide takes quantity =
      .ok ⟨false, book, quantity, { quantityRequested := quantity }⟩ := by
  unfold OrderBook.runMatching OrderBook.matchingLoop
  split
  · rfl
  next wanted =>
  cases best : (book.ladder matchingSide).bestPrice with
  | none => rfl
  | some bestPrice => simp [nothingToTake (not_not.mp wanted) bestPrice best]

/-- A price does not cross the best price of the other side. -/
def Passive (book : OrderBook) (side : Side) (price : Price) : Prop :=
  ∀ best, (book.ladder side.opposite).bestPrice = some best → crosses side price best = false

/-- A passive order executes against nothing. -/
theorem runMatching_of_passive
    {price : Price} {quantity : Quantity}
    (passive : Passive book side price) :
    book.runMatching side.opposite (crosses side price) quantity =
      .ok ⟨false, book, quantity, { quantityRequested := quantity }⟩ :=
  runMatching_of_nothingToTake fun _ => passive

/-- A passive order rests as a whole. -/
theorem submitLimitOrderResting_of_passive
    (passive : Passive book request.side request.price)
    (positive : 0 < request.quantity) :
    OrderBook.submitLimitOrderResting request.side book request = (do
      let next ← book.restOrder request.id request.price request.quantity
        (if request.tif = .gtc then .gtc else .day) request.side request.side
        (book.ladder request.side).side
      .ok ({ quantityRequested := request.quantity, status := .resting }, next)) := by
  rw [OrderBook.submitLimitOrderResting, runMatching_of_passive passive, ok_bind,
    if_neg (by simp), if_neg (ne_of_gt positive)]
  simp only [lt_self_iff_false, if_false]

/-- An order is passive when the other side has no order that it accepts. -/
theorem passive_iff
    (refines : Refines book spec) {price : Price} :
    Passive book side price ↔
      ∀ order ∈ spec.orders side.opposite,
        Reference.Book.accepts side price order.price = false := by
  unfold Passive
  rw [refines.best, crosses_eq_accepts]
  constructor
  · intro passive order member
    cases makers : spec.orders side.opposite with
    | nil => simp [makers] at member
    | cons head tail =>
        have refused := passive head.price (by rw [makers]; rfl)
        have sorted := refines.valid.sorted side.opposite
        rw [makers] at sorted member
        by_contra accepted
        have least : priority side.opposite head.price ≤ priority side.opposite order.price := by
          rcases List.mem_cons.mp member with rfl | inTail
          · exact le_rfl
          · exact (KeyedList.ordered_cons.mp sorted).1 order inTail
        have headAccepted := Reference.downward_accepts side price head.price order.price least
          (by simpa using accepted)
        simp [refused] at headAccepted
  · intro noneAccepted best isBest
    cases makers : spec.orders side.opposite with
    | nil => simp [makers, bestOf] at isBest
    | cons head tail =>
        rw [makers] at isBest
        obtain rfl : head.price = best := Option.some.inj isBest
        exact noneAccepted head (makers ▸ List.mem_cons_self)

/-- What a request leaves in the book when it executes against nothing. -/
def wholeOrder (request : LimitOrderRequest) : Order :=
  ⟨request.id, request.price, request.quantity, restingLifetime request.tif⟩

/-- A request that can rest as a whole. -/
structure Restable (book : OrderBook) (request : LimitOrderRequest) : Prop where
  accepted : ¬ book.rejects request
  lifetime : request.tif = .gtc ∨ request.tif = .day
  passive : Passive book request.side request.price

/-- A request that can rest as a whole is rested, and does nothing else. -/
theorem Restable.submitLimitOrder
    (restable : Restable book request)
    (positive : 1 ≤ request.quantity)
    (sameSide : (book.ladder request.side).side = request.side) :
    book.submitLimitOrder request = (do
      let next ← book.restOrder request.id request.price request.quantity
        (restingLifetime request.tif) request.side request.side request.side
      .ok ({ quantityRequested := request.quantity, status := .resting }, next)) := by
  have rested := submitLimitOrderResting_of_passive restable.passive positive
  rw [sameSide] at rested
  rw [OrderBook.submitLimitOrder_of_mayRest restable.lifetime restable.accepted, rested]
  rcases restable.lifetime with gtc | day
  · simp only [gtc]
    rfl
  · simp only [day]
    rfl

/-- A submission that rests was one that could rest as a whole. -/
theorem restable_of_resting
    (sane : Sane book)
    (positive : 1 ≤ request.quantity)
    (range : InInt32 request.quantity)
    {result : SubmissionResult}
    (submitted : book.submitLimitOrder request = .ok (result, next))
    (resting : result.status = .resting) :
    Restable book request := by
  have sameResult := sane.submitLimitOrder_result ⟨positive, range⟩ submitted
  obtain ⟨accepted, lifetime, noneAccepted⟩ :=
    sane.refines.valid.none_accepted_of_resting positive (sameResult ▸ resting)
  exact ⟨fun rejects => accepted ((rejects_iff sane.refines request).mp rejects), lifetime,
    (passive_iff sane.refines).mpr noneAccepted⟩

theorem Restable.fresh_inRange
    (restable : Restable book request)
    (sane : Sane book) :
    ¬ book.view.Contains request.id ∧ book.view.minPrice ≤ request.price ∧
      request.price ≤ book.view.maxPrice := by
  have accepted := mt (rejects_iff sane.refines request).mpr restable.accepted
  unfold Reference.Book.Rejects at accepted
  simp only [not_or, not_lt] at accepted
  exact ⟨accepted.1, accepted.2.2, accepted.2.1⟩

/-- How resting an order changes a book and its pool. -/
structure RestsOrder (book : OrderBook) (side : Side) (order : Order) (next : OrderBook) :
    Prop where
  refines : Refines next (book.view.rest side order)
  available : ¬ (capacityOf book.memoryPool).Exhausted (book.memoryPool.currentlyAllocated + 1)
  capacity : capacityOf next.memoryPool =
    (capacityOf book.memoryPool).demand (book.memoryPool.currentlyAllocated + 1)

theorem Restable.restsOrder_of_rested
    (restable : Restable book request)
    (sane : Sane book)
    (positive : 1 ≤ request.quantity)
    (range : InInt32 request.quantity)
    (rested : book.restOrder request.id request.price request.quantity
      (restingLifetime request.tif) request.side request.side request.side = .ok next) :
    RestsOrder book request.side (wholeOrder request) next := by
  obtain ⟨fresh, inRange⟩ := restable.fresh_inRange sane
  obtain ⟨available, capacity⟩ := sane.refines.carries.capacity_restOrder rested
  obtain ⟨_, refines⟩ :=
    sane.refines.carries.of_rested (show ¬ book.view.Contains (wholeOrder request).id from fresh)
      inRange rested
  exact ⟨refines ⟨positive, range.2⟩ sane.refines sane.roomy, available, capacity⟩

/-- What a submission that rests does. -/
theorem Restable.restsOrder
    (restable : Restable book request)
    (sane : Sane book)
    (positive : 1 ≤ request.quantity)
    (range : InInt32 request.quantity)
    {result : SubmissionResult}
    (submitted : book.submitLimitOrder request = .ok (result, next)) :
    result = { quantityRequested := request.quantity, status := .resting } ∧
      RestsOrder book request.side (wholeOrder request) next := by
  rw [restable.submitLimitOrder positive (sane.refines.carries.ladder_side _)] at submitted
  obtain ⟨next', rested, submitted⟩ := bind_eq_ok submitted
  obtain ⟨rfl, rfl⟩ := Prod.mk.inj (Except.ok.inj submitted)
  exact ⟨rfl, restable.restsOrder_of_rested sane positive range rested⟩

/-- Unless the pool is exhausted, a request that can rest rests. -/
theorem Restable.exists_restsOrder
    (restable : Restable book request)
    (sane : Sane book)
    (positive : 1 ≤ request.quantity)
    (range : InInt32 request.quantity)
    (available : ¬ (capacityOf book.memoryPool).Exhausted
      (book.memoryPool.currentlyAllocated + 1)) :
    ∃ next,
      book.submitLimitOrder request =
        .ok ({ quantityRequested := request.quantity, status := .resting }, next) ∧
      RestsOrder book request.side (wholeOrder request) next := by
  rw [restable.submitLimitOrder positive (sane.refines.carries.ladder_side _)]
  obtain ⟨fresh, inRange⟩ := restable.fresh_inRange sane
  cases rested : book.restOrder request.id request.price request.quantity
      (restingLifetime request.tif) request.side request.side request.side with
  | ok next => exact ⟨next, rfl, restable.restsOrder_of_rested sane positive range rested⟩
  | error fault =>
      exact absurd (@Carries.exhausted_of_restOrder _ _ sane.refines.carries
        (wholeOrder request) _ _ fresh inRange rested) available

end Refinement
end MatchingEngine
