import MatchingEngine.Reference.Operations

/-!
# Legality of the operations

For quantities that make sense, every change of an operation is legal, and under
the matching operations no queued order crosses the other side.  Operations
therefore lead from valid books to valid books.
-/

namespace MatchingEngine
namespace Reference
namespace Book

/-- Limit requests whose quantities make sense for their time in force. -/
def SafeLimit (book : Book) (request : LimitOrderRequest) : Prop :=
  request.quantity ≤ 2147483647 ∧
    (book.Rejects request ∨
      match request.tif with
      | .gtc | .day => 0 ≤ request.quantity
      | .ioc => True
      | .fok => 0 < request.quantity)

/-- Calls whose quantities the engine handles as the reference does. -/
def Safe (book : Book) : Operation → Prop
  | .submitLimitOrder limitRequest => book.SafeLimit limitRequest
  | .submitMarketOrder marketRequest => marketRequest.quantity ≤ 2147483647
  | .modifyOrder modificationRequest => modificationRequest.newQuantity ≤ 2147483647
  | .replayAddVisibleOrder _ _ quantity _ => 0 ≤ quantity ∧ quantity ≤ 2147483647
  | .replayReduceVisibleOrder _ quantityReduced => 0 ≤ quantityReduced
  | .replayReplaceVisibleOrder _ _ _ newQuantity =>
      0 ≤ newQuantity ∧ newQuantity ≤ 2147483647
  | .cancelOrder _ | .onSessionEnd | .replayDeleteVisibleOrder _ => True

theorem Safe.of_positive
    {operation : Operation}
    (positive : operation.PositiveQuantities)
    (book : Book) :
    book.Safe operation := by
  cases operation with
  | submitLimitOrder limitRequest =>
      obtain ⟨positive, _, upper⟩ := positive
      refine ⟨upper, Or.inr ?_⟩
      cases limitRequest.tif with
      | gtc | day => exact (zero_le_one' Int).trans positive
      | ioc => trivial
      | fok => exact positive
  | submitMarketOrder marketRequest => exact positive.2.2
  | modifyOrder modificationRequest => exact positive.2.2
  | replayAddVisibleOrder id price quantity side =>
      exact ⟨(zero_le_one' Int).trans positive.1, positive.2.2⟩
  | replayReduceVisibleOrder id quantityReduced => exact (zero_le_one' Int).trans positive.1
  | replayReplaceVisibleOrder originalId newId newPrice newQuantity =>
      exact ⟨(zero_le_one' Int).trans positive.1, positive.2.2⟩
  | cancelOrder | onSessionEnd | replayDeleteVisibleOrder => trivial

section Legality

variable {book : Book}

/-- The remainder of a limit order rests passively. -/
theorem Valid.allLegal_takeAndRest
    (valid : book.Valid)
    {request : LimitOrderRequest}
    (accepted : ¬ book.Rejects request)
    (nonneg : 0 ≤ request.quantity)
    (lifetime : RestingLifetime) :
    AllLegal (fun book change => book.Legal change ∧ book.Passive change) book
      (if book.remainder request = 0 then
        [.take request.side.opposite (accepts request.side request.price) request.quantity]
      else
        [.take request.side.opposite (accepts request.side request.price) request.quantity,
          .rest request.side (book.remainingOrder request lifetime)]) := by
  have downward := downward_accepts request.side request.price
  by_cases none : book.remainder request = 0
  · rw [if_pos none]
    exact ⟨⟨downward, trivial⟩, trivial⟩
  rw [if_neg none]
  have atMost : 0 ≤ book.remainder request := by
    have total : (book.matching request.side.opposite (accepts request.side request.price)
        request.quantity).total ≤ request.quantity := valid.total_le nonneg
    unfold remainder
    lia
  have unfilled : (book.matching request.side.opposite (accepts request.side request.price)
      request.quantity).total < request.quantity := by
    unfold remainder at none atMost
    lia
  simp only [Rejects, not_or, not_lt] at accepted
  refine ⟨⟨downward, trivial⟩, ⟨⟨?_, ?_, ?_, ?_⟩, ?_⟩, trivial⟩
  · exact fun present => accepted.1 (contains_of_afterMatching present)
  · change (1 : Int) ≤ book.remainder request
    lia
  · rw [apply_minPrice]
    exact accepted.2.2
  · rw [apply_maxPrice]
    exact accepted.2.1
  · exact valid.none_accepted unfilled

theorem Valid.allLegal_limitChanges
    (valid : book.Valid)
    {request : LimitOrderRequest}
    (safe : book.SafeLimit request) :
    AllLegal (fun book change => book.Legal change ∧ book.Passive change) book
      (book.limitChanges request) := by
  have downward := downward_accepts request.side request.price
  unfold limitChanges
  by_cases rejected : book.Rejects request
  · rw [if_pos rejected]
    trivial
  rw [if_neg rejected]
  have sign := safe.2.resolve_left rejected
  cases kind : request.tif with
  | gtc | day =>
      rw [kind] at sign
      exact valid.allLegal_takeAndRest rejected sign _
  | ioc => exact ⟨⟨downward, trivial⟩, trivial⟩
  | fok =>
      simp only
      split
      · exact ⟨⟨downward, trivial⟩, trivial⟩
      · trivial

/-- The changes of the matching operations are legal and passive. -/
theorem Valid.allLegal_matching
    (valid : book.Valid)
    {operation : Operation}
    (isMatching : operation.IsMatching)
    (safe : book.Safe operation) :
    AllLegal (fun book change => book.Legal change ∧ book.Passive change) book
      (book.changes operation) := by
  cases operation with
  | submitLimitOrder limitRequest => exact valid.allLegal_limitChanges safe
  | submitMarketOrder marketRequest =>
      simp only [changes]
      split
      · trivial
      · exact ⟨⟨downward_all _, trivial⟩, trivial⟩
  | cancelOrder cancelRequest =>
      simp only [changes]
      split
      · trivial
      · exact ⟨⟨trivial, trivial⟩, trivial⟩
  | modifyOrder modificationRequest =>
      simp only [changes]
      split
      · trivial
      split
      · trivial
      next side order _ =>
        refine ⟨⟨trivial, trivial⟩, ?_⟩
        split
        · next resubmits =>
            have validAfter : (book.apply (.remove modificationRequest.id)).Valid :=
              valid.apply trivial
            refine validAfter.allLegal_limitChanges ⟨safe, Or.inr ?_⟩
            cases order.lifetime <;> exact resubmits.le
        · trivial
  | onSessionEnd => exact ⟨⟨trivial, trivial⟩, trivial⟩
  | replayAddVisibleOrder | replayDeleteVisibleOrder | replayReduceVisibleOrder
  | replayReplaceVisibleOrder => exact isMatching.elim

/-- The changes of every operation are legal. -/
theorem Valid.allLegal
    (valid : book.Valid)
    {operation : Operation}
    (safe : book.Safe operation) :
    AllLegal Legal book (book.changes operation) := by
  have matchingCase : operation.IsMatching → AllLegal Legal book (book.changes operation) :=
    fun isMatching => (valid.allLegal_matching isMatching safe).mono fun _ _ both => both.1
  cases operation with
  | replayAddVisibleOrder orderId price quantity side =>
      simp only [changes]
      split
      · trivial
      next accepted =>
        simp only [not_or, not_lt] at accepted
        obtain ⟨nonzero, fresh, lower, upper⟩ := accepted
        refine ⟨⟨fresh, ?_, lower, upper⟩, trivial⟩
        have nonneg := safe.1
        change (1 : Int) ≤ quantity
        lia
  | replayDeleteVisibleOrder orderId =>
      simp only [changes]
      split
      · trivial
      · exact ⟨trivial, trivial⟩
  | replayReduceVisibleOrder orderId quantityReduced =>
      simp only [changes]
      split
      · trivial
      split
      · trivial
      next found order located =>
        obtain ⟨member, sameId⟩ := locate_eq_some located
        split
        · trivial
        next notMore =>
        split
        · exact ⟨trivial, trivial⟩
        next notAll =>
          refine ⟨fun other found inOther equal => ?_, trivial⟩
          obtain ⟨_, rfl⟩ := valid.distinct.eq_of_id_eq inOther member (equal.trans sameId.symm)
          lia
  | replayReplaceVisibleOrder originalId newId newPrice newQuantity =>
      simp only [changes]
      split
      · trivial
      next accepted =>
        simp only [not_or, not_lt] at accepted
        obtain ⟨nonzero, lower, upper, fresh⟩ := accepted
        split
        · trivial
        · refine ⟨trivial, ⟨fun present => fresh (contains_remove.mp present).1, ?_, lower,
            upper⟩, trivial⟩
          have nonneg := safe.1
          change (1 : Int) ≤ newQuantity
          lia
  | _ => exact matchingCase trivial

/-- Every operation leads from valid books to valid books. -/
theorem Valid.execute
    (valid : book.Valid)
    {operation : Operation}
    (safe : book.Safe operation) :
    (book.execute operation).2.Valid := by
  rw [(book.execute_changes operation).1]
  exact (valid.allLegal safe).preserves Valid (fun _ _ valid legal => valid.apply legal) valid

end Legality

end Book
end Reference
end MatchingEngine
