import MatchingEngine.Reference.Legality

/-!
# Accounts of the resting orders

What an order has at the start of a call is what the call executes against it and
what it has left, or leaves with.  The account of one id is kept for every change
that neither queues nor drops an order of that id, and so for every operation.
-/

namespace MatchingEngine
namespace Reference
namespace Book

/-! ## The open quantity of an id -/

/-- The shares that a side holds under an id. -/
def openOn (book : Book) (id : OrderID) (side : Side) : Quantity :=
  Fill.offered Order.quantity ((book.orders side).filter fun order => order.id = id)

/-- The shares that rest under an id. -/
def openQuantity (book : Book) (id : OrderID) : Quantity :=
  book.openOn id .buy + book.openOn id .sell

/-- The quantity of the order with an id. -/
def quantityOf (book : Book) (id : OrderID) : Option Quantity :=
  (book.locate id).map fun found => found.2.quantity

variable {book : Book} {id : OrderID}

theorem openQuantity_eq (book : Book) (id : OrderID) (side : Side) :
    book.openQuantity id = book.openOn id side + book.openOn id side.opposite := by
  cases side with
  | buy => rfl
  | sell => exact Int.add_comm _ _

theorem openOn_eq_zero
    {side : Side}
    (absent : ∀ order ∈ book.orders side, order.id ≠ id) :
    book.openOn id side = 0 := by
  have none : (book.orders side).filter (fun order => order.id = id) = [] :=
    List.filter_eq_nil_iff.mpr fun order member => by simpa using absent order member
  rw [openOn, none, Fill.offered_nil]

theorem quantityOf_eq_none :
    book.quantityOf id = none ↔ ¬ book.Contains id := by
  rw [quantityOf, Option.map_eq_none_iff, locate_eq_none]

theorem openQuantity_of_not_contains (absent : ¬ book.Contains id) :
    book.openQuantity id = 0 := by
  have absentOn : ∀ side, book.openOn id side = 0 := fun side =>
    openOn_eq_zero fun order member equal => absent (equal ▸ contains_of_mem member)
  rw [openQuantity, absentOn, absentOn]
  rfl

theorem Distinct.openQuantity_of_mem
    (distinct : book.Distinct)
    {side : Side} {order : Order}
    (member : order ∈ book.orders side) :
    book.openQuantity order.id = order.quantity := by
  have otherSide : book.openOn order.id side.opposite = 0 := by
    refine openOn_eq_zero fun other inOther equal => ?_
    exact side.opposite_ne (distinct.eq_of_id_eq inOther member equal).1
  have alone : (book.orders side).filter (fun other => other.id = order.id) = [order] := by
    have nodup := distinct.side side
    obtain ⟨front, rest, split⟩ := List.append_of_mem member
    rw [split, List.map_append, List.map_cons, List.nodup_middle, List.nodup_cons,
      ← List.map_append] at nodup
    have others : ∀ other ∈ front ++ rest, other.id ≠ order.id := fun other inOthers equal =>
      nodup.1 (equal ▸ List.mem_map_of_mem inOthers)
    have noneLeft : (front ++ rest).filter (fun other => other.id = order.id) = [] :=
      List.filter_eq_nil_iff.mpr fun other inOthers => by simpa using others other inOthers
    obtain ⟨inFront, inRest⟩ := List.append_eq_nil_iff.mp (List.filter_append .. ▸ noneLeft)
    rw [split, List.filter_append, List.filter_cons_of_pos (by simp), inFront, inRest,
      List.nil_append]
  rw [openQuantity_eq _ _ side, otherSide, openOn, alone]
  simp

theorem Distinct.quantityOf_of_mem
    (distinct : book.Distinct)
    {side : Side} {order : Order}
    (member : order ∈ book.orders side) :
    book.quantityOf order.id = some order.quantity := by
  rw [quantityOf, distinct.locate_of_mem member, Option.map_some]

theorem quantityOf_eq_some
    {quantity : Quantity}
    (found : book.quantityOf id = some quantity) :
    ∃ side, ∃ order ∈ book.orders side, order.id = id ∧ order.quantity = quantity := by
  obtain ⟨⟨side, order⟩, located, rfl⟩ := Option.map_eq_some_iff.mp found
  obtain ⟨member, sameId⟩ := locate_eq_some located
  exact ⟨side, order, member, sameId, rfl⟩

theorem Distinct.openQuantity_of_quantityOf
    {quantity : Quantity}
    (distinct : book.Distinct)
    (found : book.quantityOf id = some quantity) :
    book.openQuantity id = quantity := by
  obtain ⟨side, order, member, rfl, rfl⟩ := quantityOf_eq_some found
  exact distinct.openQuantity_of_mem member

/-! ## Changes that spare an id -/

/-- The change neither queues nor drops an order of an id. -/
def Spares (id : OrderID) : Change → Prop
  | .take .. => True
  | .rest _ order => order.id ≠ id
  | .remove removed => removed ≠ id
  | .reduce reduced _ => reduced ≠ id
  | .prune => False

theorem executedAgainst_taken (taken : List (Order × Quantity)) :
    executedAgainst id (taken.map execution) =
      ((taken.filter fun entry => entry.1.id = id).map Prod.snd).sum := by
  rw [executedAgainst, List.filter_map, List.map_map]
  rfl

/-- The account of an id on the side of the makers. -/
theorem Valid.openOn_afterMatching
    {side : Side} {takes : Price → Bool}
    (valid : book.Valid)
    (downward : Downward side takes)
    (quantity : Quantity) :
    book.openOn id side =
      executedAgainst id ((book.matching side takes quantity).taken.map execution) +
        (book.afterMatching side takes quantity).openOn id side := by
  have makers := (divides_matching book side takes quantity).offered_filter
    (fun order => order.id = id) (fun _ _ => rfl) fun _ _ => rfl
  unfold openOn
  rw [orders_afterMatching, if_pos rfl, List.filter_append, Fill.offered_append,
    executedAgainst_taken, ← Int.add_assoc, ← makers, ← Fill.offered_append,
    ← List.filter_append, valid.partition downward]

/-- What an order has before a change is what is executed against it and what it has
left. -/
theorem Valid.openQuantity_apply
    {change : Change}
    (valid : book.Valid)
    (legal : book.Legal change)
    (spares : Spares id change) :
    book.openQuantity id =
      executedAgainst id (book.executed change) + (book.apply change).openQuantity id := by
  have sideBySide :
      (∀ side, (book.apply change).openOn id side = book.openOn id side) →
        book.openQuantity id = 0 + (book.apply change).openQuantity id := by
    intro same
    rw [Int.zero_add, openQuantity, openQuantity, same, same]
  cases change with
  | take makerSide takes quantity =>
      have otherSide : (book.apply (.take makerSide takes quantity)).openOn id
          makerSide.opposite = book.openOn id makerSide.opposite := by
        rw [openOn, Book.apply, orders_afterMatching, if_neg makerSide.opposite_ne, openOn]
      rw [openQuantity_eq _ _ makerSide, openQuantity_eq (book.apply _) _ makerSide, otherSide,
        valid.openOn_afterMatching legal quantity]
      exact Int.add_assoc _ _ _
  | rest side order =>
      have unnoticed : (KeyedList.enqueue (orderPriority side) order
          (book.orders side)).filter (fun found => found.id = id) =
            (book.orders side).filter fun found => found.id = id := by
        refine KeyedList.filter_enqueue_of_drop ?_ _
        exact decide_eq_false spares
      refine sideBySide fun other => ?_
      rw [openOn, Book.apply, Book.rest, orders_setOrders, openOn]
      split
      · next same =>
          subst same
          rw [unnoticed]
      · rfl
  | remove removed =>
      refine sideBySide fun side => ?_
      rw [openOn, Book.apply, orders_remove, List.filter_filter, openOn]
      congr 1
      refine List.filter_congr fun order _ => ?_
      by_cases same : order.id = id
      · simp [same, Ne.symm spares]
      · simp [same]
  | reduce reduced amount =>
      refine sideBySide fun side => ?_
      have idKept : ((fun order => decide (order.id = id)) ∘ fun order : Order =>
          if order.id = reduced then order.reduce amount else order) =
            fun order => decide (order.id = id) := by
        funext order
        simp only [Function.comp_apply]
        split <;> rfl
      have untouched : ∀ order ∈ (book.orders side).filter (fun order => order.id = id),
          (if order.id = reduced then order.reduce amount else order) = order := by
        intro order member
        have sameId : order.id = id := by simpa using (List.mem_filter.mp member).2
        exact if_neg fun equal => spares (equal.symm.trans sameId)
      rw [openOn, Book.apply, orders_reduce, List.filter_map, idKept,
        List.map_congr_left untouched, List.map_id', openOn]
  | prune => exact spares.elim

/-- The account of an id over a sequence of changes. -/
theorem Valid.openQuantity_applyAll
    {changes : List Change}
    (valid : book.Valid)
    (allLegal : AllLegal Legal book changes)
    (spares : ∀ change ∈ changes, Spares id change) :
    book.openQuantity id =
      executedAgainst id (book.executedAll changes) + (book.applyAll changes).openQuantity id := by
  induction changes generalizing book with
  | nil => exact (Int.zero_add _).symm
  | cons change changes inductionHypothesis =>
      obtain ⟨legalFirst, legalLater⟩ := allLegal
      obtain ⟨sparesFirst, sparesLater⟩ := List.forall_mem_cons.mp spares
      rw [executedAll, executedAgainst_append, applyAll_cons,
        valid.openQuantity_apply legalFirst sparesFirst,
        inductionHypothesis (valid.apply legalFirst) legalLater sparesLater]
      exact (Int.add_assoc _ _ _).symm

/-! ## Operations -/

/-- A limit order that is not rejected spares the orders that rest. -/
theorem spares_limitChanges
    {request : LimitOrderRequest}
    (present : book.Contains id) :
    ∀ change ∈ book.limitChanges request, Spares id change := by
  intro change member
  unfold limitChanges at member
  by_cases rejected : book.Rejects request
  · simp [rejected] at member
  have different : request.id ≠ id := fun equal => rejected (Or.inl (equal ▸ present))
  simp only [rejected, if_false] at member
  cases kind : request.tif with
  | gtc | day =>
      simp only [kind] at member
      by_cases none : book.remainder request = 0
      · obtain rfl : change = _ := by simpa [none] using member
        trivial
      · rw [if_neg none] at member
        rcases List.mem_pair.mp member with rfl | rfl
        · trivial
        · exact different
  | ioc =>
      obtain rfl : change = _ := by simpa [kind] using member
      trivial
  | fok =>
      simp only [kind] at member
      by_cases none : book.remainder request = 0
      · obtain rfl : change = _ := by simpa [none] using member
        trivial
      · simp [none] at member

/-- A matching operation spares the orders that it does not report as taken out. -/
theorem spares_changes
    {operation : Operation}
    (isMatching : operation.IsMatching)
    (notEnd : operation ≠ .onSessionEnd)
    (present : book.Contains id)
    (unreported : operation.reportedExit (book.execute operation).1 id = none) :
    ∀ change ∈ book.changes operation, Spares id change := by
  cases operation with
  | submitLimitOrder limitRequest => exact spares_limitChanges present
  | submitMarketOrder marketRequest =>
      simp only [changes]
      split
      · simp
      · simp [Spares]
  | cancelOrder cancelRequest =>
      simp only [changes]
      cases located : book.locate cancelRequest.id with
      | none => simp
      | some found =>
          have different : cancelRequest.id ≠ id := by
            simpa [execute, cancel, located, Operation.reportedExit] using unreported
          simpa [Spares] using different
  | modifyOrder modificationRequest =>
      simp only [changes]
      split
      · simp
      next inRange =>
      cases located : book.locate modificationRequest.id with
      | none => simp
      | some found =>
          have different : modificationRequest.id ≠ id := by
            intro equal
            simp only [execute, modify, inRange, if_false, located] at unreported
            split at unreported <;> simp [Operation.reportedExit, equal] at unreported
          simp only [List.forall_mem_cons]
          refine ⟨different, ?_⟩
          split
          · exact spares_limitChanges (contains_remove.mpr ⟨present, Ne.symm different⟩)
          · simp
  | onSessionEnd => exact absurd rfl notEnd
  | replayAddVisibleOrder | replayDeleteVisibleOrder | replayReduceVisibleOrder
  | replayReplaceVisibleOrder => exact isMatching.elim

theorem executedAgainst_limitChanges
    {request : LimitOrderRequest}
    (absent : ¬ book.Contains id) :
    executedAgainst id (book.submitLimit request).1.executions = 0 := by
  rw [(book.submitLimit_changes request).2]
  rcases book.executedAll_limitChanges request with nothing | matched
  · rw [nothing, executedAgainst_nil]
  rw [matched]
  refine executedAgainst_of_not_mem fun report member equal => absent ?_
  obtain ⟨entry, taken, rfl⟩ := List.mem_map.mp member
  obtain ⟨front, back, split⟩ := List.append_of_mem taken
  obtain ⟨before, after, accepted, _⟩ := (divides_matching _ _ _ _).of_taken split
  have inOrders : entry.1 ∈ book.orders request.side.opposite :=
    List.mem_of_mem_filter (accepted ▸ List.mem_append_right before List.mem_cons_self)
  have equal : entry.1.id = id := equal
  exact equal ▸ contains_of_mem inOrders

/-- A reported exit is of the order's quantity, and nothing is executed against it. -/
theorem reportedExit_execute
    {operation : Operation} {quantity : Quantity}
    (reported : operation.reportedExit (book.execute operation).1 id = some quantity) :
    book.quantityOf id = some quantity ∧
      executedAgainst id (book.execute operation).1.executions = 0 := by
  cases operation with
  | cancelOrder cancelRequest =>
      cases located : book.locate cancelRequest.id with
      | none => simp [execute, cancel, located, Operation.reportedExit] at reported
      | some found =>
          simp only [execute, cancel, located, Operation.reportedExit, Prod.map_apply, and_true,
            Option.ite_none_right_eq_some, Option.some.injEq] at reported
          obtain ⟨rfl, rfl⟩ := reported
          refine ⟨by rw [quantityOf, located, Option.map_some], ?_⟩
          rw [(book.execute_changes _).2, changes, located]
          rfl
  | modifyOrder modificationRequest =>
      simp only [execute, modify] at reported ⊢
      by_cases outOfRange : modificationRequest.newPrice > book.maxPrice ∨
          modificationRequest.newPrice < book.minPrice
      · simp [outOfRange, Operation.reportedExit] at reported
      cases located : book.locate modificationRequest.id with
      | none => simp [outOfRange, located, Operation.reportedExit] at reported
      | some found =>
          have removed : ¬ (book.remove modificationRequest.id).Contains
              modificationRequest.id := fun present => (contains_remove.mp present).2 rfl
          simp only [outOfRange, if_false, located] at reported ⊢
          by_cases resubmits : modificationRequest.newQuantity > 0
          · simp only [resubmits, if_true, Operation.reportedExit, Prod.map_apply, true_or,
              and_true, Option.ite_none_right_eq_some, Option.some.injEq] at reported ⊢
            obtain ⟨rfl, rfl⟩ := reported
            exact ⟨by rw [quantityOf, located, Option.map_some],
              executedAgainst_limitChanges removed⟩
          · simp only [resubmits, if_false, Operation.reportedExit, Prod.map_apply, or_true,
              and_true, Option.ite_none_right_eq_some, Option.some.injEq] at reported ⊢
            obtain ⟨rfl, rfl⟩ := reported
            exact ⟨by rw [quantityOf, located, Option.map_some], rfl⟩
  | _ => cases reported

theorem quantityOf_prune
    (distinct : book.Distinct)
    {before left : Quantity}
    (found : book.quantityOf id = some before)
    (foundAfter : book.prune.quantityOf id = some left) :
    left = before := by
  obtain ⟨side, order, member, sameId, rfl⟩ := quantityOf_eq_some foundAfter
  rw [orders_prune] at member
  have inOrders := distinct.quantityOf_of_mem (List.mem_of_mem_filter member)
  rw [sameId, found] at inOrders
  exact (Option.some.inj inOrders).symm

/-- What an order has before a matching operation is what the operation executes
against it, and what it has left or leaves with. -/
theorem Valid.account
    {operation : Operation} {before : Quantity}
    (valid : book.Valid)
    (isMatching : operation.IsMatching)
    (safe : book.Safe operation)
    (found : book.quantityOf id = some before) :
    match operation.exitQuantity (book.execute operation).1 id (some before)
        ((book.execute operation).2.quantityOf id) with
    | some leaving =>
        before = executedAgainst id (book.execute operation).1.executions + leaving
    | none =>
        ∃ left, (book.execute operation).2.quantityOf id = some left ∧
          before = executedAgainst id (book.execute operation).1.executions + left := by
  unfold Operation.exitQuantity
  cases reported : operation.reportedExit (book.execute operation).1 id with
  | some quantity =>
      obtain ⟨found', nothing⟩ := reportedExit_execute reported
      rw [nothing]
      exact (Option.some.inj (found.symm.trans found')).trans (Int.zero_add _).symm
  | none =>
      by_cases atEnd : operation = .onSessionEnd
      · subst atEnd
        have nothing : executedAgainst id (book.execute .onSessionEnd).1.executions = 0 := rfl
        rw [nothing]
        cases foundAfter : (book.execute .onSessionEnd).2.quantityOf id with
        | none => exact (Int.zero_add _).symm
        | some left =>
            refine ⟨left, rfl, ?_⟩
            rw [quantityOf_prune valid.distinct found foundAfter, Int.zero_add]
      · have present : book.Contains id := by
          by_contra absent
          rw [quantityOf_eq_none.mpr absent] at found
          cases found
        have balance := valid.openQuantity_applyAll (valid.allLegal safe)
          (spares_changes isMatching atEnd present reported)
        rw [← (book.execute_changes operation).1, ← (book.execute_changes operation).2,
          valid.distinct.openQuantity_of_quantityOf found] at balance
        cases foundAfter : (book.execute operation).2.quantityOf id with
        | none =>
            rw [openQuantity_of_not_contains (quantityOf_eq_none.mp foundAfter)] at balance
            simpa only [atEnd, if_false] using balance
        | some left =>
            rw [(valid.execute safe).distinct.openQuantity_of_quantityOf foundAfter] at balance
            exact ⟨left, rfl, balance⟩

/-! ## Entries -/

/-- An order that a limit request leaves in the book has what is not filled. -/
theorem submitLimit_rests
    {request : LimitOrderRequest}
    (rests : (book.submitLimit request).1.rests = true) :
    ∃ order ∈ (book.submitLimit request).2.orders request.side, order.id = request.id ∧
      (book.submitLimit request).1.quantityRequested =
        (book.submitLimit request).1.quantityFilled + order.quantity := by
  unfold submitLimit at rests ⊢
  by_cases rejected : book.Rejects request
  · simp [rejected, SubmissionResult.rests] at rests
  simp only [rejected, if_false] at rests ⊢
  cases kind : request.tif with
  | gtc | day =>
      simp only [kind, submitResting, rests_report_resting, Bool.not_eq_true',
        decide_eq_false_iff_not] at rests ⊢
      rw [if_neg rests]
      refine ⟨_, mem_orders_rest.mpr (Or.inl ⟨rfl, rfl⟩), rfl, ?_⟩
      exact (add_sub_cancel _ _).symm
  | ioc => simp [kind, submitImmediate, rests_report_dropped] at rests
  | fok =>
      simp only [kind, submitAllOrNothing] at rests
      split at rests <;> simp [report, SubmissionResult.rests] at rests

/-- An order that a matching operation leaves in the book has what is not filled. -/
theorem Valid.quantityOf_entered
    {operation : Operation} {result : SubmissionResult}
    (valid : book.Valid)
    (isMatching : operation.IsMatching)
    (safe : book.Safe operation)
    (entered : operation.entered (book.execute operation).1 = some id)
    (rested : (book.execute operation).1.rested = some result) :
    ∃ quantity, (book.execute operation).2.quantityOf id = some quantity ∧
      result.quantityRequested = result.quantityFilled + quantity := by
  have distinct := (valid.execute safe).distinct
  have ofMem : ∀ side, ∀ order ∈ (book.execute operation).2.orders side, order.id = id →
      result.quantityRequested = result.quantityFilled + order.quantity →
        ∃ quantity, (book.execute operation).2.quantityOf id = some quantity ∧
          result.quantityRequested = result.quantityFilled + quantity := by
    rintro side order member rfl balance
    exact ⟨_, distinct.quantityOf_of_mem member, balance⟩
  cases operation with
  | submitLimitOrder limitRequest =>
      have sameId : limitRequest.id = id := by simpa [Operation.entered, rested] using entered
      have filtered : (some (book.submitLimit limitRequest).1).filter SubmissionResult.rests =
          some result := rested
      obtain ⟨sameResult, rests⟩ := Option.filter_eq_some_iff.mp filtered
      obtain rfl := Option.some.inj sameResult
      obtain ⟨order, member, orderId, balance⟩ := submitLimit_rests rests
      exact ofMem _ order member (orderId.trans sameId) balance
  | modifyOrder modificationRequest =>
      have sameId : modificationRequest.id = id := by
        simpa [Operation.entered, rested] using entered
      have filtered : ((book.modify modificationRequest).1.resubmissionResult).filter
          SubmissionResult.rests = some result := rested
      obtain ⟨resubmitted, rests⟩ := Option.filter_eq_some_iff.mp filtered
      have after : (book.execute (.modifyOrder modificationRequest)).2 =
          (book.modify modificationRequest).2 := rfl
      rw [after] at ofMem ⊢
      simp only [modify] at resubmitted ofMem ⊢
      by_cases outOfRange : modificationRequest.newPrice > book.maxPrice ∨
          modificationRequest.newPrice < book.minPrice
      · simp [outOfRange] at resubmitted
      cases located : book.locate modificationRequest.id with
      | none => simp [outOfRange, located] at resubmitted
      | some found =>
          by_cases resubmits : modificationRequest.newQuantity > 0
          · simp only [outOfRange, if_false, located, resubmits, if_true,
              Option.some.injEq] at resubmitted ofMem ⊢
            obtain rfl := resubmitted
            obtain ⟨order, member, orderId, balance⟩ := submitLimit_rests rests
            exact ofMem _ order member (orderId.trans sameId) balance
          · simp [outOfRange, located, resubmits] at resubmitted
  | submitMarketOrder | cancelOrder | onSessionEnd => cases entered
  | replayAddVisibleOrder | replayDeleteVisibleOrder | replayReduceVisibleOrder
  | replayReplaceVisibleOrder => exact isMatching.elim

end Book
end Reference
end MatchingEngine
