import MatchingEngine.Reference.Pruning
import MatchingEngine.Refinement.Equivariance

/-!
# The replay calls that report a call

What a call did to the resting orders can be said with replay calls: a reduction
for every execution, a deletion for every order that was cancelled or pruned,
and an addition for the remainder that rests.  The executions and the statuses
that the call returns tell which.  An observer needs no lifetimes: made on its
own book, these calls are all accepted, and lead to the orders of the book.
-/

namespace MatchingEngine
namespace Reference

/-- Every order is a GTC order. -/
def Relabelling.hideLifetimes : Relabelling where
  ids id := id
  prices price := price
  lifetimes _ := .gtc
  injective := fun _ _ equal => equal
  increasing := fun _ _ less => less

open Relabelling (hideLifetimes)

/-- A book as an observer knows it. -/
def Book.visible (book : Book) : Book := hideLifetimes.book book

/-! ## Reports -/

/-- The reduction of the order that an execution was against. -/
def executionCall (result : ExecutionResult) : Operation :=
  .replayReduceVisibleOrder result.makerOrderID result.executedQuantity

/-- The addition of the remainder that a submission leaves in the book. -/
def additionCall (id : OrderID) (price : Price) (side : Side) (result : SubmissionResult) :
    List Operation :=
  if result.rests then
    [.replayAddVisibleOrder id price (result.quantityRequested - result.quantityFilled) side]
  else []

/-- The calls that report a submission: its executions, then its remainder. -/
def submissionCalls (id : OrderID) (price : Price) (side : Side) (result : SubmissionResult) :
    List Operation :=
  result.executions.map executionCall ++ additionCall id price side result

namespace Book

/-- The side on which the order with an id rests. -/
def sideOf (book : Book) (id : OrderID) : Option Side :=
  (book.locate id).map Prod.fst

/-- The ids of the DAY orders. -/
def dayIds (book : Book) : List OrderID :=
  (dayOrders (book.bids ++ book.asks)).map Order.id

/-- The replay calls that report a call and its answer.  The book before the call is only
asked for the side of the order that is modified and for the DAY orders. -/
def reports (book : Book) (operation : Operation) (output : Output) : List Operation :=
  match operation, output with
  | .submitLimitOrder request, .submission result =>
      submissionCalls request.id request.price request.side result
  | .submitMarketOrder _, .submission result => result.executions.map executionCall
  | .cancelOrder request, .cancellation result =>
      if result.status = .canceled then [.replayDeleteVisibleOrder request.id] else []
  | .modifyOrder request, .modification result =>
      match result.status, book.sideOf request.id, result.resubmissionResult with
      | .resubmitted, some side, some resubmission =>
          .replayDeleteVisibleOrder request.id ::
            submissionCalls request.id request.newPrice side resubmission
      | .canceled, _, _ => [.replayDeleteVisibleOrder request.id]
      | _, _, _ => []
  | .onSessionEnd, _ => book.dayIds.map .replayDeleteVisibleOrder
  | _, .replay true => [operation]
  | _, _ => []

/-! ## Accepted calls -/

/-- The calls are all accepted, and lead from one book to another. -/
structure Rebuilds (start : Book) (calls : List Operation) (last : Book) : Prop where
  positive : ∀ call ∈ calls, call.PositiveQuantities
  accepted : ∀ output ∈ (start.executeAll calls).1, output = .replay true
  reached : (start.executeAll calls).2 = last

variable {start middle last : Book} {calls : List Operation}

theorem Rebuilds.nil (book : Book) : book.Rebuilds [] book :=
  ⟨by simp, by simp, rfl⟩

theorem Rebuilds.cons
    {call : Operation}
    (positive : call.PositiveQuantities)
    (first : start.execute call = (.replay true, middle))
    (later : middle.Rebuilds calls last) :
    start.Rebuilds (call :: calls) last := by
  refine ⟨List.forall_mem_cons.mpr ⟨positive, later.positive⟩, ?_, ?_⟩
  · rw [executeAll_cons, first]
    exact List.forall_mem_cons.mpr ⟨rfl, later.accepted⟩
  · rw [executeAll_cons, first]
    exact later.reached

theorem Rebuilds.only
    {call : Operation}
    (positive : call.PositiveQuantities)
    (executed : start.execute call = (.replay true, last)) :
    start.Rebuilds [call] last :=
  .cons positive executed (.nil last)

theorem Rebuilds.append
    {laterCalls : List Operation}
    (earlier : start.Rebuilds calls middle)
    (later : middle.Rebuilds laterCalls last) :
    start.Rebuilds (calls ++ laterCalls) last := by
  refine ⟨List.forall_mem_append.mpr ⟨earlier.positive, later.positive⟩, ?_, ?_⟩
  · rw [executeAll_append, earlier.reached]
    exact List.forall_mem_append.mpr ⟨earlier.accepted, later.accepted⟩
  · rw [executeAll_append, earlier.reached]
    exact later.reached

/-! ## What the replay calls do -/

variable {book : Book}

theorem execute_replayDelete
    {id : OrderID}
    (present : book.Contains id) :
    book.execute (.replayDeleteVisibleOrder id) = (.replay true, book.remove id) := by
  rw [execute, replayDelete]
  cases located : book.locate id with
  | none => exact absurd present (locate_eq_none.mp located)
  | some found => rfl

theorem execute_replayAdd
    {order : Order} {side : Side}
    (legal : book.Legal (.rest side order))
    (gtc : order.lifetime = .gtc) :
    book.execute (.replayAddVisibleOrder order.id order.price order.quantity side) =
      (.replay true, book.rest side order) := by
  obtain ⟨fresh, positive, lower, upper⟩ := legal
  have accepted : ¬ (order.quantity = 0 ∨ book.Contains order.id ∨
      order.price < book.minPrice ∨ order.price > book.maxPrice) := by
    rintro (zero | present | below | above)
    · lia
    · exact fresh present
    · exact below.not_ge lower
    · exact above.not_ge upper
  rw [execute, replayAdd, if_neg accepted, ← gtc]
  rfl

/-- Deleting some of the orders, each once. -/
theorem rebuilds_removeAll
    {ids : List OrderID}
    (present : ∀ id ∈ ids, book.Contains id)
    (once : ids.Nodup) :
    book.Rebuilds (ids.map .replayDeleteVisibleOrder) (book.removeAll ids) := by
  induction ids generalizing book with
  | nil => exact .nil book
  | cons id ids inductionHypothesis =>
      obtain ⟨headPresent, tailPresent⟩ := List.forall_mem_cons.mp present
      obtain ⟨notLater, tailOnce⟩ := List.nodup_cons.mp once
      refine .cons trivial (execute_replayDelete headPresent)
        (inductionHypothesis ?_ tailOnce)
      intro other member
      exact contains_remove.mpr ⟨tailPresent other member, fun same => notLater (same ▸ member)⟩

/-- A reduction by less than the order, and by all of it. -/
theorem Distinct.execute_replayReduce
    {side : Side} {order : Order} {amount : Quantity}
    (distinct : book.Distinct)
    (member : order ∈ book.orders side)
    (positive : 0 < amount)
    (atMost : amount ≤ order.quantity) :
    book.execute (.replayReduceVisibleOrder order.id amount) =
      (.replay true,
        if amount = order.quantity then book.remove order.id
        else book.reduce order.id amount) := by
  rw [execute, replayReduce, if_neg positive.ne', distinct.locate_of_mem member]
  simp only
  rw [if_neg atMost.not_gt]
  split <;> rfl

section Taking

variable {side : Side} {takes : Price → Bool} {quantity : Quantity}

/-- A taker that takes nothing changes nothing. -/
theorem Valid.rebuilds_of_taken_eq_nil
    (valid : book.Valid)
    (downward : Downward side takes)
    (nothing : (book.matching side takes quantity).taken = []) :
    book.Rebuilds
      (((book.matching side takes quantity).taken.map execution).map executionCall)
      (book.afterMatching side takes quantity) := by
  have untouched : (book.matching side takes quantity).rest =
      (book.orders side).filter fun order => takes order.price :=
    Fill.rest_of_taken_eq_nil nothing
  have unchanged : book.afterMatching side takes quantity = book := by
    rw [afterMatching, untouched, valid.partition downward, setOrders_orders]
  rw [unchanged, nothing]
  exact .nil book

theorem Valid.total_nonneg (valid : book.Valid) :
    0 ≤ (book.matching side takes quantity).total := by
  unfold matching
  rw [Fill.total_fill fun order member =>
    valid.positive side order (List.mem_of_mem_filter member)]
  exact le_max_left _ _

/-- When the first maker is not accepted, no other one is. -/
theorem Valid.filter_eq_nil
    {head : Order} {tail : List Order}
    (valid : book.Valid)
    (downward : Downward side takes)
    (makers : book.orders side = head :: tail)
    (refused : takes head.price ≠ true) :
    (book.orders side).filter (fun order => takes order.price) = [] := by
  have sorted := valid.sorted side
  rw [makers] at sorted ⊢
  refine List.filter_eq_nil_iff.mpr fun other inOrders accepted => refused ?_
  refine downward head.price other.price ?_ accepted
  rcases List.mem_cons.mp inOrders with rfl | later
  · exact le_rfl
  · exact (KeyedList.ordered_cons.mp sorted).1 other later

/-- The executions of a taker, one after the other. -/
theorem Valid.rebuilds_take
    (valid : book.Valid)
    (downward : Downward side takes)
    (range : quantity ≤ 2147483647) :
    book.Rebuilds
      (((book.matching side takes quantity).taken.map execution).map executionCall)
      (book.afterMatching side takes quantity) := by
  generalize makers : book.orders side = orders
  induction orders generalizing book quantity with
  | nil =>
      apply valid.rebuilds_of_taken_eq_nil downward
      rw [matching, makers]
      rfl
  | cons head tail inductionHypothesis =>
      have member : head ∈ book.orders side := makers ▸ List.mem_cons_self
      by_cases wanted : 0 < quantity
      case neg =>
        apply valid.rebuilds_of_taken_eq_nil downward
        rw [matching, Fill.fill_of_nonpos (not_lt.mp wanted)]
      by_cases accepted : takes head.price = true
      case neg =>
        apply valid.rebuilds_of_taken_eq_nil downward
        rw [matching, valid.filter_eq_nil downward makers accepted]
        rfl
      by_cases outlasts : quantity < head.quantity
      · have reduced := valid.distinct.execute_replayReduce member wanted outlasts.le
        rw [if_neg outlasts.ne, valid.distinct.reduce_head makers] at reduced
        rw [matching_of_outlasting makers accepted wanted outlasts,
          valid.afterMatching_of_outlasting downward makers accepted wanted outlasts]
        exact .only ⟨wanted, show InInt32 quantity from ⟨by lia, range⟩⟩ reduced
      · have usedUp := not_lt.mp outlasts
        have removed := valid.distinct.remove_head makers
        have validTail : (book.apply (.remove head.id)).Valid := valid.apply trivial
        rw [Book.apply, removed] at validTail
        have reduced := valid.distinct.execute_replayReduce member
          (valid.positive side head member) le_rfl
        rw [if_pos rfl, removed] at reduced
        rw [matching_of_usedUp makers accepted wanted usedUp,
          afterMatching_of_usedUp makers accepted wanted usedUp]
        have headPositive := valid.positive side head member
        refine .cons ⟨headPositive, show InInt32 head.quantity from ⟨by lia, by lia⟩⟩ reduced
          (inductionHypothesis validTail ?_ (orders_setOrders_self ..))
        lia

end Taking

/-! ## Calls and their reports -/

/-- A book that the taken makers have left, as an observer knows it. -/
theorem Valid.rebuilds_take_visible
    {side : Side} {takes : Price → Bool} {quantity : Quantity}
    (valid : book.Valid)
    (downward : Downward side takes)
    (range : quantity ≤ 2147483647) :
    book.visible.Rebuilds
      (((book.matching side takes quantity).taken.map execution).map executionCall)
      (book.afterMatching side takes quantity).visible := by
  have rebuilds := (hideLifetimes.valid_book valid).rebuilds_take downward range
  have sameTakes : ∀ price, takes (hideLifetimes.prices price) = takes price := fun _ => rfl
  have sameExecutions :
      ((hideLifetimes.book book).matching side takes quantity).taken.map execution =
        (book.matching side takes quantity).taken.map execution := by
    rw [hideLifetimes.matching_book book sameTakes, List.map_map]
    rfl
  rw [sameExecutions, ← hideLifetimes.book_afterMatching book sameTakes] at rebuilds
  exact rebuilds

/-- The remainder of a taker that rests is added. -/
theorem rebuilds_rest_visible
    {side : Side} {order : Order}
    (legal : book.Legal (.rest side order))
    (range : order.quantity ≤ 2147483647) :
    book.visible.Rebuilds
      [.replayAddVisibleOrder order.id order.price order.quantity side]
      (book.rest side order).visible := by
  have added := execute_replayAdd (hideLifetimes.legal_rest legal) rfl
  rw [← hideLifetimes.book_rest] at added
  have positive := legal.2.1
  exact .only ⟨positive, show InInt32 order.quantity from ⟨by lia, range⟩⟩ added

theorem Valid.rebuilds_submitResting
    {request : LimitOrderRequest}
    (valid : book.Valid)
    (accepted : ¬ book.Rejects request)
    (nonneg : 0 ≤ request.quantity)
    (range : request.quantity ≤ 2147483647)
    (lifetime : RestingLifetime) :
    book.visible.Rebuilds
      (submissionCalls request.id request.price request.side
        (book.submitResting request lifetime).1)
      (book.submitResting request lifetime).2.visible := by
  have taken := valid.rebuilds_take_visible (downward_accepts request.side request.price) range
  have legal := valid.allLegal_takeAndRest accepted nonneg lifetime
  refine taken.append ?_
  rw [additionCall]
  simp only [submitResting, rests_report_resting]
  by_cases none : book.remainder request = 0
  · have nothing : request.quantity - (book.matching request.side.opposite
        (accepts request.side request.price) request.quantity).total = 0 := none
    simp only [nothing, decide_true, Bool.not_true, Bool.false_eq_true, if_false, if_true]
    exact .nil _
  · have something : request.quantity - (book.matching request.side.opposite
        (accepts request.side request.price) request.quantity).total ≠ 0 := none
    rw [if_neg none] at legal
    simp only [something, decide_false, Bool.not_false, if_true, if_false]
    refine rebuilds_rest_visible legal.2.1.1 ?_
    exact (Int.sub_le_self _ valid.total_nonneg).trans range

theorem Valid.rebuilds_submitLimit
    {request : LimitOrderRequest}
    (valid : book.Valid)
    (nonneg : 0 ≤ request.quantity)
    (range : request.quantity ≤ 2147483647) :
    book.visible.Rebuilds
      (submissionCalls request.id request.price request.side (book.submitLimit request).1)
      (book.submitLimit request).2.visible := by
  have taken := valid.rebuilds_take_visible (downward_accepts request.side request.price) range
  unfold submitLimit
  by_cases rejected : book.Rejects request
  · simp only [rejected, if_true]
    exact .nil _
  simp only [rejected, if_false]
  cases request.tif with
  | gtc => exact valid.rebuilds_submitResting rejected nonneg range .gtc
  | day => exact valid.rebuilds_submitResting rejected nonneg range .day
  | ioc =>
      have noAddition : additionCall request.id request.price request.side
          (book.submitImmediate request).1 = [] := by
        rw [additionCall, submitImmediate, rests_report_dropped, if_neg Bool.false_ne_true]
      rw [submissionCalls, noAddition, List.append_nil]
      exact taken
  | fok =>
      simp only [submitAllOrNothing]
      split
      · refine (congrArg (book.visible.Rebuilds · _) (List.append_nil _)).mpr ?_
        exact taken
      · exact .nil _

theorem rebuilds_remove_visible
    {id : OrderID}
    (present : book.Contains id) :
    book.visible.Rebuilds [.replayDeleteVisibleOrder id] (book.remove id).visible := by
  have removed := execute_replayDelete ((hideLifetimes.contains_book book).mpr present)
  rw [← hideLifetimes.book_remove] at removed
  exact .only trivial removed

theorem visible_removeAll (ids : List OrderID) :
    (book.removeAll ids).visible = book.visible.removeAll ids := by
  induction ids generalizing book with
  | nil => rfl
  | cons id ids inductionHypothesis =>
      rw [removeAll_cons, inductionHypothesis, removeAll_cons, visible, visible,
        hideLifetimes.book_remove]
      rfl

/-- The DAY orders are deleted one by one. -/
theorem Valid.rebuilds_prune
    (valid : book.Valid) :
    book.visible.Rebuilds (book.dayIds.map .replayDeleteVisibleOrder) book.prune.visible := by
  have isDay : ∀ id, id ∈ book.dayIds ↔
      ∃ side, ∃ order ∈ book.orders side, order.lifetime = .day ∧ order.id = id := by
    intro id
    simp only [dayIds, dayOrders, List.mem_map, List.mem_filter, mem_sides, decide_eq_true_eq]
    constructor
    · rintro ⟨order, ⟨⟨side, member⟩, day⟩, sameId⟩
      exact ⟨side, order, member, day, sameId⟩
    · rintro ⟨side, order, member, day, sameId⟩
      exact ⟨order, ⟨⟨side, member⟩, day⟩, sameId⟩
  rw [← valid.distinct.removeAll_eq_prune isDay, visible_removeAll]
  apply rebuilds_removeAll
  · intro id member
    obtain ⟨side, order, inOrders, _, rfl⟩ := (isDay id).mp member
    exact (hideLifetimes.contains_book book).mpr (contains_of_mem inOrders)
  · exact valid.distinct.sublist (List.filter_sublist.map Order.id)

/-- A replay call succeeds, or leaves the book as it is. -/
theorem execute_replay
    {operation : Operation}
    (isReplay : ¬ operation.IsMatching) :
    (book.execute operation).1 = .replay true ∨
      book.execute operation = (.replay false, book) := by
  cases operation with
  | replayAddVisibleOrder id price quantity side =>
      simp only [execute, replayAdd]
      split
      · exact Or.inr rfl
      · exact Or.inl rfl
  | replayDeleteVisibleOrder id =>
      simp only [execute, replayDelete]
      split
      · exact Or.inr rfl
      · exact Or.inl rfl
  | replayReduceVisibleOrder id quantityReduced =>
      simp only [execute, replayReduce]
      split
      · exact Or.inr rfl
      split
      · exact Or.inr rfl
      split
      · exact Or.inr rfl
      split <;> exact Or.inl rfl
  | replayReplaceVisibleOrder originalId newId newPrice newQuantity =>
      simp only [execute, replayReplace]
      split
      · exact Or.inr rfl
      next accepted =>
        split
        · exact Or.inr rfl
        · rw [replayAdd_of_remove accepted]
          exact Or.inl rfl
  | submitLimitOrder | submitMarketOrder | cancelOrder | modifyOrder | onSessionEnd =>
      exact absurd trivial isReplay

theorem operation_hideLifetimes (operation : Operation) :
    hideLifetimes.operation operation = operation := by
  cases operation <;> rfl

theorem rebuilds_replay
    {operation : Operation}
    (isReplay : ¬ operation.IsMatching)
    (positive : operation.PositiveQuantities) :
    book.visible.Rebuilds
      (if (book.execute operation).1 = .replay true then [operation] else [])
      (book.execute operation).2.visible := by
  rcases execute_replay isReplay with succeeded | failed
  · have executed := @Relabelling.execute_book_of_replay hideLifetimes book rfl operation isReplay
    rw [operation_hideLifetimes] at executed
    rw [if_pos succeeded]
    exact .only positive (executed.trans (Prod.ext succeeded rfl))
  · rw [failed, if_neg (by simp)]
    exact .nil _

theorem reports_replay
    {operation : Operation}
    (isReplay : ¬ operation.IsMatching) :
    book.reports operation (book.execute operation).1 =
      if (book.execute operation).1 = .replay true then [operation] else [] := by
  have reported : ∀ succeeded, book.reports operation (.replay succeeded) =
      if Output.replay succeeded = .replay true then [operation] else [] := by
    intro succeeded
    cases operation <;> cases succeeded <;> first | rfl | exact absurd trivial isReplay
  cases operation with
  | replayAddVisibleOrder | replayDeleteVisibleOrder | replayReduceVisibleOrder
  | replayReplaceVisibleOrder => exact reported _
  | submitLimitOrder | submitMarketOrder | cancelOrder | modifyOrder | onSessionEnd =>
      exact absurd trivial isReplay

theorem Valid.rebuilds_modify
    {request : ModifyOrderRequest}
    (valid : book.Valid)
    (range : request.newQuantity ≤ 2147483647) :
    book.visible.Rebuilds
      (book.reports (.modifyOrder request) (book.execute (.modifyOrder request)).1)
      (book.execute (.modifyOrder request)).2.visible := by
  simp only [Book.execute, modify]
  split
  · exact .nil _
  cases located : book.locate request.id with
  | none => exact .nil _
  | some found =>
      obtain ⟨side, order⟩ := found
      obtain ⟨member, sameId⟩ := locate_eq_some located
      have removed := rebuilds_remove_visible (sameId ▸ contains_of_mem member)
      have sameSide : book.sideOf request.id = some side := by rw [sideOf, located, Option.map_some]
      by_cases resubmits : request.newQuantity > 0
      · have validAfter : (book.apply (.remove request.id)).Valid := valid.apply trivial
        have resubmitted := @Valid.rebuilds_submitLimit (book.remove request.id)
          ⟨request.id, request.newPrice, request.newQuantity, side,
            resubmissionTif order.lifetime⟩ validAfter resubmits.le range
        simp only [resubmits, if_true, Prod.map, reports, sameSide]
        exact removed.append resubmitted
      · simp only [resubmits, if_false]
        exact removed

/-- The reports of a call rebuild on the book of an observer what the call did. -/
theorem Valid.rebuilds_reports
    {operation : Operation}
    (valid : book.Valid)
    (positive : operation.PositiveQuantities) :
    book.visible.Rebuilds (book.reports operation (book.execute operation).1)
      (book.execute operation).2.visible := by
  have replayCase : ¬ operation.IsMatching →
      book.visible.Rebuilds (book.reports operation (book.execute operation).1)
        (book.execute operation).2.visible := fun isReplay =>
    reports_replay isReplay ▸ rebuilds_replay isReplay positive
  cases operation with
  | submitLimitOrder request =>
      exact valid.rebuilds_submitLimit ((zero_le_one' Int).trans positive.1) positive.2.2
  | submitMarketOrder request =>
      simp only [Book.execute, submitMarket]
      split
      · exact .nil _
      · exact valid.rebuilds_take_visible (downward_all _) positive.2.2
  | cancelOrder request =>
      simp only [Book.execute, cancel]
      cases located : book.locate request.id with
      | none => exact .nil _
      | some found =>
          obtain ⟨member, sameId⟩ := locate_eq_some located
          exact rebuilds_remove_visible (sameId ▸ contains_of_mem member)
  | modifyOrder request => exact valid.rebuilds_modify positive.2.2
  | onSessionEnd => exact valid.rebuilds_prune
  | replayAddVisibleOrder | replayDeleteVisibleOrder | replayReduceVisibleOrder
  | replayReplaceVisibleOrder => exact replayCase not_false

end Book
end Reference

/-! ## Room for the reports -/

/-- A call that only reduces or deletes. -/
def Operation.Shrinks : Operation → Prop
  | replayDeleteVisibleOrder _ | replayReduceVisibleOrder .. => True
  | _ => False

namespace Reference

theorem shrinks_executionCalls (executions : List ExecutionResult) :
    ∀ call ∈ executions.map executionCall, call.Shrinks := by
  intro call member
  obtain ⟨result, _, rfl⟩ := List.mem_map.mp member
  trivial

/-- All but the last report of a call shrink the book. -/
theorem Book.reports_shape (book : Book) (operation : Operation) (output : Output) :
    ∃ shrinking last, book.reports operation output = shrinking ++ last ∧
      (∀ call ∈ shrinking, call.Shrinks) ∧ last.length ≤ 1 := by
  have few : ∀ id price side result, (additionCall id price side result).length ≤ 1 := by
    intro id price side result
    unfold additionCall
    split <;> simp
  unfold reports
  split
  · exact ⟨_, _, rfl, shrinks_executionCalls _, few _ _ _ _⟩
  · exact ⟨_, [], (List.append_nil _).symm, shrinks_executionCalls _, by simp⟩
  · split <;> exact ⟨[], _, rfl, by simp, by simp⟩
  · split
    · exact ⟨_ :: _, _, rfl, List.forall_mem_cons.mpr ⟨trivial, shrinks_executionCalls _⟩,
        few _ _ _ _⟩
    · exact ⟨[], _, rfl, by simp, by simp⟩
    · exact ⟨[], [], rfl, by simp, by simp⟩
  · refine ⟨_, [], (List.append_nil _).symm, ?_, by simp⟩
    intro call member
    obtain ⟨id, _, rfl⟩ := List.mem_map.mp member
    trivial
  · exact ⟨[], _, rfl, by simp, by simp⟩
  · exact ⟨[], [], rfl, by simp, by simp⟩

end Reference

namespace Refinement

variable {spec : Reference.Book} {operations : List Operation}

theorem RoomyBook.reduce (roomy : RoomyBook spec) (id : OrderID) (amount : Quantity) :
    RoomyBook (spec.reduce id amount) := by
  intro side price
  rw [Reference.Book.orders_reduce, queueAt_map_reduce, List.length_map]
  exact roomy side price

/-- A call that only reduces or deletes makes no queue longer. -/
theorem RoomyBook.execute
    {operation : Operation}
    (roomy : RoomyBook spec)
    (shrinks : operation.Shrinks) :
    RoomyBook (spec.execute operation).2 := by
  cases operation with
  | replayDeleteVisibleOrder id =>
      simp only [Reference.Book.execute, Reference.Book.replayDelete]
      split
      · exact roomy
      · exact roomy.remove id
  | replayReduceVisibleOrder id quantityReduced =>
      simp only [Reference.Book.execute, Reference.Book.replayReduce]
      split
      · exact roomy
      split
      · exact roomy
      split
      · exact roomy
      split
      · exact roomy.remove id
      · exact roomy.reduce id quantityReduced
  | submitLimitOrder | submitMarketOrder | cancelOrder | modifyOrder | onSessionEnd
  | replayAddVisibleOrder | replayReplaceVisibleOrder => exact shrinks.elim

/-- Calls that shrink the book and one more call have room when the books before and
after them have. -/
theorem RoomyAlong.of_shape
    {shrinking last : List Operation}
    (start : RoomyBook spec)
    (finish : RoomyBook (spec.executeAll (shrinking ++ last)).2)
    (shrinks : ∀ call ∈ shrinking, call.Shrinks)
    (atMostOne : last.length ≤ 1) :
    RoomyAlong spec (shrinking ++ last) := by
  have whileShrinking : ∀ earlier, earlier <+: shrinking →
      RoomyBook (spec.executeAll earlier).2 := by
    intro earlier isPrefix
    apply Reference.Book.executeAll_preserves RoomyBook
    · exact fun book call member roomy =>
        roomy.execute (shrinks call (isPrefix.subset member))
    · exact start
  intro earlier isPrefix
  cases last with
  | nil =>
      rw [List.append_nil] at isPrefix
      exact whileShrinking earlier isPrefix
  | cons call rest =>
      obtain rfl : rest = [] :=
        List.eq_nil_of_length_eq_zero (Nat.le_zero.mp (Nat.le_of_succ_le_succ atMostOne))
      rcases List.prefix_concat_iff.mp isPrefix with rfl | shorter
      · exact finish
      · exact whileShrinking earlier shorter

/-- The reports of a call have room when the books before and after it have. -/
theorem RoomyAlong.reports
    {operation : Operation}
    (valid : spec.Valid)
    (positive : operation.PositiveQuantities)
    (before : RoomyBook spec)
    (after : RoomyBook (spec.execute operation).2) :
    RoomyAlong spec.visible (spec.reports operation (spec.execute operation).1) := by
  have rebuilds := valid.rebuilds_reports positive
  obtain ⟨shrinking, last, shape, shrinks, atMostOne⟩ :=
    spec.reports_shape operation (spec.execute operation).1
  rw [shape] at rebuilds ⊢
  refine RoomyAlong.of_shape (before.withLabels _) ?_ shrinks atMostOne
  exact rebuilds.reached ▸ after.withLabels _

end Refinement
end MatchingEngine
