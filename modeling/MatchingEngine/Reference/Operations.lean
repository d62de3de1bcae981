import MatchingEngine.Model.History
import MatchingEngine.Reference.Changes

/-!
# Operations as sequences of changes

Every operation of the reference book is a sequence of elementary changes.  Its
executions are those of the changes, and an order enters the book with the last
of them or not at all.
-/

namespace MatchingEngine
namespace Reference
namespace Book

/-! ## The changes of an operation -/

/-- What is left of a limit order after matching. -/
def remainder (book : Book) (request : LimitOrderRequest) : Quantity :=
  request.quantity - (book.matching request.side.opposite
    (accepts request.side request.price) request.quantity).total

/-- The order that rests when something is left of a limit order. -/
def remainingOrder (book : Book) (request : LimitOrderRequest) (lifetime : RestingLifetime) :
    Order :=
  ⟨request.id, request.price, book.remainder request, lifetime⟩

/-- What a submitted limit order changes. -/
def limitChanges (book : Book) (request : LimitOrderRequest) : List Change :=
  let take := Change.take request.side.opposite (accepts request.side request.price)
    request.quantity
  let takeAndRest (lifetime : RestingLifetime) : List Change :=
    if book.remainder request = 0 then [take]
    else [take, .rest request.side (book.remainingOrder request lifetime)]
  if book.Rejects request then []
  else
    match request.tif with
    | .gtc => takeAndRest .gtc
    | .day => takeAndRest .day
    | .ioc => [take]
    | .fok => if book.remainder request = 0 then [take] else []

/-- What a call changes, in this sequence. -/
def changes (book : Book) : Operation → List Change
  | .submitLimitOrder limitRequest => book.limitChanges limitRequest
  | .submitMarketOrder marketRequest =>
      if book.Contains marketRequest.id then []
      else [.take marketRequest.side.opposite (fun _ => true) marketRequest.quantity]
  | .cancelOrder cancelRequest =>
      match book.locate cancelRequest.id with
      | none => []
      | some _ => [.remove cancelRequest.id]
  | .modifyOrder modificationRequest =>
      if modificationRequest.newPrice > book.maxPrice ∨
          modificationRequest.newPrice < book.minPrice then []
      else
        match book.locate modificationRequest.id with
        | none => []
        | some (side, order) =>
            .remove modificationRequest.id ::
              if modificationRequest.newQuantity > 0 then
                (book.remove modificationRequest.id).limitChanges
                  ⟨modificationRequest.id, modificationRequest.newPrice,
                    modificationRequest.newQuantity, side, resubmissionTif order.lifetime⟩
              else []
  | .onSessionEnd => [.prune]
  | .replayAddVisibleOrder orderId price quantity side =>
      if quantity = 0 ∨ book.Contains orderId ∨ price < book.minPrice ∨
          price > book.maxPrice then []
      else [.rest side ⟨orderId, price, quantity, .gtc⟩]
  | .replayDeleteVisibleOrder orderId =>
      match book.locate orderId with
      | none => []
      | some _ => [.remove orderId]
  | .replayReduceVisibleOrder orderId quantityReduced =>
      if quantityReduced = 0 then []
      else
        match book.locate orderId with
        | none => []
        | some (_, order) =>
            if quantityReduced > order.quantity then []
            else if quantityReduced = order.quantity then [.remove orderId]
            else [.reduce orderId quantityReduced]
  | .replayReplaceVisibleOrder originalId newId newPrice newQuantity =>
      if newQuantity = 0 ∨ newPrice < book.minPrice ∨ newPrice > book.maxPrice ∨
          book.Contains newId then []
      else
        match book.locate originalId with
        | none => []
        | some (side, _) =>
            [.remove originalId, .rest side ⟨newId, newPrice, newQuantity, .gtc⟩]

theorem submitLimit_changes (book : Book) (request : LimitOrderRequest) :
    (book.submitLimit request).2 = book.applyAll (book.limitChanges request) ∧
      (book.submitLimit request).1.executions =
        book.executedAll (book.limitChanges request) := by
  unfold submitLimit limitChanges
  by_cases rejected : book.Rejects request
  · simp [rejected, executedAll]
  simp only [rejected, if_false]
  have nothing : request.quantity - (book.matching request.side.opposite
      (accepts request.side request.price) request.quantity).total = 0 ↔
        book.remainder request = 0 := Iff.rfl
  have filled : (book.matching request.side.opposite (accepts request.side request.price)
      request.quantity).total = request.quantity ↔ book.remainder request = 0 := by
    rw [← nothing]
    lia
  cases request.tif with
  | gtc | day =>
      simp only [submitResting, nothing]
      by_cases none : book.remainder request = 0
      · simp [none, executedAll, executed, apply, report]
      · simp only [none, if_false, executedAll, executed, apply, report, applyAll_cons,
          applyAll_nil, List.append_nil, and_true]
        rfl
  | ioc => simp [submitImmediate, executedAll, executed, apply, report]
  | fok =>
      simp only [submitAllOrNothing, filled]
      by_cases none : book.remainder request = 0
      · simp [none, executedAll, executed, apply, report]
      · simp [none, executedAll]

/-- A replacement whose guard has passed inserts the new order. -/
theorem replayAdd_of_remove
    {book : Book} {originalId newId : OrderID} {newPrice : Price} {newQuantity : Quantity}
    (accepted : ¬ (newQuantity = 0 ∨ newPrice < book.minPrice ∨ newPrice > book.maxPrice ∨
      book.Contains newId))
    (side : Side) :
    (book.remove originalId).replayAdd newId newPrice newQuantity side =
      (true, (book.remove originalId).rest side ⟨newId, newPrice, newQuantity, .gtc⟩) := by
  unfold replayAdd
  rw [if_neg]
  rintro (zero | present | below | above)
  · exact accepted (Or.inl zero)
  · exact accepted (Or.inr (Or.inr (Or.inr (contains_remove.mp present).1)))
  · exact accepted (Or.inr (Or.inl below))
  · exact accepted (Or.inr (Or.inr (Or.inl above)))

/-- The book after an operation, and the executions that it reports. -/
theorem execute_changes (book : Book) (operation : Operation) :
    (book.execute operation).2 = book.applyAll (book.changes operation) ∧
      (book.execute operation).1.executions = book.executedAll (book.changes operation) := by
  cases operation with
  | submitLimitOrder limitRequest => exact book.submitLimit_changes limitRequest
  | submitMarketOrder marketRequest =>
      simp only [execute, submitMarket, changes]
      split <;> simp [Output.executions, executedAll, executed, apply, report]
  | cancelOrder cancelRequest =>
      simp only [execute, cancel, changes]
      cases book.locate cancelRequest.id <;>
        simp [Output.executions, executedAll, executed, apply]
  | modifyOrder modificationRequest =>
      simp only [execute, modify, changes]
      split
      · simp [Output.executions, executedAll]
      cases book.locate modificationRequest.id with
      | none => simp [Output.executions, executedAll]
      | some found =>
          obtain ⟨side, order⟩ := found
          by_cases resubmits : modificationRequest.newQuantity > 0
          · simp only [resubmits, if_true]
            exact submitLimit_changes _ _
          · simp [resubmits, Output.executions, executedAll, executed, apply]
  | onSessionEnd => exact ⟨rfl, rfl⟩
  | replayAddVisibleOrder orderId price quantity side =>
      simp only [execute, replayAdd, changes]
      split <;> simp [Output.executions, executedAll, executed, apply]
  | replayDeleteVisibleOrder orderId =>
      simp only [execute, replayDelete, changes]
      cases book.locate orderId <;> simp [Output.executions, executedAll, executed, apply]
  | replayReduceVisibleOrder orderId quantityReduced =>
      simp only [execute, replayReduce, changes]
      split
      · simp [Output.executions, executedAll]
      cases book.locate orderId with
      | none => simp [Output.executions, executedAll]
      | some found =>
          simp only
          split
          · simp [Output.executions, executedAll]
          · split <;> simp [Output.executions, executedAll, executed, apply]
  | replayReplaceVisibleOrder originalId newId newPrice newQuantity =>
      simp only [execute, replayReplace, changes]
      split
      · simp [Output.executions, executedAll]
      next accepted =>
        cases book.locate originalId with
        | none => simp [Output.executions, executedAll]
        | some found =>
            simp only [replayAdd_of_remove accepted]
            simp [Output.executions, executedAll, executed, apply]

@[simp] theorem execute_minPrice (book : Book) (operation : Operation) :
    (book.execute operation).2.minPrice = book.minPrice := by
  rw [(book.execute_changes operation).1, applyAll_minPrice]

@[simp] theorem execute_maxPrice (book : Book) (operation : Operation) :
    (book.execute operation).2.maxPrice = book.maxPrice := by
  rw [(book.execute_changes operation).1, applyAll_maxPrice]

/-- What a limit order executes is one matching. -/
theorem executedAll_limitChanges (book : Book) (request : LimitOrderRequest) :
    book.executedAll (book.limitChanges request) = [] ∨
      book.executedAll (book.limitChanges request) =
        (book.matching request.side.opposite (accepts request.side request.price)
          request.quantity).taken.map execution := by
  unfold limitChanges
  by_cases rejected : book.Rejects request
  · simp only [rejected, if_true]
    exact Or.inl rfl
  simp only [rejected, if_false]
  cases request.tif with
  | gtc | day =>
      refine Or.inr ?_
      by_cases none : book.remainder request = 0 <;> simp [none, executedAll, executed]
  | ioc => exact Or.inr (List.append_nil _)
  | fok =>
      by_cases none : book.remainder request = 0 <;> simp [none, executedAll, executed]

/-- What an operation executes is one matching in the book before it. -/
theorem Distinct.executions_execute
    {book : Book}
    (distinct : book.Distinct)
    (operation : Operation) :
    (book.execute operation).1.executions = [] ∨
      ∃ makerSide takes quantity, Downward makerSide takes ∧
        (book.execute operation).1.executions =
          (book.matching makerSide takes quantity).taken.map execution := by
  rw [(book.execute_changes operation).2]
  cases operation with
  | submitLimitOrder limitRequest =>
      exact (book.executedAll_limitChanges limitRequest).imp_right fun matched =>
        ⟨_, _, _, downward_accepts _ _, matched⟩
  | submitMarketOrder marketRequest =>
      simp only [changes]
      split
      · exact Or.inl rfl
      · exact Or.inr ⟨_, _, _, downward_all _, List.append_nil _⟩
  | modifyOrder modificationRequest =>
      simp only [changes]
      split
      · exact Or.inl rfl
      split
      · exact Or.inl rfl
      next side order located =>
        obtain ⟨member, sameId⟩ := locate_eq_some located
        split
        · -- The modified order rests on the taker's side, so the makers are the same.
          have sameMakers :
              (book.remove modificationRequest.id).orders side.opposite =
                book.orders side.opposite := by
            rw [← sameId]
            exact distinct.orders_remove_of_ne member side.opposite_ne
          have executions := (book.remove modificationRequest.id).executedAll_limitChanges
            ⟨modificationRequest.id, modificationRequest.newPrice,
              modificationRequest.newQuantity, side, resubmissionTif order.lifetime⟩
          simp only [matching, sameMakers] at executions
          exact executions.imp_right fun matched =>
            ⟨side.opposite, _, _, downward_accepts side modificationRequest.newPrice, matched⟩
        · exact Or.inl rfl
  | cancelOrder cancelRequest =>
      simp only [changes]
      split <;> exact Or.inl rfl
  | onSessionEnd => exact Or.inl rfl
  | replayAddVisibleOrder orderId price quantity side =>
      simp only [changes]
      split <;> exact Or.inl rfl
  | replayDeleteVisibleOrder orderId =>
      simp only [changes]
      split <;> exact Or.inl rfl
  | replayReduceVisibleOrder orderId quantityReduced =>
      simp only [changes]
      repeat' split
      all_goals exact Or.inl rfl
  | replayReplaceVisibleOrder originalId newId newPrice newQuantity =>
      simp only [changes]
      repeat' split
      all_goals exact Or.inl rfl

/-! ## Entries -/

/-- The last change of a sequence queues the order that enters, if one does, and the
others queue nothing. -/
inductive EntersLast : List Change → Option OrderID → Prop
  | nothing {changes : List Change}
      (quiet : ∀ change ∈ changes, change.Quiet) :
      EntersLast changes none
  | rest {changes : List Change}
      (quiet : ∀ change ∈ changes, change.Quiet)
      (side : Side) (order : Order) :
      EntersLast (changes ++ [.rest side order]) (some order.id)

theorem EntersLast.cons
    {change : Change} {changes : List Change} {entered : Option OrderID}
    (quietFirst : change.Quiet)
    (entersLast : EntersLast changes entered) :
    EntersLast (change :: changes) entered := by
  cases entersLast with
  | nothing quiet => exact .nothing (List.forall_mem_cons.mpr ⟨quietFirst, quiet⟩)
  | rest quiet side order =>
      exact .rest (List.forall_mem_cons.mpr ⟨quietFirst, quiet⟩) side order

theorem EntersLast.nil : EntersLast [] none :=
  .nothing (by simp)

theorem EntersLast.only (side : Side) (order : Order) :
    EntersLast [.rest side order] (some order.id) :=
  .rest (List.forall_mem_nil _) side order

theorem EntersLast.singleton {change : Change} (quiet : change.Quiet) :
    EntersLast [change] none :=
  .cons quiet .nil

theorem rests_report_resting
    (outcome : Fill.Outcome Order) (remaining quantity : Quantity) :
    (report outcome quantity (restingStatus remaining quantity)).rests =
      !decide (remaining = 0) := by
  unfold SubmissionResult.rests report restingStatus
  by_cases none : remaining = 0
  · simp [none]
  · by_cases less : remaining < quantity <;> simp [none, less]

theorem rests_report_dropped
    (outcome : Fill.Outcome Order) (remaining quantity : Quantity) :
    (report outcome quantity (droppedStatus remaining quantity)).rests = false := by
  unfold SubmissionResult.rests report droppedStatus
  by_cases none : remaining = 0
  · simp [none]
  · by_cases less : remaining < quantity <;> simp [none, less]

/-- A limit order enters the book when its remainder rests. -/
theorem entersLast_limitChanges (book : Book) (request : LimitOrderRequest) :
    EntersLast (book.limitChanges request)
      (if (book.submitLimit request).1.rests then some request.id else none) := by
  have takeQuiet : (Change.take request.side.opposite (accepts request.side request.price)
      request.quantity).Quiet := trivial
  unfold limitChanges submitLimit
  by_cases rejected : book.Rejects request
  · simp only [rejected, if_true]
    exact .nil
  simp only [rejected, if_false]
  cases request.tif with
  | gtc | day =>
      simp only [submitResting, rests_report_resting]
      change EntersLast (if book.remainder request = 0 then _ else _)
        (if (!decide (book.remainder request = 0)) = true then _ else _)
      by_cases nothingLeft : book.remainder request = 0
      · simp only [nothingLeft, decide_true, Bool.not_true, if_true, Bool.false_eq_true,
          if_false]
        exact .singleton takeQuiet
      · simp only [nothingLeft, decide_false, Bool.not_false, if_true, if_false]
        exact .cons takeQuiet
          (.only request.side (book.remainingOrder request _))
  | ioc =>
      simp only [submitImmediate, rests_report_dropped, Bool.false_eq_true, if_false]
      exact .singleton takeQuiet
  | fok =>
      have noRest : (book.submitAllOrNothing request).1.rests = false := by
        simp only [submitAllOrNothing]
        split <;> rfl
      change EntersLast (if book.remainder request = 0 then _ else [])
        (if (book.submitAllOrNothing request).1.rests = true then _ else none)
      rw [noRest, if_neg Bool.false_ne_true]
      split
      · exact .singleton takeQuiet
      · exact .nil

theorem map_filter_rests (result : SubmissionResult) (id : OrderID) :
    ((some result).filter SubmissionResult.rests).map (fun _ => id) =
      if result.rests then some id else none := by
  rw [Option.filter_some]
  split <;> rfl

theorem entersLast_changes (book : Book) (operation : Operation) :
    EntersLast (book.changes operation) (operation.entered (book.execute operation).1) := by
  cases operation with
  | submitLimitOrder limitRequest =>
      have entersLast := book.entersLast_limitChanges limitRequest
      rw [← map_filter_rests] at entersLast
      exact entersLast
  | submitMarketOrder marketRequest =>
      simp only [changes]
      split
      · exact .nil
      · exact .singleton trivial
  | cancelOrder cancelRequest =>
      simp only [changes]
      split
      · exact .nil
      · exact .singleton trivial
  | modifyOrder modificationRequest =>
      simp only [changes, execute, modify]
      split
      · exact .nil
      cases book.locate modificationRequest.id with
      | none => exact .nil
      | some found =>
          obtain ⟨side, order⟩ := found
          by_cases resubmits : modificationRequest.newQuantity > 0
          · simp only [resubmits, if_true]
            have entersLast := (book.remove modificationRequest.id).entersLast_limitChanges
              ⟨modificationRequest.id, modificationRequest.newPrice,
                modificationRequest.newQuantity, side, resubmissionTif order.lifetime⟩
            rw [← map_filter_rests] at entersLast
            exact .cons trivial entersLast
          · simp only [resubmits, if_false]
            exact .singleton trivial
  | onSessionEnd => exact .singleton trivial
  | replayAddVisibleOrder orderId price quantity side =>
      simp only [changes, execute, Operation.entered, replayAdd]
      split
      · exact .nil
      · exact .only side ⟨orderId, price, quantity, .gtc⟩
  | replayDeleteVisibleOrder orderId =>
      simp only [changes]
      split
      · exact .nil
      · exact .singleton trivial
  | replayReduceVisibleOrder orderId quantityReduced =>
      simp only [changes]
      repeat' split
      all_goals first
        | exact .nil
        | exact .singleton trivial
  | replayReplaceVisibleOrder originalId newId newPrice newQuantity =>
      simp only [changes, execute, Operation.entered, replayReplace]
      split
      · exact .nil
      next accepted =>
        cases book.locate originalId with
        | none => exact .nil
        | some found =>
            simp only [replayAdd_of_remove accepted]
            exact .cons trivial (.only found.1 ⟨newId, newPrice, newQuantity, .gtc⟩)

end Book
end Reference
end MatchingEngine
