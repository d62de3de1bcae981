import MatchingEngine.Reference.Relabelling
import MatchingEngine.Refinement.Calls
import MatchingEngine.Refinement.Snapshot

/-!
# Operations commute with relabelling

A relabelling that keeps the lifetimes is applied to a call and to its answer as
it is to the book.  Calling first and relabelling then is relabelling first and
calling then, the session end included: between the relabelled prices there may
be others, but no orders rest there.
-/

namespace MatchingEngine
namespace Reference
namespace Relabelling

variable (labels : Relabelling)

/-! ## Calls and answers -/

/-- A request under its new labels. -/
def limitRequest (request : LimitOrderRequest) : LimitOrderRequest :=
  { request with
    id := labels.ids request.id
    price := labels.prices request.price }

/-- A call under its new labels. -/
def operation : Operation → Operation
  | .submitLimitOrder request => .submitLimitOrder (labels.limitRequest request)
  | .submitMarketOrder request =>
      .submitMarketOrder { request with id := labels.ids request.id }
  | .cancelOrder request => .cancelOrder ⟨labels.ids request.id⟩
  | .modifyOrder request =>
      .modifyOrder { request with
        id := labels.ids request.id
        newPrice := labels.prices request.newPrice }
  | .onSessionEnd => .onSessionEnd
  | .replayAddVisibleOrder id price quantity side =>
      .replayAddVisibleOrder (labels.ids id) (labels.prices price) quantity side
  | .replayDeleteVisibleOrder id => .replayDeleteVisibleOrder (labels.ids id)
  | .replayReduceVisibleOrder id quantityReduced =>
      .replayReduceVisibleOrder (labels.ids id) quantityReduced
  | .replayReplaceVisibleOrder originalId newId newPrice newQuantity =>
      .replayReplaceVisibleOrder (labels.ids originalId) (labels.ids newId)
        (labels.prices newPrice) newQuantity

/-- An execution under its new labels. -/
def execution (result : ExecutionResult) : ExecutionResult :=
  { result with
    makerOrderID := labels.ids result.makerOrderID
    makerPrice := labels.prices result.makerPrice }

/-- The answer to a submission, with new labels on its executions. -/
def submission (result : SubmissionResult) : SubmissionResult :=
  { result with executions := result.executions.map labels.execution }

/-- An answer under its new labels. -/
def output : Output → Output
  | .submission result => .submission (labels.submission result)
  | .modification result =>
      .modification { result with
        resubmissionResult := result.resubmissionResult.map labels.submission }
  | other => other

theorem positiveQuantities_operation (call : Operation) :
    (labels.operation call).PositiveQuantities ↔ call.PositiveQuantities := by
  cases call <;> rfl

/-! ## Submissions -/

variable (book : Book)

theorem rejects_book (request : LimitOrderRequest) :
    (labels.book book).Rejects (labels.limitRequest request) ↔ book.Rejects request := by
  simp [Book.Rejects, limitRequest]

theorem total_map (outcome : Fill.Outcome Order) (rest : List Order) :
    Fill.Outcome.total ⟨outcome.taken.map (Prod.map labels.order id), rest⟩ = outcome.total := by
  rw [Fill.Outcome.total, List.map_map]
  rfl

theorem submission_report
    (outcome : Fill.Outcome Order) (rest : List Order) (quantity : Quantity)
    (status : SubmitStatus) :
    Book.report ⟨outcome.taken.map (Prod.map labels.order id), rest⟩ quantity status =
      labels.submission (Book.report outcome quantity status) := by
  rw [Book.report, total_map, List.map_map]
  simp only [Book.report, submission, List.map_map]
  rfl

section Limit

variable (request : LimitOrderRequest)

/-- A relabelled request finds the relabelled makers. -/
theorem matching_limitRequest :
    (labels.book book).matching (labels.limitRequest request).side.opposite
        (Book.accepts (labels.limitRequest request).side (labels.limitRequest request).price)
        (labels.limitRequest request).quantity =
      ⟨(book.matching request.side.opposite (Book.accepts request.side request.price)
          request.quantity).taken.map (Prod.map labels.order id),
        (book.matching request.side.opposite (Book.accepts request.side request.price)
          request.quantity).rest.map labels.order⟩ :=
  labels.matching_book book (labels.accepts_prices request.side request.price) _ _

theorem afterMatching_limitRequest :
    (labels.book book).afterMatching (labels.limitRequest request).side.opposite
        (Book.accepts (labels.limitRequest request).side (labels.limitRequest request).price)
        (labels.limitRequest request).quantity =
      labels.book (book.afterMatching request.side.opposite
        (Book.accepts request.side request.price) request.quantity) :=
  (labels.book_afterMatching book (labels.accepts_prices request.side request.price) _ _).symm

theorem submitResting_book
    {lifetime : RestingLifetime}
    (kept : labels.lifetimes lifetime = lifetime) :
    (labels.book book).submitResting (labels.limitRequest request) lifetime =
      (book.submitResting request lifetime).map labels.submission labels.book := by
  simp only [Book.submitResting, labels.matching_limitRequest book request,
    labels.afterMatching_limitRequest book request, total_map, submission_report, Prod.map]
  congr 1
  change (if _ then _ else _) = labels.book (if _ then _ else _)
  by_cases none : request.quantity - (book.matching request.side.opposite
      (Book.accepts request.side request.price) request.quantity).total = 0
  · rw [if_pos none]
    exact if_pos none
  · rw [if_neg none, book_rest, order, kept]
    exact if_neg none

theorem submitImmediate_book :
    (labels.book book).submitImmediate (labels.limitRequest request) =
      (book.submitImmediate request).map labels.submission labels.book := by
  simp only [Book.submitImmediate, labels.matching_limitRequest book request,
    labels.afterMatching_limitRequest book request, total_map, submission_report, Prod.map]
  rfl

theorem submitAllOrNothing_book :
    (labels.book book).submitAllOrNothing (labels.limitRequest request) =
      (book.submitAllOrNothing request).map labels.submission labels.book := by
  simp only [Book.submitAllOrNothing, labels.matching_limitRequest book request,
    labels.afterMatching_limitRequest book request, total_map, submission_report]
  by_cases filled : (book.matching request.side.opposite
      (Book.accepts request.side request.price) request.quantity).total = request.quantity
  · rw [if_pos filled]
    exact if_pos filled
  · rw [if_neg filled]
    exact if_neg filled

/-- A relabelling keeps the lifetimes. -/
def KeepsLifetimes : Prop := ∀ lifetime, labels.lifetimes lifetime = lifetime

variable {labels}

theorem KeepsLifetimes.submitLimit (keeps : labels.KeepsLifetimes) :
    (labels.book book).submitLimit (labels.limitRequest request) =
      (book.submitLimit request).map labels.submission labels.book := by
  unfold Book.submitLimit
  by_cases rejected : book.Rejects request
  · rw [if_pos rejected, if_pos ((labels.rejects_book book request).mpr rejected)]
    rfl
  · rw [if_neg rejected, if_neg fun rejects =>
      rejected ((labels.rejects_book book request).mp rejects)]
    have sameTif : (labels.limitRequest request).tif = request.tif := rfl
    rw [sameTif]
    cases request.tif with
    | gtc => exact labels.submitResting_book book request (keeps .gtc)
    | day => exact labels.submitResting_book book request (keeps .day)
    | ioc => exact labels.submitImmediate_book book request
    | fok => exact labels.submitAllOrNothing_book book request

end Limit

/-! ## Replay -/

section Replay

variable {labels}

theorem replayAdd_book
    (gtcKept : labels.lifetimes .gtc = .gtc)
    (orderId : OrderID) (price : Price) (quantity : Quantity) (side : Side) :
    (labels.book book).replayAdd (labels.ids orderId) (labels.prices price) quantity side =
      (book.replayAdd orderId price quantity side).map id labels.book := by
  unfold Book.replayAdd
  simp only [contains_book, book_minPrice, book_maxPrice, prices_lt, gt_iff_lt]
  split
  · rfl
  · simp only [Prod.map, book_rest, order, gtcKept, id]

variable (labels)

theorem replayDelete_book (orderId : OrderID) :
    (labels.book book).replayDelete (labels.ids orderId) =
      (book.replayDelete orderId).map id labels.book := by
  unfold Book.replayDelete
  rw [locate_book]
  cases book.locate orderId with
  | none => rfl
  | some found => exact congrArg (Prod.mk true) (labels.book_remove book orderId).symm

theorem replayReduce_book (orderId : OrderID) (quantityReduced : Quantity) :
    (labels.book book).replayReduce (labels.ids orderId) quantityReduced =
      (book.replayReduce orderId quantityReduced).map id labels.book := by
  unfold Book.replayReduce
  rw [locate_book]
  split
  · rfl
  cases book.locate orderId with
  | none => rfl
  | some found =>
      simp only [Option.map_some, order_quantity, ← book_remove, ← book_reduce]
      split
      · rfl
      · split <;> rfl

variable {labels}

theorem replayReplace_book
    (gtcKept : labels.lifetimes .gtc = .gtc)
    (originalId newId : OrderID) (newPrice : Price) (newQuantity : Quantity) :
    (labels.book book).replayReplace (labels.ids originalId) (labels.ids newId)
        (labels.prices newPrice) newQuantity =
      (book.replayReplace originalId newId newPrice newQuantity).map id labels.book := by
  unfold Book.replayReplace
  simp only [contains_book, book_minPrice, book_maxPrice, prices_lt, gt_iff_lt, locate_book]
  split
  · rfl
  cases book.locate originalId with
  | none => rfl
  | some found =>
      simp only [Option.map_some, ← book_remove]
      exact replayAdd_book _ gtcKept newId newPrice newQuantity found.1

/-- The replay operations act on a relabelled book as they act on the book. -/
theorem execute_book_of_replay
    (gtcKept : labels.lifetimes .gtc = .gtc)
    {call : Operation}
    (isReplay : ¬ call.IsMatching) :
    (labels.book book).execute (labels.operation call) =
      (book.execute call).map id labels.book := by
  cases call with
  | replayAddVisibleOrder orderId price quantity side =>
      exact congrArg (Prod.map Output.replay id)
        (replayAdd_book book gtcKept orderId price quantity side)
  | replayDeleteVisibleOrder orderId =>
      exact congrArg (Prod.map Output.replay id) (labels.replayDelete_book book orderId)
  | replayReduceVisibleOrder orderId quantityReduced =>
      exact congrArg (Prod.map Output.replay id)
        (labels.replayReduce_book book orderId quantityReduced)
  | replayReplaceVisibleOrder originalId newId newPrice newQuantity =>
      exact congrArg (Prod.map Output.replay id)
        (replayReplace_book book gtcKept originalId newId newPrice newQuantity)
  | submitLimitOrder | submitMarketOrder | cancelOrder | modifyOrder | onSessionEnd =>
      exact absurd trivial isReplay

end Replay

/-! ## Prices of a range -/

/-- The prices of the relabelled range that are relabelled themselves and kept. -/
theorem filter_pricesOf
    {keep keep' : Price → Bool}
    (same : ∀ price, keep' (labels.prices price) = keep price)
    (only : ∀ price, keep' price = true → ∃ original, labels.prices original = price)
    (minPrice maxPrice : Price) (side : Side) :
    (Ledger.pricesOf (labels.prices minPrice) (labels.prices maxPrice) side).filter keep' =
      ((Ledger.pricesOf minPrice maxPrice side).filter keep).map labels.prices := by
  have sorted := (Refinement.pricesOf_sorted (labels.prices minPrice) (labels.prices maxPrice)
    side).filter keep'
  have sortedImage : (((Ledger.pricesOf minPrice maxPrice side).filter keep).map
      labels.prices).Pairwise fun better worse => priority side better < priority side worse :=
    List.pairwise_map.mpr <| ((Refinement.pricesOf_sorted minPrice maxPrice side).filter keep).imp
      fun {better worse} less => (labels.priority_lt side better worse).mpr less
  have : Std.Irrefl fun better worse => priority side better < priority side worse :=
    ⟨fun price => lt_irrefl _⟩
  have : Std.Antisymm fun better worse => priority side better < priority side worse :=
    ⟨fun _ _ less greater => absurd less greater.not_gt⟩
  apply sorted.eq_of_mem_iff sortedImage
  intro price
  simp only [List.mem_filter, List.mem_map, Ledger.mem_pricesOf]
  constructor
  · rintro ⟨bounds, kept⟩
    obtain ⟨original, rfl⟩ := only price kept
    exact ⟨original, ⟨⟨labels.prices_le.mp bounds.1, labels.prices_le.mp bounds.2⟩,
      same original ▸ kept⟩, rfl⟩
  · rintro ⟨original, ⟨bounds, kept⟩, rfl⟩
    exact ⟨⟨labels.prices_le.mpr bounds.1, labels.prices_le.mpr bounds.2⟩,
      (same original).trans kept⟩

/-! ## The session end -/

/-- Empty queues add nothing to the report. -/
theorem foldl_addPruned_filter (queues : List (List Order)) (result : DayOrderPruneResult) :
    queues.foldl Book.addPruned result =
      (queues.filter fun queue => queue ≠ []).foldl Book.addPruned result := by
  induction queues generalizing result with
  | nil => rfl
  | cons queue queues inductionHypothesis =>
      by_cases empty : queue = []
      · rw [List.filter_cons_of_neg (by simp [empty]), List.foldl_cons, empty, Book.addPruned,
          if_pos rfl]
        exact inductionHypothesis result
      · rw [List.filter_cons_of_pos (by simp [empty]), List.foldl_cons, List.foldl_cons]
        exact inductionHypothesis _

theorem levelQueues_eq_map (book : Book) (side : Side) :
    book.levelQueues side =
      (Ledger.pricesOf book.minPrice book.maxPrice .sell).map (book.queue side) := by
  rw [Book.levelQueues, Ledger.pricesOf, List.map_map]
  rfl

/-- Orders rest at relabelled prices only. -/
theorem queue_book_ne_nil
    {side : Side} {price : Price}
    (occupied : (labels.book book).queue side price ≠ []) :
    ∃ original, labels.prices original = price := by
  obtain ⟨order, member⟩ := List.exists_mem_of_ne_nil _ occupied
  obtain ⟨inOrders, atPrice⟩ := KeyedList.mem_bucket.mp member
  rw [orders_book] at inOrders
  obtain ⟨original, _, rfl⟩ := List.mem_map.mp inOrders
  exact ⟨original.price, (priority_inj side _ _).mp atPrice⟩

theorem filter_levelQueues_book (side : Side) :
    ((labels.book book).levelQueues side).filter (fun queue => queue ≠ []) =
      ((book.levelQueues side).filter fun queue => queue ≠ []).map (List.map labels.order) := by
  have occupied := @filter_pricesOf labels (fun price => decide (book.queue side price ≠ []))
    (fun price => decide ((labels.book book).queue side price ≠ []))
    (fun price => by simp [queue_book])
    (fun price kept => labels.queue_book_ne_nil book (of_decide_eq_true kept))
    book.minPrice book.maxPrice .sell
  rw [levelQueues_eq_map, levelQueues_eq_map, List.filter_map, List.filter_map, List.map_map]
  refine (congrArg (List.map _) occupied).trans ?_
  rw [List.map_map]
  exact List.map_congr_left fun price _ => labels.queue_book book side price

namespace KeepsLifetimes

variable {labels}

theorem dayOrders_map (keeps : labels.KeepsLifetimes) (queue : List Order) :
    Book.dayOrders (queue.map labels.order) = (Book.dayOrders queue).map labels.order := by
  rw [Book.dayOrders, Book.dayOrders, List.filter_map]
  congr 2
  funext order
  simp [keeps order.lifetime]

theorem addPruned_map
    (keeps : labels.KeepsLifetimes) (result : DayOrderPruneResult) (queue : List Order) :
    Book.addPruned result (queue.map labels.order) = Book.addPruned result queue := by
  have quantities : (Book.dayOrders (queue.map labels.order)).map Order.quantity =
      (Book.dayOrders queue).map Order.quantity := by
    rw [keeps.dayOrders_map, List.map_map]
    rfl
  have length : (Book.dayOrders (queue.map labels.order)).length =
      (Book.dayOrders queue).length := by
    rw [keeps.dayOrders_map, List.length_map]
  have allDay : Book.dayOrders (queue.map labels.order) = queue.map labels.order ↔
      Book.dayOrders queue = queue := by
    simp [Book.dayOrders, List.filter_eq_self, keeps _]
  simp only [Book.addPruned, quantities, length, allDay, List.map_eq_nil_iff]

theorem sessionEnd (keeps : labels.KeepsLifetimes) :
    (labels.book book).sessionEnd = book.sessionEnd.map id labels.book := by
  have pruned : labels.book book.prune = (labels.book book).prune := by
    refine Book.ext_orders rfl rfl fun side => ?_
    rw [orders_book, Book.orders_prune, Book.orders_prune, orders_book, List.filter_map]
    congr 2
    funext order
    simp [keeps order.lifetime]
  have queues : (((labels.book book).levelQueues .buy ++
        (labels.book book).levelQueues .sell).filter fun queue => queue ≠ []) =
      ((book.levelQueues .buy ++ book.levelQueues .sell).filter
        fun queue => queue ≠ []).map (List.map labels.order) := by
    rw [List.filter_append, List.filter_append, filter_levelQueues_book, filter_levelQueues_book,
      List.map_append]
  rw [Book.sessionEnd, Book.sessionEnd, foldl_addPruned_filter, queues, List.foldl_map,
    ← pruned, Prod.map]
  simp only [keeps.addPruned_map, ← foldl_addPruned_filter]
  rfl

/-! ## Any call -/

theorem submitMarket_book (labels : Relabelling) (request : MarketOrderRequest) :
    (labels.book book).submitMarket { request with id := labels.ids request.id } =
      (book.submitMarket request).map labels.submission labels.book := by
  have matched := @matching_book labels book (fun _ => true) (fun _ => true) (fun _ => rfl)
    request.side.opposite request.quantity
  have after := @book_afterMatching labels book (fun _ => true) (fun _ => true) (fun _ => rfl)
    request.side.opposite request.quantity
  simp only [Book.submitMarket, contains_book]
  split
  · rfl
  · simp only [matched, ← after, total_map, submission_report, Prod.map]

theorem cancel_book (labels : Relabelling) (orderId : OrderID) :
    (labels.book book).cancel ⟨labels.ids orderId⟩ =
      (book.cancel ⟨orderId⟩).map id labels.book := by
  unfold Book.cancel
  rw [locate_book]
  cases book.locate orderId with
  | none => rfl
  | some found =>
      exact congrArg (Prod.mk (CancelResult.mk found.2.quantity .canceled))
        (labels.book_remove book orderId).symm

theorem modify (keeps : labels.KeepsLifetimes) (request : ModifyOrderRequest) :
    (labels.book book).modify { request with
        id := labels.ids request.id
        newPrice := labels.prices request.newPrice } =
      (book.modify request).map
        (fun result => { result with
          resubmissionResult := result.resubmissionResult.map labels.submission })
        labels.book := by
  unfold Book.modify
  simp only [book_minPrice, book_maxPrice, prices_lt, gt_iff_lt, locate_book]
  split
  · rfl
  cases book.locate request.id with
  | none => rfl
  | some found =>
      simp only [Option.map_some, order_quantity, order_lifetime, keeps found.2.lifetime,
        ← book_remove]
      split
      · have resubmitted := keeps.submitLimit (book.remove request.id)
          ⟨request.id, request.newPrice, request.newQuantity, found.1,
            Book.resubmissionTif found.2.lifetime⟩
        exact congrArg (fun resubmission : SubmissionResult × Book =>
          (ModificationResult.mk found.2.quantity .resubmitted (some resubmission.1),
            resubmission.2)) resubmitted
      · rfl

/-- Relabelling a book and a call relabels the answer and the book after it. -/
theorem execute (keeps : labels.KeepsLifetimes) (call : Operation) :
    (labels.book book).execute (labels.operation call) =
      (book.execute call).map labels.output labels.book := by
  have replayCase : ¬ call.IsMatching →
      (labels.book book).execute (labels.operation call) =
        (book.execute call).map id labels.book := fun isReplay =>
    execute_book_of_replay book (keeps .gtc) isReplay
  cases call with
  | submitLimitOrder request =>
      exact congrArg (Prod.map Output.submission id) (keeps.submitLimit book request)
  | submitMarketOrder request =>
      exact congrArg (Prod.map Output.submission id) (submitMarket_book book labels request)
  | cancelOrder request =>
      exact congrArg (Prod.map Output.cancellation id) (cancel_book book labels request.id)
  | modifyOrder request =>
      exact congrArg (Prod.map Output.modification id) (keeps.modify book request)
  | onSessionEnd => exact congrArg (Prod.map Output.sessionEnd id) (keeps.sessionEnd book)
  | replayAddVisibleOrder | replayDeleteVisibleOrder | replayReduceVisibleOrder
  | replayReplaceVisibleOrder => exact replayCase not_false

theorem executeAll (keeps : labels.KeepsLifetimes) (calls : List Operation) :
    (labels.book book).executeAll (calls.map labels.operation) =
      (book.executeAll calls).map (List.map labels.output) labels.book := by
  induction calls generalizing book with
  | nil => rfl
  | cons call calls inductionHypothesis =>
      rw [List.map_cons, Book.executeAll_cons, keeps.execute, Prod.map_snd, inductionHypothesis]
      rfl

end KeepsLifetimes

end Relabelling
end Reference

namespace Refinement

open Reference (Relabelling)

variable {labels : Relabelling} {spec : Reference.Book} {operations : List Operation}

/-- A relabelled book has queues of the same lengths. -/
theorem RoomyBook.withLabels (roomy : RoomyBook spec) (labels : Relabelling) :
    RoomyBook (labels.book spec) := by
  intro side price
  change ((labels.book spec).queue side price).length < 4294967296
  by_cases empty : (labels.book spec).queue side price = []
  · simp [empty]
  · obtain ⟨original, rfl⟩ := labels.queue_book_ne_nil spec empty
    rw [labels.queue_book, List.length_map]
    exact roomy side original

theorem RoomyAlong.withLabels
    (roomy : RoomyAlong spec operations)
    (keeps : labels.KeepsLifetimes) :
    RoomyAlong (labels.book spec) (operations.map labels.operation) := by
  intro earlier isPrefix
  obtain ⟨shorter, shorterPrefix, rfl⟩ := List.prefix_map_iff.mp isPrefix
  rw [keeps.executeAll]
  exact (roomy shorter shorterPrefix).withLabels labels

end Refinement
end MatchingEngine
