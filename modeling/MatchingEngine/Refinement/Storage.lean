import MatchingEngine.Refinement.Lineage

/-!
# Books whose orders have quantities of their type

A submission may ask for any quantity, so that orders of no or of negative quantity can
rest.  The lists of the book are queues all the same, as long as no quantity in it
leaves its type, and no call that returns makes one leave it.
-/

namespace MatchingEngine
namespace Refinement

open Reference (Order)
open OrderBook (UnboundedRun StorableCalls)

/-- The quantities of all orders are values of their type. -/
def Storable (spec : Reference.Book) : Prop :=
  ∀ side, ∀ order ∈ spec.orders side, InInt32 order.quantity

/-- A book carries the orders of a reference book, with quantities of their type. -/
structure Stores (book : OrderBook) (spec : Reference.Book) : Prop where
  carries : Carries book spec
  storable : Storable spec

/-! ## Quantities -/

namespace Storable

variable {spec spec' : Reference.Book}

theorem of_sublist
    (storable : Storable spec)
    (sublist : ∀ side, (spec'.orders side).Sublist (spec.orders side)) :
    Storable spec' :=
  fun side order member => storable side order ((sublist side).subset member)

theorem remove (storable : Storable spec) (id : OrderID) : Storable (spec.remove id) :=
  storable.of_sublist fun side => by
    rw [Reference.Book.orders_remove]
    exact List.filter_sublist

theorem rest
    (storable : Storable spec)
    {order : Order}
    (inRange : InInt32 order.quantity)
    (side : Side) :
    Storable (spec.rest side order) := by
  intro other found member
  rw [Reference.Book.rest, Reference.Book.orders_setOrders] at member
  split at member
  · rcases KeyedList.mem_enqueue.mp member with rfl | inSide
    · exact inRange
    · exact storable side found inSide
  · exact storable other found member

/-- An order may be reduced by less than its quantity. -/
theorem reduce
    (storable : Storable spec)
    {id : OrderID} {amount : Quantity}
    (reducesInRange : ∀ side, ∀ order ∈ spec.orders side, order.id = id →
      InInt32 (order.quantity - amount)) :
    Storable (spec.reduce id amount) := by
  intro side order member
  rw [Reference.Book.orders_reduce] at member
  obtain ⟨original, inSide, rfl⟩ := List.mem_map.mp member
  split
  · next same => exact reducesInRange side original inSide same
  · exact storable side original inSide

end Storable

namespace Stores

variable {book book' : OrderBook} {spec : Reference.Book} {side : Side}

theorem remove (stores : Stores book spec) {id : OrderID}
    (carries : Carries book' (spec.remove id)) :
    Stores book' (spec.remove id) :=
  ⟨carries, stores.storable.remove id⟩

/-! ## Matching -/

/-- A matching loop leaves a part of the orders. -/
theorem matchingLoop
    (stores : Stores book spec)
    {takes : Price → Bool} {fuel : Nat} {demand : Quantity} {start : SubmissionResult}
    {exit : OrderBook.LoopExit}
    (range : InInt32 demand)
    (returned : OrderBook.matchingLoop side takes fuel book demand start = .ok exit) :
    ∃ spec', Stores exit.book spec' ∧ Descends spec spec' ∧ InInt32 exit.remainingShares := by
  have iterations := OrderBook.iterations_of_matchingLoop returned
  clear returned
  induction iterations generalizing spec with
  | stop => exact ⟨spec, stores, .refl spec, range⟩
  | @take _ _ demand _ _ _ _ takingOrder meets larger taken =>
      have storable := stores.storable side
      obtain ⟨head, member, sameQuantity, carries'⟩ :=
        stores.carries.of_take storable meets larger taken
      have wanted := meets.wanted
      have reducedRange : InInt32 (head.quantity - demand) := by
        have headRange := storable head member
        unfold InInt32 at headRange ⊢
        lia
      refine ⟨_, ⟨carries', stores.storable.reduce fun other order inSide same => ?_⟩,
        .reduce spec head.id demand, range⟩
      obtain ⟨_, rfl⟩ := stores.carries.distinct.eq_of_id_eq inSide member same
      exact reducedRange
  | retire meets _ retired _ inductionHypothesis =>
      obtain ⟨head, _, _, carries'⟩ := stores.carries.of_retire meets retired
      obtain ⟨spec', stores', descends, remaining⟩ :=
        inductionHypothesis (stores.remove carries') (inInt32_toInt32 _)
      exact ⟨spec', stores', (Descends.remove spec head.id).trans descends, remaining⟩

theorem runMatching
    (stores : Stores book spec)
    {takes : Price → Bool} {quantity : Quantity} {exit : OrderBook.LoopExit}
    (range : InInt32 quantity)
    (ran : book.runMatching side takes quantity = .ok exit) :
    ∃ spec', Stores exit.book spec' ∧ Descends spec spec' ∧ InInt32 exit.remainingShares :=
  stores.matchingLoop range ran

/-! ## Submissions -/

theorem submitMarketOrder
    (stores : Stores book spec)
    {request : MarketOrderRequest} {result : SubmissionResult}
    (range : InInt32 request.quantity)
    (submitted : book.submitMarketOrder request = .ok (result, book')) :
    ∃ spec', Stores book' spec' := by
  rcases OrderBook.submitMarketOrder_ok submitted with ⟨_, rfl⟩ | ⟨exit, ran, _, rfl⟩
  · exact ⟨spec, stores⟩
  · obtain ⟨spec', stores', _⟩ := stores.runMatching range ran
    exact ⟨spec', stores'⟩

theorem restOrder
    (stores : Stores book spec)
    (order : Order) (side : Side)
    (range : InInt32 order.quantity)
    (fresh : ¬ spec.Contains order.id)
    (inRange : spec.minPrice ≤ order.price ∧ order.price ≤ spec.maxPrice)
    (rested : book.restOrder order.id order.price order.quantity order.lifetime side side side =
      .ok book') :
    Stores book' (spec.rest side order) :=
  ⟨(stores.carries.of_rested fresh inRange rested).1, stores.storable.rest range side⟩

theorem submitLimitOrderResting
    (stores : Stores book spec)
    {request : LimitOrderRequest} {result : SubmissionResult}
    (range : InInt32 request.quantity)
    (fresh : ¬ spec.Contains request.id)
    (inRange : spec.minPrice ≤ request.price ∧ request.price ≤ spec.maxPrice)
    (submitted : OrderBook.submitLimitOrderResting request.side book request =
      .ok (result, book')) :
    ∃ spec', Stores book' spec' := by
  obtain ⟨exit, ran, outcome⟩ := OrderBook.submitLimitOrderResting_ok submitted
  obtain ⟨spec', stores', descends, remaining⟩ := stores.runMatching range ran
  rcases outcome with ⟨rfl, _⟩ | ⟨rested, _, _⟩
  · exact ⟨spec', stores'⟩
  · rw [stores'.carries.ladder_side] at rested
    refine ⟨_, stores'.restOrder
      ⟨request.id, request.price, exit.remainingShares, restingLifetime request.tif⟩ request.side
      remaining (fun present => fresh (descends.contains present)) ?_ rested⟩
    rw [descends.minPrice, descends.maxPrice]
    exact inRange

theorem submitLimitOrderIoc
    (stores : Stores book spec)
    {request : LimitOrderRequest} {result : SubmissionResult}
    (range : InInt32 request.quantity)
    (submitted : OrderBook.submitLimitOrderIoc side book request = .ok (result, book')) :
    ∃ spec', Stores book' spec' := by
  obtain ⟨exit, ran, _, rfl⟩ := OrderBook.submitLimitOrderIoc_ok submitted
  obtain ⟨spec', stores', _⟩ := stores.runMatching range ran
  exact ⟨spec', stores'⟩

theorem submitLimitOrderFok
    (stores : Stores book spec)
    {request : LimitOrderRequest} {result : SubmissionResult}
    (range : InInt32 request.quantity)
    (submitted : OrderBook.submitLimitOrderFok side book request = .ok (result, book')) :
    ∃ spec', Stores book' spec' := by
  rcases OrderBook.submitLimitOrderFok_ok submitted with ⟨_, rfl⟩ | ⟨exit, ran, _, rfl⟩
  · exact ⟨spec, stores⟩
  · obtain ⟨spec', stores', _⟩ := stores.runMatching range ran
    exact ⟨spec', stores'⟩

theorem submitLimitOrder
    (stores : Stores book spec)
    {request : LimitOrderRequest} {result : SubmissionResult}
    (range : InInt32 request.quantity)
    (submitted : book.submitLimitOrder request = .ok (result, book')) :
    ∃ spec', Stores book' spec' := by
  rcases OrderBook.submitLimitOrder_ok submitted with
    ⟨_, _, rfl⟩ | ⟨accepted, ⟨_, resting⟩ | immediate | allOrNothing⟩
  · exact ⟨spec, stores⟩
  · simp only [OrderBook.rejects, stores.carries.mem_idMap, stores.carries.minPrice,
      stores.carries.maxPrice, not_or, not_lt] at accepted
    obtain ⟨fresh, upper, lower⟩ := accepted
    exact stores.submitLimitOrderResting range fresh ⟨lower, upper⟩ resting
  · exact stores.submitLimitOrderIoc range immediate
  · exact stores.submitLimitOrderFok range allOrNothing

/-! ## The other calls -/

/-- A call that returns what the reference operation does. -/
theorem of_follows
    {α : Type} {soundQuantities : Prop} {returns : Except Fault (α × OrderBook)}
    {expected : α × Reference.Book} {answer : α}
    (follows : Follows book spec soundQuantities returns expected)
    (storable : Storable expected.2)
    (returned : returns = .ok (answer, book')) :
    ∃ spec', Stores book' spec' := by
  obtain ⟨next, isNext, carries', _⟩ := follows
  obtain ⟨_, rfl⟩ := Prod.mk.inj (Except.ok.inj (isNext.symm.trans returned))
  exact ⟨_, carries', storable⟩

theorem cancelOrder
    (stores : Stores book spec)
    {request : CancelOrderRequest} {result : CancelResult}
    (cancelled : book.cancelOrder request = .ok (result, book')) :
    ∃ spec', Stores book' spec' := by
  refine of_follows (stores.carries.cancelOrder request) ?_ cancelled
  unfold Reference.Book.cancel
  split
  · exact stores.storable
  · exact stores.storable.remove request.id

theorem modifyOrder
    (stores : Stores book spec)
    {request : ModifyOrderRequest} {result : ModificationResult}
    (range : InInt32 request.newQuantity)
    (modified : book.modifyOrder request = .ok (result, book')) :
    ∃ spec', Stores book' spec' := by
  rcases OrderBook.modifyOrder_ok modified with
    rfl | ⟨_, _, _, middle, _, _, cancelled, outcome⟩
  · exact ⟨spec, stores⟩
  obtain ⟨spec₁, stores₁⟩ := stores.cancelOrder cancelled
  rcases outcome with ⟨_, rfl, _⟩ | ⟨_, _, _, submitted⟩
  · exact ⟨spec₁, stores₁⟩
  · exact stores₁.submitLimitOrder range submitted

theorem pruneSide
    (stores : Stores book spec)
    {result result' : DayOrderPruneResult}
    (pruned : book.pruneSide side result = .ok (result', book')) :
    ∃ spec', Stores book' spec' := by
  rcases stores.carries.pruneSide pruned with ⟨_, rfl⟩ | carries'
  · exact ⟨spec, stores⟩
  · exact ⟨_, carries', stores.storable.of_sublist orders_pruneAmong_sublist⟩

theorem onSessionEnd
    (stores : Stores book spec)
    {result : DayOrderPruneResult}
    (ended : book.onSessionEnd = .ok (result, book')) :
    ∃ spec', Stores book' spec' := by
  obtain ⟨⟨bidResult, middle⟩, bids, asks⟩ := bind_eq_ok ended
  obtain ⟨spec₁, stores₁⟩ := stores.pruneSide bids
  exact stores₁.pruneSide asks

theorem replayAddVisibleOrder
    (stores : Stores book spec)
    {id : OrderID} {price : Price} {quantity : Quantity} {side : Side} {added : Bool}
    (range : InInt32 quantity)
    (returned : book.replayAddVisibleOrder id price quantity side = .ok (added, book')) :
    ∃ spec', Stores book' spec' := by
  rcases stores.carries.replayAddVisibleOrder id price quantity side with
    ⟨_, exhausted⟩ | follows
  · cases exhausted.symm.trans returned
  · refine of_follows follows ?_ returned
    unfold Reference.Book.replayAdd
    split
    · exact stores.storable
    · exact stores.storable.rest range side

theorem replayDeleteVisibleOrder
    (stores : Stores book spec)
    {id : OrderID} {deleted : Bool}
    (returned : book.replayDeleteVisibleOrder id = .ok (deleted, book')) :
    ∃ spec', Stores book' spec' := by
  obtain ⟨cancelResult, cancelled, _⟩ := OrderBook.replayDeleteVisibleOrder_ok returned
  exact stores.cancelOrder cancelled

/-- A reduction of at least one share leaves every quantity in its type. -/
theorem reducesInRange
    (stores : Stores book spec)
    (id : OrderID) {quantityReduced : Quantity}
    (positive : 1 ≤ quantityReduced) :
    ReducesInRange spec id quantityReduced := by
  intro side order member _ enough
  have range := stores.storable side order member
  unfold InInt32 at range ⊢
  lia

theorem replayReduceVisibleOrder
    (stores : Stores book spec)
    {id : OrderID} {quantityReduced : Quantity} {reduced : Bool}
    (positive : 1 ≤ quantityReduced)
    (returned : book.replayReduceVisibleOrder id quantityReduced = .ok (reduced, book')) :
    ∃ spec', Stores book' spec' := by
  have inRange := stores.reducesInRange id positive
  refine of_follows (stores.carries.replayReduceVisibleOrder id inRange) ?_ returned
  unfold Reference.Book.replayReduce
  split
  · exact stores.storable
  split
  · exact stores.storable
  next other order located =>
  obtain ⟨member, rfl⟩ := Reference.Book.locate_eq_some located
  split
  · exact stores.storable
  next enough =>
  split
  · exact stores.storable.remove order.id
  · refine stores.storable.reduce fun side found inSide same => ?_
    obtain ⟨_, rfl⟩ := stores.carries.distinct.eq_of_id_eq inSide member same
    exact inRange side found inSide rfl (not_lt.mp enough)

theorem replayReplaceVisibleOrder
    (stores : Stores book spec)
    {originalId newId : OrderID} {newPrice : Price} {newQuantity : Quantity} {replaced : Bool}
    (range : InInt32 newQuantity)
    (returned : book.replayReplaceVisibleOrder originalId newId newPrice newQuantity =
      .ok (replaced, book')) :
    ∃ spec', Stores book' spec' := by
  rcases OrderBook.replayReplaceVisibleOrder_ok returned with
    ⟨_, rfl⟩ | ⟨_, middle, deletion, outcome⟩
  · exact ⟨spec, stores⟩
  obtain ⟨spec₁, stores₁⟩ := stores.replayDeleteVisibleOrder deletion
  rcases outcome with ⟨_, rfl⟩ | ⟨side, added⟩
  · exact ⟨spec₁, stores₁⟩
  · exact stores₁.replayAddVisibleOrder range added

/-! ## Runs -/

/-- A call that returns keeps the quantities in their type. -/
theorem execute
    (stores : Stores book spec)
    {operation : Operation} {output : Output}
    (allowed : StorableCalls book operation)
    (executed : book.execute operation = .ok (output, book')) :
    ∃ spec', Stores book' spec' := by
  obtain ⟨range, positive⟩ := allowed
  cases operation
  all_goals
    obtain ⟨⟨answer, next⟩, returned, executed⟩ := bind_eq_ok executed
    obtain ⟨_, rfl⟩ := Prod.mk.inj (Except.ok.inj executed)
  case submitLimitOrder => exact stores.submitLimitOrder range returned
  case submitMarketOrder => exact stores.submitMarketOrder range returned
  case cancelOrder => exact stores.cancelOrder returned
  case modifyOrder => exact stores.modifyOrder range returned
  case onSessionEnd => exact stores.onSessionEnd returned
  case replayAddVisibleOrder => exact stores.replayAddVisibleOrder range returned
  case replayDeleteVisibleOrder => exact stores.replayDeleteVisibleOrder returned
  case replayReduceVisibleOrder =>
      rcases positive with matching | positive
      · exact matching.elim
      · exact stores.replayReduceVisibleOrder positive.1 returned
  case replayReplaceVisibleOrder => exact stores.replayReplaceVisibleOrder range returned

end Stores

/-- Every book that a run reaches carries the orders of a reference book. -/
theorem stores_of_run
    {events : List (Event OrderBook Operation Output)} {book : OrderBook}
    (run : UnboundedRun StorableCalls events book) :
    ∃ spec, Stores book spec := by
  induction run with
  | start starts =>
      obtain ⟨config, created⟩ := starts
      have refines := refines_of_create created
      refine ⟨_, refines.carries, fun side => ?_⟩
      cases side <;> simp [Reference.Book.orders]
  | step run taken inductionHypothesis =>
      obtain ⟨spec, stores⟩ := inductionHypothesis
      exact stores.execute taken.1 taken.2

/-- A reached book in which every order has some shares is orderly, whatever the calls
have asked for. -/
theorem orderly_of_stores
    {book : OrderBook} {spec : Reference.Book}
    (stores : Stores book spec)
    (positive : ∀ side, ∀ order ∈ spec.orders side, 1 ≤ order.quantity) :
    Orderly book spec :=
  ⟨stores.carries, fun side order member =>
    ⟨positive side order member, (stores.storable side order member).2⟩⟩

end Refinement
end MatchingEngine
