import MatchingEngine.Model.History
import MatchingEngine.Refinement.Run
import MatchingEngine.Refinement.Settlement

/-!
# Where the orders of a book come from

A call that returns keeps the side, the id and the lifetime of every order that
it leaves in the book, however many orders the levels hold and whatever the
cached best prices and counters say.  Only a submission brings in an order of
its own.
-/

namespace MatchingEngine
namespace Refinement

open Reference (Order priority orderPriority)
open OrderBook (Registry)

/-- Every order of the later book is one of the earlier book, at most reduced. -/
structure Descends (earlier later : Reference.Book) : Prop where
  minPrice : later.minPrice = earlier.minPrice
  maxPrice : later.maxPrice = earlier.maxPrice
  origin : ∀ side, ∀ order ∈ later.orders side,
    ∃ original ∈ earlier.orders side,
      original.id = order.id ∧ original.lifetime = order.lifetime

/-- Every order of a book has the side and the lifetime that it was submitted with. -/
def Traced (origins : OrderID → Option (Side × TimeInForce)) (spec : Reference.Book) : Prop :=
  ∀ side, ∀ order ∈ spec.orders side,
    origins order.id = some (side, Reference.Book.resubmissionTif order.lifetime)

/-! ## Descent -/

namespace Descends

variable {spec spec' spec'' : Reference.Book}

theorem refl (spec : Reference.Book) : Descends spec spec where
  minPrice := rfl
  maxPrice := rfl
  origin _ order member := ⟨order, member, rfl, rfl⟩

theorem trans (first : Descends spec spec') (second : Descends spec' spec'') :
    Descends spec spec'' where
  minPrice := second.minPrice.trans first.minPrice
  maxPrice := second.maxPrice.trans first.maxPrice
  origin side order member := by
    obtain ⟨middle, inMiddle, sameId, sameLifetime⟩ := second.origin side order member
    obtain ⟨original, inEarlier, sameId', sameLifetime'⟩ := first.origin side middle inMiddle
    exact ⟨original, inEarlier, sameId'.trans sameId, sameLifetime'.trans sameLifetime⟩

theorem of_sublist
    (minPrice : spec'.minPrice = spec.minPrice)
    (maxPrice : spec'.maxPrice = spec.maxPrice)
    (sublist : ∀ side, (spec'.orders side).Sublist (spec.orders side)) :
    Descends spec spec' where
  minPrice := minPrice
  maxPrice := maxPrice
  origin side order member := ⟨order, (sublist side).subset member, rfl, rfl⟩

theorem remove (spec : Reference.Book) (id : OrderID) : Descends spec (spec.remove id) :=
  of_sublist rfl rfl fun side => by
    rw [Reference.Book.orders_remove]
    exact List.filter_sublist

theorem reduce (spec : Reference.Book) (id : OrderID) (amount : Quantity) :
    Descends spec (spec.reduce id amount) where
  minPrice := rfl
  maxPrice := rfl
  origin side order member := by
    rw [Reference.Book.orders_reduce] at member
    obtain ⟨original, inSide, rfl⟩ := List.mem_map.mp member
    refine ⟨original, inSide, ?_⟩
    split <;> exact ⟨rfl, rfl⟩

theorem afterExecutions (spec : Reference.Book) (executions : List ExecutionResult) :
    Descends spec (spec.afterExecutions executions) where
  minPrice := rfl
  maxPrice := rfl
  origin side order member := by
    rw [Reference.Book.orders_afterExecutions] at member
    obtain ⟨original, inSide, left⟩ := List.mem_filterMap.mp member
    refine ⟨original, inSide, ?_⟩
    unfold Order.afterExecutions at left
    split at left <;> cases left
    exact ⟨rfl, rfl⟩

theorem contains
    (descends : Descends spec spec')
    {id : OrderID}
    (present : spec'.Contains id) :
    spec.Contains id := by
  obtain ⟨side, order, member, rfl⟩ := Reference.Book.contains_iff.mp present
  obtain ⟨original, inSide, sameId, _⟩ := descends.origin side order member
  exact sameId ▸ Reference.Book.contains_of_mem inSide

end Descends

namespace Traced

variable {origins : OrderID → Option (Side × TimeInForce)} {spec spec' : Reference.Book}

theorem descends (traced : Traced origins spec) (descends : Descends spec spec') :
    Traced origins spec' := by
  intro side order member
  obtain ⟨original, inSide, sameId, sameLifetime⟩ := descends.origin side order member
  rw [← sameId, ← sameLifetime]
  exact traced side original inSide

/-- A new order is traced to its submission. -/
theorem rest
    (traced : Traced origins spec)
    {order : Order}
    (fresh : ¬ spec.Contains order.id)
    (side : Side) :
    Traced
      (Function.update origins order.id
        (some (side, Reference.Book.resubmissionTif order.lifetime)))
      (spec.rest side order) := by
  intro other found member
  have old : found ∈ spec.orders other →
      Function.update origins order.id
        (some (side, Reference.Book.resubmissionTif order.lifetime)) found.id =
          some (other, Reference.Book.resubmissionTif found.lifetime) := by
    intro inSide
    rw [Function.update_of_ne fun same : found.id = order.id =>
      fresh (same ▸ Reference.Book.contains_of_mem inSide)]
    exact traced other found inSide
  rw [Reference.Book.rest, Reference.Book.orders_setOrders] at member
  by_cases same : other = side
  · subst same
    rw [if_pos rfl] at member
    rcases KeyedList.mem_enqueue.mp member with rfl | inSide
    · rw [Function.update_self]
    · exact old inSide
  · rw [if_neg same] at member
    exact old member

end Traced

/-! ## Matching -/

variable {book book' : OrderBook} {spec : Reference.Book} {side : Side}

/-- The order that a matching loop meets is the first of its queue. -/
theorem Carries.maker
    (carries : Carries book spec)
    {takes : Price → Bool} {remainingShares : Quantity} {price : Price} {index : Nat}
    {level : PriceLevel} {takingOrder : RestingOrder}
    (meets : OrderBook.Meets side takes book remainingShares price index level takingOrder) :
    ∃ head rest,
      queueAt side head.price (spec.orders side) = head :: rest ∧
      head.price = price ∧ index = indexOf (book.ladder side) head.price ∧
      takingOrder.id = head.id ∧ takingOrder.quantity = head.quantity := by
  obtain ⟨addr, free, linked⟩ := carries.linked
  obtain ⟨front, first, stored⟩ := meets.first
  obtain ⟨inRange, rfl⟩ := (linked.links side).inRange_of_level meets.found
  obtain ⟨level₀, access, _, levelLinks⟩ := (linked.links side).level_of inRange
  obtain rfl : level = level₀ := Except.ok.inj (meets.access.symm.trans access)
  have headLink : level.head = _ := levelLinks.head_eq
  cases queue : queueAt side price (spec.orders side) with
  | nil =>
      rw [queue] at headLink
      rw [PriceLevel.front, headLink] at first
      cases first
  | cons head rest =>
      rw [queue] at headLink levelLinks
      rw [PriceLevel.front, headLink] at first
      obtain rfl : addr head.id = front := Except.ok.inj first
      obtain ⟨block, inBlock, contents⟩ := levelLinks.block_order List.mem_cons_self
      obtain rfl : takingOrder = block :=
        Except.ok.inj (stored.symm.trans (Heap.order_eq_ok inBlock))
      have headPrice : head.price = price :=
        (mem_queueAt.mp (queue ▸ List.mem_cons_self)).2
      exact ⟨head, rest, headPrice ▸ queue, headPrice, headPrice ▸ rfl,
        congrArg RestingOrder.id contents, congrArg RestingOrder.quantity contents⟩

/-- A matching loop takes from a maker that outlasts the taker. -/
theorem Carries.of_take
    (carries : Carries book spec)
    (storable : ∀ order ∈ spec.orders side, InInt32 order.quantity)
    {takes : Price → Bool} {remainingShares : Quantity} {price : Price} {index : Nat}
    {level : PriceLevel} {takingOrder : RestingOrder}
    (meets : OrderBook.Meets side takes book remainingShares price index level takingOrder)
    (larger : remainingShares < takingOrder.quantity)
    (taken : book.takeFromMaker ⟨side, index⟩ level remainingShares = .ok book') :
    ∃ head ∈ spec.orders side, head.quantity = takingOrder.quantity ∧
      Carries book' (spec.reduce head.id remainingShares) := by
  obtain ⟨head, rest, queue, rfl, rfl, _, sameQuantity⟩ := carries.maker meets
  have member := mem_of_queueAt_cons queue
  have range := storable head member
  have wanted := meets.wanted
  rw [sameQuantity] at larger
  obtain ⟨next, returned, carries', _⟩ := carries.takeFromMaker queue meets.access
    (show InInt32 (head.quantity - remainingShares) by unfold InInt32 at range ⊢; lia)
  obtain rfl : next = book' := Except.ok.inj (returned.symm.trans taken)
  exact ⟨head, member, sameQuantity.symm, carries'⟩

/-- A matching loop retires a maker that it has used up. -/
theorem Carries.of_retire
    (carries : Carries book spec)
    {takes : Price → Bool} {remainingShares : Quantity} {price : Price} {index : Nat}
    {level : PriceLevel} {takingOrder : RestingOrder}
    (meets : OrderBook.Meets side takes book remainingShares price index level takingOrder)
    (retired : book.retireMaker ⟨side, index⟩ level price takingOrder.id = .ok book') :
    ∃ head ∈ spec.orders side, head.quantity = takingOrder.quantity ∧
      Carries book' (spec.remove head.id) := by
  obtain ⟨head, rest, queue, rfl, rfl, sameId, sameQuantity⟩ := carries.maker meets
  rw [sameId] at retired
  obtain ⟨next, returned, carries', _⟩ := carries.retireMaker queue meets.access
  obtain rfl : next = book' := Except.ok.inj (returned.symm.trans retired)
  exact ⟨head, mem_of_queueAt_cons queue, sameQuantity.symm, carries'⟩

namespace Orderly

/-- An order that has been rested, whatever the pool did. -/
theorem restOrder
    (orderly : Orderly book spec)
    (order : Order) (side : Side)
    (soundOrder : 1 ≤ order.quantity ∧ order.quantity ≤ 2147483647)
    (fresh : ¬ spec.Contains order.id)
    (inRange : spec.minPrice ≤ order.price ∧ order.price ≤ spec.maxPrice)
    (rested : book.restOrder order.id order.price order.quantity order.lifetime side side side =
      .ok book') :
    Orderly book' (spec.rest side order) :=
  ⟨(orderly.carries.of_rested fresh inRange rested).1, sound_rest orderly.sound soundOrder side⟩

/-- What a matching loop leaves descends from what it started with. -/
theorem runMatching
    (orderly : Orderly book spec)
    {takes : Price → Bool} {quantity : Quantity} {exit : OrderBook.LoopExit}
    (nonneg : 0 ≤ quantity)
    (range : quantity ≤ 2147483647)
    (ran : book.runMatching side takes quantity = .ok exit) :
    ∃ spec', Orderly exit.book spec' ∧ Descends spec spec' ∧
      (exit.returned = true → exit.subResult.status = .filled) ∧
      0 ≤ exit.remainingShares ∧ exit.remainingShares ≤ quantity := by
  obtain ⟨taken, settled⟩ := orderly.settled_of_ran range ran
  exact ⟨_, settled.orderly, .afterExecutions spec _,
    fun returned => (settled.matched.returned returned).1, settled.within nonneg⟩

end Orderly

/-! ## Submissions -/

/-- What a submission notes about an order that it leaves in the book. -/
def noted (request : LimitOrderRequest) (result : SubmissionResult) :
    Option (OrderID × Side × TimeInForce) :=
  if result.rests then some (request.id, request.side, request.tif) else none

/-- A book traced back to the submissions before a call is traced back to those
after it. -/
def Traces (spec : Reference.Book) (submission : Option (OrderID × Side × TimeInForce))
    (book' : OrderBook) : Prop :=
  ∃ spec', Orderly book' spec' ∧
    ∀ origins, Traced origins spec → Traced (noteSubmission origins submission) spec'

theorem Traces.of_descends
    {spec' : Reference.Book}
    (orderly : Orderly book' spec')
    (descends : Descends spec spec') :
    Traces spec none book' :=
  ⟨spec', orderly, fun _ traced => traced.descends descends⟩

theorem submitted_submitLimitOrder (request : LimitOrderRequest) (result : SubmissionResult) :
    (Operation.submitLimitOrder request).submitted (.submission result) =
      noted request result := by
  cases rests : result.rests <;>
    simp [Operation.submitted, Output.rested, Option.filter, noted, rests]

theorem noted_of_not_rests
    {result : SubmissionResult}
    (request : LimitOrderRequest)
    (leaves : result.rests = false) :
    noted request result = none :=
  if_neg (by simp [leaves])

theorem rests_of_filled
    {exit : OrderBook.LoopExit} {result : SubmissionResult}
    (filled : exit.returned = true → exit.subResult.status = .filled)
    (status : exit.returned = true ∧ result = exit.subResult ∨
      exit.remainingShares = 0 ∧ result = { exit.subResult with status := .filled }) :
    result.rests = false := by
  rcases status with ⟨hasReturned, rfl⟩ | ⟨_, rfl⟩
  · simp [SubmissionResult.rests, filled hasReturned]
  · simp [SubmissionResult.rests]

theorem rests_droppedResult
    {exit : OrderBook.LoopExit}
    (filled : exit.returned = true → exit.subResult.status = .filled)
    (quantity : Quantity) :
    (OrderBook.droppedResult quantity exit).rests = false := by
  unfold OrderBook.droppedResult
  split
  next hasReturned => simp [SubmissionResult.rests, filled hasReturned]
  next =>
    simp only [SubmissionResult.rests, OrderBook.dropStatus]
    split
    · simp
    · split <;> simp

namespace Orderly

theorem submitLimitOrderResting
    (orderly : Orderly book spec)
    {request : LimitOrderRequest} {result : SubmissionResult}
    (positive : 1 ≤ request.quantity)
    (range : request.quantity ≤ 2147483647)
    (fresh : ¬ spec.Contains request.id)
    (inRange : spec.minPrice ≤ request.price ∧ request.price ≤ spec.maxPrice)
    (kind : Reference.Book.resubmissionTif (restingLifetime request.tif) = request.tif)
    (submitted : OrderBook.submitLimitOrderResting request.side book request =
      .ok (result, book')) :
    Traces spec (noted request result) book' := by
  obtain ⟨exit, ran, outcome⟩ := OrderBook.submitLimitOrderResting_ok submitted
  obtain ⟨spec', orderly', descends, filled, nonneg, atMost⟩ :=
    orderly.runMatching (by lia) range ran
  rcases outcome with ⟨rfl, status⟩ | ⟨rested, remains, rfl⟩
  · rw [noted_of_not_rests request (rests_of_filled filled status)]
    exact .of_descends orderly' descends
  · have freshAfter : ¬ spec'.Contains request.id := fun present =>
      fresh (descends.contains present)
    have inRangeAfter : spec'.minPrice ≤ request.price ∧ request.price ≤ spec'.maxPrice := by
      rw [descends.minPrice, descends.maxPrice]
      exact inRange
    have soundOrder : (1 : Int) ≤ exit.remainingShares ∧ exit.remainingShares ≤ 2147483647 := by
      lia
    have isNoted : noted request
        { exit.subResult with
          status :=
            if exit.remainingShares < request.quantity then .partiallyFilledResting
            else .resting } = some (request.id, request.side, request.tif) := by
      refine if_pos ?_
      simp only [SubmissionResult.rests]
      split <;> simp
    rw [orderly'.carries.ladder_side] at rested
    refine ⟨_, orderly'.restOrder
      ⟨request.id, request.price, exit.remainingShares, restingLifetime request.tif⟩
      request.side soundOrder freshAfter inRangeAfter rested, fun origins traced => ?_⟩
    have after : Traced
        (Function.update origins request.id
          (some (request.side, Reference.Book.resubmissionTif (restingLifetime request.tif))))
        (spec'.rest request.side
          ⟨request.id, request.price, exit.remainingShares, restingLifetime request.tif⟩) :=
      (traced.descends descends).rest freshAfter request.side
    rw [isNoted]
    rw [kind] at after
    exact after

/-- A matching loop whose remainder is dropped. -/
theorem traces_runMatching
    (orderly : Orderly book spec)
    {takes : Price → Bool} {quantity : Quantity} {exit : OrderBook.LoopExit}
    (positive : 1 ≤ quantity)
    (range : quantity ≤ 2147483647)
    (ran : book.runMatching side takes quantity = .ok exit) :
    Traces spec none exit.book ∧
      (exit.returned = true → exit.subResult.status = .filled) := by
  obtain ⟨spec', orderly', descends, filled, _⟩ := orderly.runMatching (by lia) range ran
  exact ⟨.of_descends orderly' descends, filled⟩

theorem submitMarketOrder
    (orderly : Orderly book spec)
    {request : MarketOrderRequest} {result : SubmissionResult}
    (positive : 1 ≤ request.quantity)
    (range : request.quantity ≤ 2147483647)
    (submitted : book.submitMarketOrder request = .ok (result, book')) :
    Traces spec none book' := by
  rcases OrderBook.submitMarketOrder_ok submitted with ⟨_, rfl⟩ | ⟨exit, ran, _, rfl⟩
  · exact .of_descends orderly (.refl spec)
  · exact (orderly.traces_runMatching positive range ran).1

theorem submitLimitOrderIoc
    (orderly : Orderly book spec)
    {request : LimitOrderRequest} {result : SubmissionResult}
    (positive : 1 ≤ request.quantity)
    (range : request.quantity ≤ 2147483647)
    (submitted : OrderBook.submitLimitOrderIoc request.side book request =
      .ok (result, book')) :
    Traces spec (noted request result) book' := by
  obtain ⟨exit, ran, rfl, rfl⟩ := OrderBook.submitLimitOrderIoc_ok submitted
  obtain ⟨traces, filled⟩ := orderly.traces_runMatching positive range ran
  rw [noted_of_not_rests request (rests_droppedResult filled _)]
  exact traces

theorem submitLimitOrderFok
    (orderly : Orderly book spec)
    {request : LimitOrderRequest} {result : SubmissionResult}
    (positive : 1 ≤ request.quantity)
    (range : request.quantity ≤ 2147483647)
    (submitted : OrderBook.submitLimitOrderFok request.side book request =
      .ok (result, book')) :
    Traces spec (noted request result) book' := by
  rcases OrderBook.submitLimitOrderFok_ok submitted with ⟨rfl, rfl⟩ | ⟨exit, ran, status, rfl⟩
  · rw [noted_of_not_rests request (by simp [SubmissionResult.rests])]
    exact .of_descends orderly (.refl spec)
  · obtain ⟨traces, filled⟩ := orderly.traces_runMatching positive range ran
    rw [noted_of_not_rests request (rests_of_filled filled status)]
    exact traces

theorem submitLimitOrder
    (orderly : Orderly book spec)
    {request : LimitOrderRequest} {result : SubmissionResult}
    (positive : 1 ≤ request.quantity)
    (range : request.quantity ≤ 2147483647)
    (submitted : book.submitLimitOrder request = .ok (result, book')) :
    Traces spec (noted request result) book' := by
  rcases OrderBook.submitLimitOrder_ok submitted with
    ⟨_, rfl, rfl⟩ | ⟨accepted, ⟨kind, resting⟩ | immediate | allOrNothing⟩
  · rw [noted_of_not_rests request (by simp [SubmissionResult.rests])]
    exact .of_descends orderly (.refl spec)
  · simp only [OrderBook.rejects, orderly.carries.mem_idMap, orderly.carries.minPrice,
      orderly.carries.maxPrice, not_or, not_lt] at accepted
    obtain ⟨fresh, upper, lower⟩ := accepted
    refine orderly.submitLimitOrderResting positive range fresh ⟨lower, upper⟩ ?_ resting
    rcases kind with kind | kind
    all_goals
      rw [kind]
      rfl
  · exact orderly.submitLimitOrderIoc positive range immediate
  · exact orderly.submitLimitOrderFok positive range allOrNothing

/-! ## Cancellations and modifications -/

theorem cancelOrder
    (orderly : Orderly book spec)
    {request : CancelOrderRequest} {result : CancelResult}
    (cancelled : book.cancelOrder request = .ok (result, book')) :
    Traces spec none book' := by
  obtain ⟨next, returned, carries', _⟩ := orderly.carries.cancelOrder request
  obtain ⟨_, rfl⟩ := Prod.mk.inj (Except.ok.inj (returned.symm.trans cancelled))
  unfold Reference.Book.cancel at carries'
  split at carries'
  · exact .of_descends ⟨carries', orderly.sound⟩ (.refl spec)
  · exact .of_descends (orderly.remove carries') (.remove spec request.id)

/-- A resubmission has the side and the lifetime of the order that it replaces. -/
theorem modifyOrder
    (orderly : Orderly book spec)
    {request : ModifyOrderRequest} {result : ModificationResult}
    (range : request.newQuantity ≤ 2147483647)
    (modified : book.modifyOrder request = .ok (result, book')) :
    Traces spec none book' := by
  rcases OrderBook.modifyOrder_ok modified with
    rfl | ⟨address, resubmitOrder, _, middle, inMap, inBlock, cancelled, outcome⟩
  · exact .of_descends orderly (.refl spec)
  have present : spec.Contains request.id :=
    orderly.carries.mem_idMap.mp (Finmap.mem_iff.mpr ⟨address, inMap⟩)
  obtain ⟨side, order, member, sameId⟩ := Reference.Book.contains_iff.mp present
  obtain ⟨addr, free, block, level, front, rest, linked, found, stored, contents, _⟩ :=
    orderly.carries.resting member
  obtain ⟨book₁, returned, carries₁, _⟩ := orderly.carries.cancelOrder_of_mem member
  have blockSide : block.side = side := congrArg RestingOrder.side contents
  have blockLifetime : block.lifetime = order.lifetime :=
    congrArg RestingOrder.lifetime contents
  rw [sameId] at found stored returned carries₁
  obtain rfl : addr request.id = address := Option.some.inj (found.symm.trans inMap)
  obtain rfl : block = resubmitOrder :=
    Except.ok.inj ((Heap.order_eq_ok stored).symm.trans inBlock)
  obtain ⟨_, rfl⟩ := Prod.mk.inj (Except.ok.inj (returned.symm.trans cancelled))
  have orderly₁ := orderly.remove carries₁
  rcases outcome with ⟨_, rfl, _⟩ | ⟨resubmits, _, resubmitResult, submitted⟩
  · exact .of_descends orderly₁ (.remove spec request.id)
  · rw [blockSide, blockLifetime] at submitted
    obtain ⟨spec₂, orderly₂, traced₂⟩ := orderly₁.submitLimitOrder
      (show (1 : Int) ≤ request.newQuantity from resubmits) range submitted
    refine ⟨spec₂, orderly₂, fun origins traced => ?_⟩
    have after := traced₂ origins (traced.descends (.remove spec request.id))
    have origin := traced side order member
    rw [sameId] at origin
    have unchanged : noteSubmission origins (noted
        ⟨request.id, request.newPrice, request.newQuantity, side,
          if order.lifetime = .gtc then .gtc else .day⟩ resubmitResult) = origins := by
      unfold noted
      split
      · rw [noteSubmission, resubmissionTif_eq, ← origin, Function.update_eq_self]
      · rfl
    rw [unchanged] at after
    exact after

/-! ## The session end -/

theorem pruneSide
    (orderly : Orderly book spec)
    {result result' : DayOrderPruneResult}
    (pruned : book.pruneSide side result = .ok (result', book')) :
    ∃ spec', Orderly book' spec' ∧ Descends spec spec' ∧
      ∀ other, ∀ order ∈ spec.orders other, order.lifetime = .gtc →
        order ∈ spec'.orders other := by
  rcases orderly.carries.pruneSide pruned with ⟨_, rfl⟩ | carries'
  · exact ⟨spec, orderly, .refl spec, fun _ _ member _ => member⟩
  refine ⟨_, ⟨carries', fun other => (orderly.sound other).sublist
    (orders_pruneAmong_sublist other)⟩, .of_sublist (Reference.Book.setOrders_minPrice ..)
    (Reference.Book.setOrders_maxPrice ..) orders_pruneAmong_sublist,
    fun other order member gtc => ?_⟩
  rw [pruneAmong, Reference.Book.orders_setOrders]
  split
  · next same =>
    rw [← same]
    exact List.mem_filter.mpr ⟨member, by simp [gtc]⟩
  · exact member

/-- The session end removes DAY orders only. -/
theorem onSessionEnd
    (orderly : Orderly book spec)
    {result : DayOrderPruneResult}
    (ended : book.onSessionEnd = .ok (result, book')) :
    ∃ spec', Orderly book' spec' ∧ Descends spec spec' ∧
      ∀ side, ∀ order ∈ spec.orders side, order.lifetime = .gtc →
        order ∈ spec'.orders side := by
  obtain ⟨⟨bidResult, middle⟩, bids, asks⟩ := bind_eq_ok ended
  obtain ⟨spec₁, orderly₁, descends₁, kept₁⟩ := orderly.pruneSide bids
  obtain ⟨spec₂, orderly₂, descends₂, kept₂⟩ := orderly₁.pruneSide asks
  exact ⟨spec₂, orderly₂, descends₁.trans descends₂, fun side order member gtc =>
    kept₂ side order (kept₁ side order member gtc) gtc⟩

end Orderly

/-! ## Runs -/

/-- Whatever a matching call leaves in the book can be traced to a submission. -/
theorem Orderly.execute
    (orderly : Orderly book spec)
    {operation : Operation} {output : Output}
    (matching : operation.IsMatching)
    (positive : operation.PositiveQuantities)
    (executed : book.execute operation = .ok (output, book')) :
    Traces spec (operation.submitted output) book' := by
  cases operation with
  | submitLimitOrder request =>
      obtain ⟨⟨result, after⟩, submitted, executed⟩ := bind_eq_ok executed
      obtain ⟨rfl, rfl⟩ := Prod.mk.inj (Except.ok.inj executed)
      rw [submitted_submitLimitOrder]
      exact orderly.submitLimitOrder positive.1 positive.2.2 submitted
  | submitMarketOrder request =>
      obtain ⟨⟨result, after⟩, submitted, executed⟩ := bind_eq_ok executed
      obtain ⟨rfl, rfl⟩ := Prod.mk.inj (Except.ok.inj executed)
      exact orderly.submitMarketOrder positive.1 positive.2.2 submitted
  | cancelOrder request =>
      obtain ⟨⟨result, after⟩, cancelled, executed⟩ := bind_eq_ok executed
      obtain ⟨rfl, rfl⟩ := Prod.mk.inj (Except.ok.inj executed)
      exact orderly.cancelOrder cancelled
  | modifyOrder request =>
      obtain ⟨⟨result, after⟩, modified, executed⟩ := bind_eq_ok executed
      obtain ⟨rfl, rfl⟩ := Prod.mk.inj (Except.ok.inj executed)
      exact orderly.modifyOrder positive.2.2 modified
  | onSessionEnd =>
      obtain ⟨⟨result, after⟩, ended, executed⟩ := bind_eq_ok executed
      obtain ⟨rfl, rfl⟩ := Prod.mk.inj (Except.ok.inj executed)
      obtain ⟨spec', orderly', descends, _⟩ := orderly.onSessionEnd ended
      exact .of_descends orderly' descends
  | replayAddVisibleOrder | replayDeleteVisibleOrder | replayReduceVisibleOrder
  | replayReplaceVisibleOrder => exact matching.elim

/-- Every book that a run of the matching calls reaches is orderly, and its orders can
be traced to their submissions. -/
theorem traced_of_run
    {events : List (Event OrderBook Operation Output)}
    (run : OrderBook.UnboundedRun OrderBook.MatchingCalls events book) :
    ∃ spec, Orderly book spec ∧ Traced (submittedAs events) spec := by
  induction run with
  | start starts =>
      obtain ⟨config, created⟩ := starts
      have refines := refines_of_create created
      refine ⟨_, ⟨refines.carries, fun side => ?_⟩, fun side order member => ?_⟩
      · cases side <;> simp [Reference.Book.orders, Sound]
      · cases side <;> cases member
  | step run taken inductionHypothesis =>
      obtain ⟨spec, orderly, traced⟩ := inductionHypothesis
      obtain ⟨⟨matching, positive⟩, executed⟩ := taken
      obtain ⟨spec', orderly', traces⟩ := orderly.execute matching positive executed
      refine ⟨spec', orderly', ?_⟩
      rw [submittedAs_append_singleton]
      exact traces _ traced

end Refinement
end MatchingEngine
