import MatchingEngine.Reference.Settlement
import MatchingEngine.Refinement.Amendment

/-!
# Submissions in books of any size

In a book that carries the orders of a reference book, a matching loop returns and
its executions tell what it has left, however many orders the levels hold and
whichever of the prices is cached as the best.  It need not meet the makers in
price order there, but it takes from no order more than that order has and loses
none.
-/

namespace MatchingEngine
namespace Refinement

open Reference (Order)

/-- A book carries the orders of a reference book, whose quantities are those of
orders that rest. -/
structure Orderly (book : OrderBook) (spec : Reference.Book) : Prop where
  carries : Carries book spec
  sound : ∀ side, Sound (spec.orders side)

/-! ## Quantities -/

section Sound

variable {spec : Reference.Book} {side : Side} {order : Order}

theorem sound_rest
    (sound : ∀ side, Sound (spec.orders side))
    (soundOrder : 1 ≤ order.quantity ∧ order.quantity ≤ 2147483647)
    (side other : Side) :
    Sound ((spec.rest side order).orders other) := by
  rw [Reference.Book.rest, Reference.Book.orders_setOrders]
  split
  · intro found member
    rcases KeyedList.mem_enqueue.mp member with rfl | inSide
    · exact soundOrder
    · exact sound side found inSide
  · exact sound other

theorem sound_remove
    (sound : ∀ side, Sound (spec.orders side))
    (id : OrderID) (side : Side) :
    Sound ((spec.remove id).orders side) := by
  rw [Reference.Book.orders_remove]
  exact (sound side).sublist List.filter_sublist

theorem sound_reduce
    (sound : ∀ side, Sound (spec.orders side))
    (distinct : spec.Distinct)
    (member : order ∈ spec.orders side)
    {amount : Quantity}
    (positive : 0 < amount)
    (below : amount < order.quantity)
    (other : Side) :
    Sound ((spec.reduce order.id amount).orders other) := by
  by_cases same : other = side
  · subst same
    exact (sound other).reduce distinct member positive below
  · rw [distinct.orders_reduce_of_ne member same]
    exact sound other

end Sound

variable {book book' : OrderBook} {spec : Reference.Book} {side : Side}

namespace Orderly

theorem positive (orderly : Orderly book spec) :
    ∀ side, ∀ order ∈ spec.orders side, 0 < order.quantity :=
  fun side order member => (orderly.sound side order member).1

theorem remove (orderly : Orderly book spec) {id : OrderID}
    (carries : Carries book' (spec.remove id)) :
    Orderly book' (spec.remove id) :=
  ⟨carries, sound_remove orderly.sound id⟩

/-! ## The matching loop -/

/-- What a matching loop has done when it ends, told by what it took from its makers. -/
structure Settled
    (book : OrderBook) (spec : Reference.Book) (start : SubmissionResult) (demand : Quantity)
    (exit : OrderBook.LoopExit) (taken : List (Order × Quantity)) : Prop where
  matched : Matched book ⟨taken, []⟩ start demand exit
  covers : spec.Covers (taken.map Reference.Book.execution)
  orderly : Orderly exit.book (spec.afterExecutions (taken.map Reference.Book.execution))
  within : 0 ≤ demand → 0 ≤ exit.remainingShares ∧ exit.remainingShares ≤ demand

theorem settled_of_nothing
    (orderly : Orderly book spec)
    (demand : Quantity) (start : SubmissionResult) :
    Settled book spec start demand ⟨false, book, demand, start⟩ [] where
  matched := .of_nothing [] demand start
  covers := .nil orderly.positive
  orderly := by
    rw [List.map_nil, Reference.Book.afterExecutions_nil orderly.positive]
    exact orderly
  within nonneg := ⟨nonneg, le_rfl⟩

/-- A maker that outlasts the taker. -/
theorem settled_of_outlasting
    (orderly : Orderly book spec)
    {head : Order} {demand : Quantity} {start : SubmissionResult}
    (member : head ∈ spec.orders side)
    (wanted : 0 < demand)
    (larger : demand < head.quantity)
    (carries : Carries book' (spec.reduce head.id demand))
    (samePool : book'.memoryPool = book.memoryPool)
    (filled : toInt32 (start.quantityFilled + demand) = start.quantityFilled + demand) :
    Settled book spec start demand
      ⟨true, book', demand,
        { OrderBook.recordExecution start head.id head.price demand with status := .filled }⟩
      [(head, demand)] where
  matched := .of_outlasting samePool filled
  covers := orderly.carries.distinct.covers_singleton orderly.positive member wanted larger _
  orderly := by
    have same := orderly.carries.distinct.afterExecutions_singleton orderly.positive member
      larger head.price
    rw [List.map_singleton, Reference.Book.execution, same]
    exact ⟨carries,
      sound_reduce orderly.sound orderly.carries.distinct member wanted larger⟩
  within nonneg := ⟨nonneg, le_rfl⟩

/-- A maker that has been used up, before the rest of the loop. -/
theorem Settled.afterMaker
    (orderly : Orderly book spec)
    {head : Order} {demand : Quantity} {start : SubmissionResult} {exit : OrderBook.LoopExit}
    {taken : List (Order × Quantity)}
    (member : head ∈ spec.orders side)
    (settled : Settled book' (spec.remove head.id)
      (OrderBook.recordExecution start head.id head.price head.quantity)
      (demand - head.quantity) exit taken)
    (usedUp : head.quantity ≤ demand)
    (freed : HasFree book')
    (filled : toInt32 (start.quantityFilled + head.quantity) =
      start.quantityFilled + head.quantity) :
    Settled book spec start demand exit ((head, head.quantity) :: taken) where
  matched := settled.matched.afterMaker freed filled
  covers := orderly.carries.distinct.covers_cons member (orderly.positive _ _ member)
    settled.covers _
  orderly := by
    have same := orderly.carries.distinct.afterExecutions_cons member settled.covers head.price
    rw [List.map_cons, Reference.Book.execution, same]
    exact settled.orderly
  within _ := by
    have positive := orderly.positive _ _ member
    have within := settled.within (Int.sub_nonneg_of_le usedUp)
    lia

/-- The matching loop returns, with a bound that exceeds the number of makers. -/
theorem matchingLoop_settles
    (orderly : Orderly book spec)
    {takes : Price → Bool} {fuel : Nat}
    (enough : (spec.orders side).length < fuel)
    (demand : Quantity) (start : SubmissionResult)
    (filledRange : 0 ≤ start.quantityFilled)
    (range : start.quantityFilled + max 0 demand ≤ 2147483647) :
    ∃ exit taken, OrderBook.matchingLoop side takes fuel book demand start = .ok exit ∧
      Settled book spec start demand exit taken := by
  induction fuel generalizing book spec demand start with
  | zero => exact absurd enough (Nat.not_lt_zero _)
  | succ fuel inductionHypothesis =>
      by_cases wanted : 0 < demand
      case neg =>
        refine ⟨_, [], ?_, orderly.settled_of_nothing demand start⟩
        rw [OrderBook.matchingLoop, if_pos wanted]
      cases best : (book.ladder side).bestPrice with
      | none =>
          refine ⟨_, [], ?_, orderly.settled_of_nothing demand start⟩
          simp [OrderBook.matchingLoop, best]
      | some price =>
          cases accepted : takes price with
          | false =>
              refine ⟨_, [], ?_, orderly.settled_of_nothing demand start⟩
              simp [OrderBook.matchingLoop, best, accepted]
          | true =>
              obtain ⟨head, rest, queue⟩ :=
                List.exists_cons_of_ne_nil (orderly.carries.served side price best)
              obtain ⟨member, rfl⟩ := mem_queueAt.mp (queue ▸ List.mem_cons_self)
              obtain ⟨level, access, iteration⟩ := orderly.carries.matchingLoop_of_accepted
                queue best accepted wanted fuel start
              rw [iteration]
              have soundHead := orderly.sound side head member
              by_cases larger : demand < head.quantity
              · -- The maker outlasts the taker.
                obtain ⟨book', took, carries', samePool, _⟩ := orderly.carries.takeFromMaker
                  queue access (show InInt32 (head.quantity - demand) by unfold InInt32; lia)
                have filled : toInt32 (start.quantityFilled + demand) =
                    start.quantityFilled + demand :=
                  toInt32_of_inInt32 (by unfold InInt32; lia)
                rw [if_pos larger, took, ok_bind]
                exact ⟨_, _, rfl, orderly.settled_of_outlasting member wanted larger carries'
                  samePool filled⟩
              · -- The maker is used up, and the loop goes on without it.
                obtain ⟨book', retired, carries', freed, _⟩ :=
                  orderly.carries.retireMaker queue access
                have remaining : toInt32 (demand - head.quantity) = demand - head.quantity :=
                  toInt32_of_inInt32 (by unfold InInt32; lia)
                have filled : toInt32 (start.quantityFilled + head.quantity) =
                    start.quantityFilled + head.quantity :=
                  toInt32_of_inInt32 (by unfold InInt32; lia)
                have fewer : ((spec.remove head.id).orders side).length < fuel := by
                  rw [Reference.Book.orders_remove]
                  refine lt_of_lt_of_le ?_ (Nat.le_of_lt_succ enough)
                  exact List.length_filter_lt_length_iff_exists.mpr ⟨head, member, by simp⟩
                obtain ⟨exit, taken, loop, settled⟩ :=
                  inductionHypothesis (orderly.remove carries') fewer (demand - head.quantity)
                    (OrderBook.recordExecution start head.id head.price head.quantity)
                    (by simp only [OrderBook.recordExecution, filled]; lia)
                    (by simp only [OrderBook.recordExecution, filled]; lia)
                rw [if_neg larger, retired, ok_bind, remaining, loop]
                exact ⟨exit, _, rfl, settled.afterMaker orderly member (not_lt.mp larger) freed
                  filled⟩

/-- Running the matching loop, from the number of live orders as its bound. -/
theorem runMatching_settles
    (orderly : Orderly book spec)
    (side : Side) (takes : Price → Bool) {quantity : Quantity}
    (range : quantity ≤ 2147483647) :
    ∃ exit taken, book.runMatching side takes quantity = .ok exit ∧
      Settled book spec { quantityRequested := quantity } quantity exit taken := by
  obtain ⟨addr, free, linked⟩ := orderly.carries.linked
  have enough : (spec.orders side).length < book.memoryPool.currentlyAllocated + 1 :=
    Nat.lt_succ_of_le (linked.length_orders_le side)
  exact orderly.matchingLoop_settles enough quantity _ le_rfl (by simpa using range)

/-- What a matching loop that has returned has done. -/
theorem settled_of_ran
    (orderly : Orderly book spec)
    {takes : Price → Bool} {quantity : Quantity} {exit : OrderBook.LoopExit}
    (range : quantity ≤ 2147483647)
    (ran : book.runMatching side takes quantity = .ok exit) :
    ∃ taken, Settled book spec { quantityRequested := quantity } quantity exit taken := by
  obtain ⟨exit', taken, ran', settled⟩ := orderly.runMatching_settles side takes range
  obtain rfl : exit' = exit := Except.ok.inj (ran'.symm.trans ran)
  exact ⟨taken, settled⟩

/-! ## Orders that may rest -/

/-- What a finished loop has filled and what remains after it. -/
theorem Settled.filledBy_eq
    {start : SubmissionResult} {demand : Quantity} {exit : OrderBook.LoopExit}
    {taken : List (Order × Quantity)}
    (settled : Settled book spec start demand exit taken) :
    exit.subResult.quantityFilled =
      start.quantityFilled + Reference.Book.filledBy (taken.map Reference.Book.execution) := by
  rw [Reference.Book.filledBy_map_execution]
  exact settled.matched.filled

/-- What a finished loop reports of an order, once its status is known. -/
theorem Settled.settles
    {order : Order} {status : SubmitStatus} {exit : OrderBook.LoopExit}
    {taken : List (Order × Quantity)}
    (settled : Settled book spec { quantityRequested := order.quantity } order.quantity exit
      taken)
    (within : Reference.Book.filledBy (taken.map Reference.Book.execution) ≤ order.quantity)
    (isStatus : status = Reference.Book.restingStatus
      (order.quantity - Reference.Book.filledBy (taken.map Reference.Book.execution))
      order.quantity) :
    spec.Settles side order { exit.subResult with status := status }
      (spec.afterSubmission side order (taken.map Reference.Book.execution)) := by
  have executions : exit.subResult.executions = taken.map Reference.Book.execution :=
    settled.matched.executions.trans (List.nil_append _)
  have filled : exit.subResult.quantityFilled =
      Reference.Book.filledBy (taken.map Reference.Book.execution) :=
    settled.filledBy_eq.trans (Int.zero_add _)
  refine ⟨executions ▸ settled.covers, executions ▸ filled, filled.trans_le within, ?_,
    by rw [executions]⟩
  rw [isStatus, ← filled]

/-- What remains of an order for which the pool has a block is rested. -/
theorem Settled.restOrder
    {order : Order} {exit : OrderBook.LoopExit} {taken : List (Order × Quantity)}
    (settled : Settled book spec { quantityRequested := order.quantity } order.quantity exit
      taken)
    (hasFree : HasFree book)
    (range : order.quantity ≤ 2147483647)
    (fresh : ¬ spec.Contains order.id)
    (inRange : spec.minPrice ≤ order.price ∧ order.price ≤ spec.maxPrice)
    (within : 0 ≤ exit.remainingShares ∧ exit.remainingShares ≤ order.quantity)
    (remains : exit.remainingShares ≠ 0) (side : Side) :
    ∃ book',
      exit.book.restOrder order.id order.price exit.remainingShares order.lifetime side side
        side = .ok book' ∧
      Orderly book' ((spec.afterExecutions (taken.map Reference.Book.execution)).rest side
        { order with quantity := exit.remainingShares }) := by
  have soundOrder : (1 : Int) ≤ exit.remainingShares ∧ exit.remainingShares ≤ 2147483647 := by
    lia
  rcases settled.orderly.carries.restOrder { order with quantity := exit.remainingShares } side
      (fun present => fresh (Reference.Book.contains_of_afterExecutions present)) inRange with
    ⟨noFree, _⟩ | ⟨book', rested, carries', _⟩
  · exact absurd (settled.matched.keepsFree hasFree) noFree
  · exact ⟨book', rested, carries', sound_rest settled.orderly.sound soundOrder _⟩

/-- A submission that may rest goes through when the pool has a block. -/
theorem submitLimitOrderResting_settles
    (orderly : Orderly book spec)
    (hasFree : HasFree book)
    {request : LimitOrderRequest}
    (positive : 0 < request.quantity)
    (range : request.quantity ≤ 2147483647)
    (fresh : ¬ spec.Contains request.id)
    (inRange : spec.minPrice ≤ request.price ∧ request.price ≤ spec.maxPrice) :
    ∃ result book' spec',
      OrderBook.submitLimitOrderResting request.side book request = .ok (result, book') ∧
      Orderly book' spec' ∧
      spec.Settles request.side
        ⟨request.id, request.price, request.quantity, restingLifetime request.tif⟩ result
        spec' := by
  obtain ⟨exit, taken, ran, settled⟩ := orderly.runMatching_settles request.side.opposite
    (OrderBook.crosses request.side request.price) range
  let order : Order :=
    ⟨request.id, request.price, request.quantity, restingLifetime request.tif⟩
  have settledOrder : Settled book spec { quantityRequested := order.quantity } order.quantity
      exit taken := settled
  have total := Reference.Book.filledBy_map_execution taken
  -- Without a remainder the taker is filled, and nothing of it joins the queues.
  have whenFilled (all : Reference.Book.filledBy (taken.map Reference.Book.execution) =
      order.quantity) :
      Orderly exit.book (spec.afterSubmission request.side order
          (taken.map Reference.Book.execution)) ∧
        spec.Settles request.side order { exit.subResult with status := .filled }
          (spec.afterSubmission request.side order (taken.map Reference.Book.execution)) := by
    refine ⟨?_, settledOrder.settles all.le (by rw [all, sub_self]; rfl)⟩
    rw [Reference.Book.afterSubmission, all, if_neg (lt_irrefl _)]
    exact settled.orderly
  unfold OrderBook.submitLimitOrderResting
  rw [ran, ok_bind]
  cases returned : exit.returned with
  | true =>
      obtain ⟨isFilled, exact⟩ := settled.matched.returned returned
      obtain ⟨orderly', settles⟩ := whenFilled (total.trans exact)
      rw [← isFilled] at settles
      exact ⟨_, _, _, if_pos rfl, orderly', settles⟩
  | false =>
      obtain ⟨left, _⟩ := settled.matched.left returned
      have remaining : exit.remainingShares =
          order.quantity - Reference.Book.filledBy (taken.map Reference.Book.execution) :=
        left.trans (congrArg _ total.symm)
      have within := settled.within positive.le
      rw [if_neg (by simp)]
      by_cases nothingLeft : exit.remainingShares = 0
      · obtain ⟨orderly', settles⟩ := whenFilled (by lia)
        rw [if_pos nothingLeft]
        exact ⟨_, _, _, rfl, orderly', settles⟩
      · obtain ⟨book', rested, orderly'⟩ := settledOrder.restOrder hasFree range fresh inRange
          within nothingLeft request.side
        have queued : spec.afterSubmission request.side order
            (taken.map Reference.Book.execution) =
              (spec.afterExecutions (taken.map Reference.Book.execution)).rest request.side
                { order with quantity := exit.remainingShares } := by
          rw [Reference.Book.afterSubmission, if_pos (by lia), remaining]
          rfl
        rw [if_neg nothingLeft, settled.orderly.carries.ladder_side]
        refine ⟨_, book', _, congrArg (· >>= _) rested, queued ▸ orderly',
          settledOrder.settles (by lia) ?_⟩
        rw [← remaining, Reference.Book.restingStatus, if_neg nothingLeft]

/-- A modification of an order that rests, to a positive quantity and a price in range,
cancels it and resubmits it. -/
theorem modifyOrder_settles
    (orderly : Orderly book spec)
    {order : Order} {newPrice : Price} {newQuantity : Quantity}
    (member : order ∈ spec.orders side)
    (positive : 0 < newQuantity)
    (range : newQuantity ≤ 2147483647)
    (inRange : spec.minPrice ≤ newPrice ∧ newPrice ≤ spec.maxPrice) :
    ∃ resubmission next spec',
      book.modifyOrder ⟨order.id, newQuantity, newPrice⟩ =
        .ok (⟨order.quantity, .resubmitted, some resubmission⟩, next) ∧
      Orderly next spec' ∧
      (spec.remove order.id).Settles side
        ⟨order.id, newPrice, newQuantity, order.lifetime⟩ resubmission spec' := by
  obtain ⟨middle, carries', freed, _, modified⟩ :=
    orderly.carries.modifyOrder_of_mem member newQuantity inRange
  -- The id is free again and the price has been checked, so the second guard passes.
  have fresh : ¬ (spec.remove order.id).Contains order.id := fun present =>
    (Reference.Book.contains_remove.mp present).2 rfl
  have accepted : ¬ middle.rejects ⟨order.id, newPrice, newQuantity, side,
      Reference.Book.resubmissionTif order.lifetime⟩ := by
    rintro (present | above | below)
    · exact fresh (carries'.mem_idMap.mp present)
    · exact above.not_ge (carries'.maxPrice ▸ inRange.2)
    · exact below.not_ge (carries'.minPrice ▸ inRange.1)
  have mayRest : Reference.Book.resubmissionTif order.lifetime = .gtc ∨
      Reference.Book.resubmissionTif order.lifetime = .day := by
    cases order.lifetime
    · exact Or.inl rfl
    · exact Or.inr rfl
  have sameLifetime :
      restingLifetime (Reference.Book.resubmissionTif order.lifetime) = order.lifetime := by
    cases order.lifetime <;> rfl
  obtain ⟨resubmission, next, spec', submitted, orderly', settles⟩ :=
    (orderly.remove carries').submitLimitOrderResting_settles freed
      (show 0 < (⟨order.id, newPrice, newQuantity, side,
        Reference.Book.resubmissionTif order.lifetime⟩ : LimitOrderRequest).quantity
        from positive) range fresh inRange
  rw [sameLifetime] at settles
  refine ⟨resubmission, next, spec', ?_, orderly', settles⟩
  rw [modified, if_pos positive, OrderBook.submitLimitOrder_of_mayRest mayRest accepted,
    submitted, ok_bind]

end Orderly

end Refinement
end MatchingEngine
