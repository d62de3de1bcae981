import MatchingEngine.Refinement.Submission

/-!
# Cancelling, modifying and replaying refine the reference book

Modifying and replacing an order cancel it first.  The block that the
cancellation frees is there for the new order, so the second step of both
operations always goes through.
-/

namespace MatchingEngine
namespace Refinement

open Reference (Order priority orderPriority)
open OrderBook (Registry)

variable {book : OrderBook} {spec : Reference.Book}

theorem SimulatesUnlessExhausted.of_hasFree
    {α : Type} {result : Except Fault (α × OrderBook)} {expected : α × Reference.Book}
    (simulates : SimulatesUnlessExhausted book result expected)
    (hasFree : HasFree book) :
    Simulates result expected :=
  simulates.resolve_left fun exhausted => exhausted.1 hasFree

/-- What follows stands for the reference operation. -/
theorem Follows.simulates
    {α : Type} {soundQuantities : Prop} {result : Except Fault (α × OrderBook)}
    {expected : α × Reference.Book}
    (follows : Follows book spec soundQuantities result expected)
    (sound : soundQuantities)
    (refines : Refines book spec)
    (roomy : RoomyBook spec) :
    Simulates result expected := by
  obtain ⟨book', returned, _, refines'⟩ := follows
  exact ⟨book', returned, refines' sound refines roomy⟩

/-- The quantities may be known to be sound for another reason. -/
theorem Follows.weaken
    {α : Type} {soundQuantities otherwise : Prop} {result : Except Fault (α × OrderBook)}
    {expected : α × Reference.Book}
    (follows : Follows book spec soundQuantities result expected)
    (sound : otherwise → soundQuantities) :
    Follows book spec otherwise result expected := by
  obtain ⟨book', returned, carries', refines'⟩ := follows
  exact ⟨book', returned, carries', fun holds => refines' (sound holds)⟩

/-- An operation that does nothing. -/
theorem Carries.unchanged
    {α : Type} {soundQuantities : Prop}
    (carries : Carries book spec)
    (answer : α) :
    Follows book spec soundQuantities (.ok (answer, book)) (answer, spec) :=
  ⟨book, rfl, carries, fun _ refines _ => refines⟩

/-! ## Cancelling -/

/-- Cancelling an order that rests. -/
theorem Carries.cancelOrder_of_mem
    (carries : Carries book spec)
    {side : Side} {order : Order}
    (member : order ∈ spec.orders side) :
    ∃ book',
      book.cancelOrder ⟨order.id⟩ = .ok (⟨order.quantity, .canceled⟩, book') ∧
      Carries book' (spec.remove order.id) ∧ HasFree book' ∧
      (Refines book spec → RoomyBook spec → Refines book' (spec.remove order.id)) := by
  obtain ⟨addr, free, block, level, front, rest, linked, found, stored, contents, access,
    levelPrice, split, levelLinks⟩ := carries.resting member
  have levelLink : block.level = some ⟨side, indexOf (book.ladder side) order.price⟩ :=
    congrArg RestingOrder.level contents
  obtain ⟨level', heap', unlinkedOrder, removed⟩ := levelLinks.removeOrder
  obtain ⟨pool, heap'', deallocated, after⟩ := linked.detach member split levelPrice removed
  have deallocated : book.memoryPool.deallocate (some (addr order.id)) heap' =
      .ok (pool, heap'') := deallocated
  have firstFree : pool.firstFree = some (addr order.id) := after.pool.chain.1
  have linksAfter := after.links side
  rw [Function.update_self] at linksAfter
  obtain ⟨best, refresh⟩ := linksAfter.refresh (linked.inRange member)
    (level'.empty = true ∧ ((book.ladder side).setLevel
      (indexOf (book.ladder side) order.price) level').bestPrice = some order.price)
  have served : ∀ price, best = some price →
      queueAt side price ((spec.remove order.id).orders side) ≠ [] :=
    linksAfter.rests_of_refresh refresh fun occupied old isBest =>
      carries.queueAt_remove_ne_nil member split removed.links isBest
        fun vacant => occupied ⟨vacant.1, isBest.trans (congrArg some vacant.2)⟩
  refine ⟨_, ?_, carries.of_linked (after.withBest best)
      (fun other different => carries.distinct.orders_remove_of_ne member different) served
      rfl rfl,
    by simp [HasFree, firstFree], fun refines roomy => ?_⟩
  · have levelPriceAfter : level'.getPrice = order.price := removed.price.trans levelPrice
    have ladderAfter : ({ book with heap := heap' }.setLevel
        ⟨side, indexOf (book.ladder side) order.price⟩ level').ladder side =
          (book.ladder side).setLevel (indexOf (book.ladder side) order.price) level' := by
      rw [OrderBook.setLevel, ladder_setLadder, Function.update_self]
      rfl
    have heapAfter : ({ book with heap := heap' }.setLevel
        ⟨side, indexOf (book.ladder side) order.price⟩ level').heap = heap' :=
      setLadder_heap ..
    have poolAfter : ({ book with heap := heap' }.setLevel
        ⟨side, indexOf (book.ladder side) order.price⟩ level').memoryPool =
          book.memoryPool :=
      setLadder_memoryPool ..
    have detachedSide : (detached ⟨side, indexOf (book.ladder side) order.price⟩ order).side =
        side := rfl
    simp only [OrderBook.cancelOrder, found, Heap.order_eq_ok stored, ok_bind, levelLink,
      deref_some, access, unlinkedOrder, heapAfter, Heap.order_eq_ok removed.block,
      detachedSide, ladderAfter, levelPriceAfter, OrderBook.retireOrder, poolAfter,
      deallocated]
    by_cases vacant : level'.empty = true ∧
        ((book.ladder side).setLevel (indexOf (book.ladder side) order.price)
          level').bestPrice = some order.price
    · rw [if_pos vacant] at refresh
      rw [if_pos vacant, refresh]
      cases side <;> rfl
    · rw [if_neg vacant] at refresh
      rw [if_neg vacant, ← Except.ok.inj refresh]
      cases side <;> rfl
  · exact refines.of_removed roomy linked member split access levelPrice removed deallocated
      refresh

/-- Cancelling, whether or not the order rests. -/
theorem Carries.cancelOrder
    (carries : Carries book spec)
    (request : CancelOrderRequest) :
    Follows book spec True (book.cancelOrder request) (spec.cancel request) := by
  unfold Reference.Book.cancel
  cases located : spec.locate request.id with
  | none =>
      simp only [OrderBook.cancelOrder, carries.lookup_eq_none located]
      exact carries.unchanged _
  | some found =>
      obtain ⟨side, order⟩ := found
      obtain ⟨member, equal⟩ := Reference.Book.locate_eq_some located
      obtain ⟨book', cancelled, carries', _, refines'⟩ := carries.cancelOrder_of_mem member
      rw [equal] at cancelled carries' refines'
      exact ⟨book', cancelled, carries', fun _ => refines'⟩

/-! ## Modifying -/

/-- The lifetime of a block is resubmitted as the reference resubmits it. -/
theorem resubmissionTif_eq (lifetime : RestingLifetime) :
    (if lifetime = .gtc then TimeInForce.gtc else .day) =
      Reference.Book.resubmissionTif lifetime := by
  cases lifetime <;> rfl

/-- Modifying an order that rests, to a price in range: a cancellation, and a submission
unless there is nothing to resubmit. -/
theorem Carries.modifyOrder_of_mem
    (carries : Carries book spec)
    {side : Side} {order : Order} {newPrice : Price}
    (member : order ∈ spec.orders side)
    (newQuantity : Quantity)
    (inRange : spec.minPrice ≤ newPrice ∧ newPrice ≤ spec.maxPrice) :
    ∃ middle,
      Carries middle (spec.remove order.id) ∧ HasFree middle ∧
      (Refines book spec → RoomyBook spec → Refines middle (spec.remove order.id)) ∧
      book.modifyOrder ⟨order.id, newQuantity, newPrice⟩ =
        if newQuantity > 0 then do
          let resubmission ← middle.submitLimitOrder
            ⟨order.id, newPrice, newQuantity, side,
              Reference.Book.resubmissionTif order.lifetime⟩
          .ok (⟨order.quantity, .resubmitted, some resubmission.1⟩, resubmission.2)
        else .ok (⟨order.quantity, .canceled, none⟩, middle) := by
  obtain ⟨addr, free, block, level, front, rest, linked, found, stored, contents, _⟩ :=
    carries.resting member
  obtain ⟨middle, cancelled, carries', freed, refines'⟩ := carries.cancelOrder_of_mem member
  have blockSide : block.side = side := congrArg RestingOrder.side contents
  have blockQuantity : block.quantity = order.quantity :=
    congrArg RestingOrder.quantity contents
  have blockLifetime : block.lifetime = order.lifetime :=
    congrArg RestingOrder.lifetime contents
  have inside : ¬ (newPrice > book.maxPrice ∨ newPrice < book.minPrice) := by
    rw [carries.maxPrice, carries.minPrice, not_or, not_lt, not_lt]
    exact inRange.symm
  refine ⟨middle, carries', freed, refines', ?_⟩
  rw [OrderBook.modifyOrder, if_neg inside, found]
  simp only [Heap.order_eq_ok stored, ok_bind, cancelled, blockSide, blockLifetime,
    blockQuantity, resubmissionTif_eq]

theorem modifyOrder
    (refines : Refines book spec)
    (roomy : RoomyBook spec)
    {request : ModifyOrderRequest}
    (range : request.newQuantity ≤ 2147483647) :
    Simulates (book.modifyOrder request) (spec.modify request) := by
  obtain ⟨id, newQuantity, newPrice⟩ := request
  rw [Reference.Book.modify]
  by_cases outside : newPrice > spec.maxPrice ∨ newPrice < spec.minPrice
  · rw [OrderBook.modifyOrder, refines.minPrice, refines.maxPrice, if_pos outside,
      if_pos outside]
    exact ⟨book, rfl, refines⟩
  rw [if_neg outside]
  cases located : spec.locate id with
  | none =>
      rw [OrderBook.modifyOrder, refines.minPrice, refines.maxPrice, if_neg outside,
        refines.carries.lookup_eq_none located]
      exact ⟨book, rfl, refines⟩
  | some found =>
      obtain ⟨side, order⟩ := found
      obtain ⟨member, rfl⟩ := Reference.Book.locate_eq_some located
      rw [not_or, not_lt, not_lt] at outside
      obtain ⟨middle, _, freed, refines', modified⟩ :=
        refines.carries.modifyOrder_of_mem member newQuantity outside.symm
      have refines' := refines' refines roomy
      rw [modified]
      by_cases resubmits : newQuantity > 0
      · simp only [if_pos resubmits]
        have safe : (spec.remove order.id).SafeLimit
            ⟨order.id, newPrice, newQuantity, side,
              Reference.Book.resubmissionTif order.lifetime⟩ := by
          refine ⟨range, Or.inr ?_⟩
          cases order.lifetime <;> exact resubmits.le
        obtain ⟨book', submitted, refines''⟩ :=
          (submitLimitOrder refines' (roomy.remove order.id) safe).of_hasFree freed
        refine ⟨book', ?_, refines''⟩
        rw [submitted, ok_bind]
      · simp only [if_neg resubmits]
        exact ⟨middle, rfl, refines'⟩

/-! ## Replaying -/

/-- An addition that passes the guard inserts the order, whatever its quantity. -/
theorem Carries.replayAddVisibleOrder_of_accepted
    (carries : Carries book spec)
    {id : OrderID} {price : Price} {quantity : Quantity}
    (side : Side)
    (nonzero : quantity ≠ 0)
    (fresh : ¬ spec.Contains id)
    (inRange : spec.minPrice ≤ price ∧ price ≤ spec.maxPrice) :
    (¬ HasFree book ∧
      book.replayAddVisibleOrder id price quantity side = .error .badAlloc) ∨
    Follows book spec (1 ≤ quantity ∧ quantity ≤ 2147483647)
      (book.replayAddVisibleOrder id price quantity side)
      (true, spec.rest side ⟨id, price, quantity, .gtc⟩) := by
  have accepted : ¬ (quantity = 0 ∨ id ∈ book.idToOrderMap ∨ price < book.minPrice ∨
      price > book.maxPrice) := by
    rw [carries.mem_idMap, carries.minPrice, carries.maxPrice]
    simp only [not_or, not_lt]
    exact ⟨nonzero, fresh, inRange⟩
  unfold OrderBook.replayAddVisibleOrder
  rw [if_neg accepted]
  rcases carries.restOrder ⟨id, price, quantity, .gtc⟩ side fresh inRange with
    ⟨noFree, exhausted⟩ | ⟨book', rested, carries', refines'⟩
  · exact Or.inl ⟨noFree, congrArg (fun result => result >>= _) exhausted⟩
  · exact Or.inr ⟨book', congrArg (fun result => result >>= _) rested, carries', refines'⟩

theorem Carries.replayAddVisibleOrder
    (carries : Carries book spec)
    (id : OrderID) (price : Price) (quantity : Quantity) (side : Side) :
    (¬ HasFree book ∧
      book.replayAddVisibleOrder id price quantity side = .error .badAlloc) ∨
    Follows book spec (0 ≤ quantity ∧ quantity ≤ 2147483647)
      (book.replayAddVisibleOrder id price quantity side)
      (spec.replayAdd id price quantity side) := by
  unfold Reference.Book.replayAdd
  by_cases refused : quantity = 0 ∨ spec.Contains id ∨ price < spec.minPrice ∨
      price > spec.maxPrice
  · have guard : quantity = 0 ∨ id ∈ book.idToOrderMap ∨ price < book.minPrice ∨
        price > book.maxPrice := by
      rw [carries.mem_idMap, carries.minPrice, carries.maxPrice]
      exact refused
    rw [if_pos refused, OrderBook.replayAddVisibleOrder, if_pos guard]
    exact Or.inr (carries.unchanged false)
  · rw [if_neg refused]
    simp only [not_or, not_lt] at refused
    obtain ⟨nonzero, fresh, inRange⟩ := refused
    refine (carries.replayAddVisibleOrder_of_accepted side nonzero fresh inRange).imp_right ?_
    rintro ⟨book', added, carries', refines'⟩
    exact ⟨book', added, carries', fun sound => refines' (by lia)⟩

theorem Carries.replayDeleteVisibleOrder_of_mem
    (carries : Carries book spec)
    {side : Side} {order : Order}
    (member : order ∈ spec.orders side) :
    ∃ book',
      book.replayDeleteVisibleOrder order.id = .ok (true, book') ∧
      Carries book' (spec.remove order.id) ∧ HasFree book' ∧
      (Refines book spec → RoomyBook spec → Refines book' (spec.remove order.id)) := by
  obtain ⟨book', cancelled, after⟩ := carries.cancelOrder_of_mem member
  refine ⟨book', ?_, after⟩
  rw [OrderBook.replayDeleteVisibleOrder, cancelled, ok_bind]
  rfl

theorem Carries.replayDeleteVisibleOrder
    (carries : Carries book spec)
    (id : OrderID) :
    Follows book spec True (book.replayDeleteVisibleOrder id) (spec.replayDelete id) := by
  unfold Reference.Book.replayDelete
  cases located : spec.locate id with
  | none =>
      refine ⟨book, ?_, carries, fun _ refines _ => refines⟩
      simp only [OrderBook.replayDeleteVisibleOrder, OrderBook.cancelOrder,
        carries.lookup_eq_none located, ok_bind]
      rfl
  | some found =>
      obtain ⟨side, order⟩ := found
      obtain ⟨member, rfl⟩ := Reference.Book.locate_eq_some located
      obtain ⟨book', deleted, carries', _, refines'⟩ :=
        carries.replayDeleteVisibleOrder_of_mem member
      exact ⟨book', deleted, carries', fun _ => refines'⟩

/-- The reduction leaves the quantity of every order in its type. -/
def ReducesInRange (spec : Reference.Book) (id : OrderID) (quantityReduced : Quantity) : Prop :=
  ∀ side, ∀ order ∈ spec.orders side, order.id = id →
    quantityReduced ≤ order.quantity → InInt32 (order.quantity - quantityReduced)

theorem Refines.reducesInRange
    (refines : Refines book spec)
    (id : OrderID) {quantityReduced : Quantity}
    (nonneg : 0 ≤ quantityReduced) :
    ReducesInRange spec id quantityReduced := by
  intro side order member _ enough
  obtain ⟨_, _, core⟩ := refines.core
  have sound := core.sound side order member
  unfold InInt32
  lia

theorem Carries.replayReduceVisibleOrder
    (carries : Carries book spec)
    (id : OrderID) {quantityReduced : Quantity}
    (inRange : ReducesInRange spec id quantityReduced) :
    Follows book spec (0 ≤ quantityReduced)
      (book.replayReduceVisibleOrder id quantityReduced)
      (spec.replayReduce id quantityReduced) := by
  unfold OrderBook.replayReduceVisibleOrder Reference.Book.replayReduce
  by_cases zero : quantityReduced = 0
  · rw [if_pos zero, if_pos zero]
    exact carries.unchanged false
  rw [if_neg zero, if_neg zero]
  cases located : spec.locate id with
  | none =>
      rw [carries.lookup_eq_none located]
      exact carries.unchanged false
  | some found =>
      obtain ⟨side, order⟩ := found
      obtain ⟨member, rfl⟩ := Reference.Book.locate_eq_some located
      obtain ⟨addr, free, block, level, front, rest, linked, found, stored, contents, access,
        levelPrice, split, levelLinks⟩ := carries.resting member
      have blockQuantity : block.quantity = order.quantity :=
        congrArg RestingOrder.quantity contents
      have levelLink : block.level = some ⟨side, indexOf (book.ladder side) order.price⟩ :=
        congrArg RestingOrder.level contents
      rw [found]
      simp only [Heap.order_eq_ok stored, ok_bind, blockQuantity, levelLink]
      by_cases tooMuch : quantityReduced > order.quantity
      · rw [if_pos tooMuch, if_pos tooMuch]
        exact carries.unchanged false
      rw [if_neg tooMuch, if_neg tooMuch]
      by_cases all : quantityReduced = order.quantity
      · rw [if_pos all, if_pos all]
        obtain ⟨book', deleted, carries', _, refines'⟩ :=
          carries.replayDeleteVisibleOrder_of_mem member
        exact ⟨book', deleted, carries', fun _ => refines'⟩
      rw [if_neg all, if_neg all]
      have enough := not_lt.mp tooMuch
      obtain ⟨level', heap', reducedOrder, reduced⟩ := levelLinks.reduceOrderQuantity enough
        (inRange side order member rfl enough)
      have after := linked.shrink member split levelPrice reduced
      rw [access, ok_bind, reducedOrder, ok_bind]
      refine ⟨_, rfl, carries.of_linked after
        (fun other different =>
          carries.distinct.orders_reduce_of_ne member different quantityReduced)
        (fun price isBest => queueAt_reduce_ne_nil (carries.served side price isBest) _ _)
        rfl rfl, fun nonneg refines roomy => ?_⟩
      have core := refines.core_of_linked linked
      have levelHolds : LevelHolds book.heap addr
          ⟨side, indexOf (book.ladder side) order.price⟩ level (front ++ order :: rest) :=
        split ▸ core.levelHolds access member
      refine refines.of_core (core.shrink (roomy side) member split
        (lt_of_le_of_ne nonneg (Ne.symm zero)) (lt_of_le_of_ne enough all) levelPrice levelHolds
        reduced) rfl rfl (fun other different => ?_) ?_
      · exact core.distinct.orders_reduce_of_ne member different quantityReduced
      · rw [bestOf_reduce]
        exact refines.best side

/-- A replacement that passes the guard, of an order that rests, deletes the order and
inserts the new one, whatever its quantity. -/
theorem Carries.replayReplaceVisibleOrder_of_accepted
    (carries : Carries book spec)
    {side : Side} {order : Order} {newId : OrderID} {newPrice : Price}
    {newQuantity : Quantity}
    (member : order ∈ spec.orders side)
    (nonzero : newQuantity ≠ 0)
    (inRange : spec.minPrice ≤ newPrice ∧ newPrice ≤ spec.maxPrice)
    (fresh : ¬ spec.Contains newId) :
    Follows book spec (1 ≤ newQuantity ∧ newQuantity ≤ 2147483647)
      (book.replayReplaceVisibleOrder order.id newId newPrice newQuantity)
      (true, (spec.remove order.id).rest side ⟨newId, newPrice, newQuantity, .gtc⟩) := by
  have accepted : ¬ (newQuantity = 0 ∨ newPrice < book.minPrice ∨
      newPrice > book.maxPrice ∨ newId ∈ book.idToOrderMap) := by
    rw [carries.mem_idMap, carries.minPrice, carries.maxPrice]
    simp only [not_or, not_lt]
    exact ⟨nonzero, inRange.1, inRange.2, fresh⟩
  obtain ⟨addr, free, block, level, front, rest, linked, found, stored, contents, _⟩ :=
    carries.resting member
  have blockSide : block.side = side := congrArg RestingOrder.side contents
  obtain ⟨book', deleted, carries', freed, refines'⟩ :=
    carries.replayDeleteVisibleOrder_of_mem member
  rcases carries'.replayAddVisibleOrder_of_accepted side nonzero
    (fun present => fresh (Reference.Book.contains_remove.mp present).1) inRange with
    ⟨noFree, _⟩ | ⟨book'', added, carries'', refines''⟩
  · exact absurd freed noFree
  · refine ⟨book'', ?_, carries'', fun sound refines roomy =>
      refines'' sound (refines' refines roomy) (roomy.remove order.id)⟩
    unfold OrderBook.replayReplaceVisibleOrder
    rw [if_neg accepted, found]
    simp only [Heap.order_eq_ok stored, ok_bind, deleted, blockSide, not_true_eq_false,
      if_false]
    exact added

theorem Carries.replayReplaceVisibleOrder
    (carries : Carries book spec)
    (originalId newId : OrderID) (newPrice : Price) (newQuantity : Quantity) :
    Follows book spec (0 ≤ newQuantity ∧ newQuantity ≤ 2147483647)
      (book.replayReplaceVisibleOrder originalId newId newPrice newQuantity)
      (spec.replayReplace originalId newId newPrice newQuantity) := by
  unfold Reference.Book.replayReplace
  by_cases refused : newQuantity = 0 ∨ newPrice < spec.minPrice ∨ newPrice > spec.maxPrice ∨
      spec.Contains newId
  · have guard : newQuantity = 0 ∨ newPrice < book.minPrice ∨ newPrice > book.maxPrice ∨
        newId ∈ book.idToOrderMap := by
      rw [carries.mem_idMap, carries.minPrice, carries.maxPrice]
      exact refused
    rw [if_pos refused, OrderBook.replayReplaceVisibleOrder, if_pos guard]
    exact carries.unchanged false
  rw [if_neg refused]
  cases located : spec.locate originalId with
  | none =>
      have guard : ¬ (newQuantity = 0 ∨ newPrice < book.minPrice ∨ newPrice > book.maxPrice ∨
          newId ∈ book.idToOrderMap) := by
        rw [carries.mem_idMap, carries.minPrice, carries.maxPrice]
        exact refused
      rw [OrderBook.replayReplaceVisibleOrder, if_neg guard, carries.lookup_eq_none located]
      exact carries.unchanged false
  | some found =>
      obtain ⟨side, order⟩ := found
      obtain ⟨member, rfl⟩ := Reference.Book.locate_eq_some located
      simp only [Reference.Book.replayAdd_of_remove refused]
      simp only [not_or, not_lt] at refused
      obtain ⟨nonzero, lower, upper, fresh⟩ := refused
      obtain ⟨book', replaced, carries', refines'⟩ :=
        carries.replayReplaceVisibleOrder_of_accepted member nonzero ⟨lower, upper⟩ fresh
      exact ⟨book', replaced, carries', fun sound => refines' (by lia)⟩

end Refinement
end MatchingEngine
