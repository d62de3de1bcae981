import MatchingEngine.Library.KeyedList
import MatchingEngine.Library.Fill
import MatchingEngine.Model.Basic

/-!
# The reference book

What the engine is for, without levels, pointers, caches or fixed-width sums:
each side of the book is the list of its resting orders, best price first and
in order of arrival within a price.  A taker walks the part of the opposite
list that its limit accepts.
-/

namespace MatchingEngine
namespace Reference

/-- A resting order with its price. -/
structure Order where
  id : OrderID
  price : Price
  quantity : Quantity
  lifetime : RestingLifetime
  deriving DecidableEq

namespace Order

/-- What is left of an order after a partial execution or a reduction. -/
def reduce (order : Order) (amount : Quantity) : Order :=
  { order with quantity := order.quantity - amount }

@[simp] theorem reduce_id (order : Order) (amount : Quantity) :
    (order.reduce amount).id = order.id := rfl

@[simp] theorem reduce_price (order : Order) (amount : Quantity) :
    (order.reduce amount).price = order.price := rfl

@[simp] theorem reduce_quantity (order : Order) (amount : Quantity) :
    (order.reduce amount).quantity = order.quantity - amount := rfl

@[simp] theorem reduce_lifetime (order : Order) (amount : Quantity) :
    (order.reduce amount).lifetime = order.lifetime := rfl

end Order

/-- Priority of a price on a side: the smaller, the better. -/
def priority (side : Side) (price : Price) : Int :=
  match side with
  | .buy => -price
  | .sell => price

theorem priority_injective (side : Side) : Function.Injective (priority side) := by
  intro left right equal
  cases side <;> simpa [priority] using equal

theorem priority_surjective (side : Side) : Function.Surjective (priority side) := by
  intro key
  cases side with
  | buy => exact ⟨-key, neg_neg key⟩
  | sell => exact ⟨key, rfl⟩

@[simp] theorem priority_inj (side : Side) (left right : Price) :
    priority side left = priority side right ↔ left = right :=
  (priority_injective side).eq_iff

/-- Priority of an order on a side. -/
def orderPriority (side : Side) (order : Order) : Int :=
  priority side order.price

@[simp] theorem orderPriority_reduce (side : Side) (order : Order) (amount : Quantity) :
    orderPriority side (order.reduce amount) = orderPriority side order := rfl

/-- The price range, and the orders of both sides in their priority. -/
structure Book where
  minPrice : Price
  maxPrice : Price
  bids : List Order
  asks : List Order
  deriving DecidableEq

namespace Book

/-- The resting orders of a side, best price first. -/
def orders (book : Book) : Side → List Order
  | .buy => book.bids
  | .sell => book.asks

/-- Replace the orders of a side. -/
def setOrders (book : Book) (side : Side) (orders : List Order) : Book :=
  match side with
  | .buy => { book with bids := orders }
  | .sell => { book with asks := orders }

@[simp] theorem setOrders_minPrice (book : Book) (side : Side) (orders : List Order) :
    (book.setOrders side orders).minPrice = book.minPrice := by
  cases side <;> rfl

@[simp] theorem setOrders_maxPrice (book : Book) (side : Side) (orders : List Order) :
    (book.setOrders side orders).maxPrice = book.maxPrice := by
  cases side <;> rfl

@[simp] theorem orders_setOrders_self (book : Book) (side : Side) (orders : List Order) :
    (book.setOrders side orders).orders side = orders := by
  cases side <;> rfl

theorem orders_setOrders
    (book : Book) (side other : Side) (orders : List Order) :
    (book.setOrders side orders).orders other =
      if other = side then orders else book.orders other := by
  cases side <;> cases other <;> rfl

/-- A side is replaced by a part of its orders. -/
theorem orders_setOrders_sublist
    {book : Book} {side : Side} {orders : List Order}
    (part : orders.Sublist (book.orders side))
    (other : Side) :
    ((book.setOrders side orders).orders other).Sublist (book.orders other) := by
  rw [orders_setOrders]
  split
  next same => exact same ▸ part
  next => exact List.Sublist.refl _

theorem setOrders_orders (book : Book) (side : Side) :
    book.setOrders side (book.orders side) = book := by
  cases side <;> rfl

@[simp] theorem setOrders_setOrders
    (book : Book) (side : Side) (orders orders' : List Order) :
    (book.setOrders side orders).setOrders side orders' = book.setOrders side orders' := by
  cases side <;> rfl

/-- Two books with the same range and the same orders are equal. -/
theorem ext_orders
    {left right : Book}
    (minPrice : left.minPrice = right.minPrice)
    (maxPrice : left.maxPrice = right.maxPrice)
    (orders : ∀ side, left.orders side = right.orders side) :
    left = right := by
  obtain ⟨_, _, _, _⟩ := left
  obtain ⟨_, _, _, _⟩ := right
  have bids := orders .buy
  have asks := orders .sell
  simp_all [Book.orders]

/-- The resting orders of one price, in order of arrival. -/
def queue (book : Book) (side : Side) (price : Price) : List Order :=
  KeyedList.bucket (orderPriority side) (priority side price) (book.orders side)

/-- Some order of the book has the id. -/
def Contains (book : Book) (id : OrderID) : Prop :=
  ∃ order ∈ book.bids ++ book.asks, order.id = id

instance (book : Book) (id : OrderID) : Decidable (book.Contains id) :=
  inferInstanceAs (Decidable (∃ order ∈ book.bids ++ book.asks, order.id = id))

theorem contains_iff {book : Book} {id : OrderID} :
    book.Contains id ↔ ∃ side, ∃ order ∈ book.orders side, order.id = id := by
  constructor
  · rintro ⟨order, member, equal⟩
    rcases List.mem_append.mp member with inBids | inAsks
    · exact ⟨.buy, order, inBids, equal⟩
    · exact ⟨.sell, order, inAsks, equal⟩
  · rintro ⟨side, order, member, equal⟩
    cases side with
    | buy => exact ⟨order, List.mem_append_left _ member, equal⟩
    | sell => exact ⟨order, List.mem_append_right _ member, equal⟩

/-- The order with an id and the side it rests on. -/
def locate (book : Book) (id : OrderID) : Option (Side × Order) :=
  match book.bids.find? (fun order => order.id = id) with
  | some order => some (.buy, order)
  | none => (book.asks.find? fun order => order.id = id).map fun order => (.sell, order)

theorem locate_eq_none {book : Book} {id : OrderID} :
    book.locate id = none ↔ ¬ book.Contains id := by
  unfold locate Contains
  cases inBids : book.bids.find? (fun order => order.id = id) with
  | some order =>
      have member := List.mem_of_find?_eq_some inBids
      have equal := List.find?_some inBids
      simp only [reduceCtorEq, false_iff, not_not]
      exact ⟨order, List.mem_append_left _ member, by simpa using equal⟩
  | none =>
      have noBid := List.find?_eq_none.mp inBids
      simp only [Option.map_eq_none_iff, List.find?_eq_none, List.mem_append,
        not_exists, not_and]
      constructor
      · rintro noAsk order (member | member)
        · simpa using noBid order member
        · simpa using noAsk order member
      · intro absent order member
        simpa using absent order (Or.inr member)

theorem locate_eq_some
    {book : Book} {id : OrderID} {side : Side} {order : Order}
    (located : book.locate id = some (side, order)) :
    order ∈ book.orders side ∧ order.id = id := by
  unfold locate at located
  cases inBids : book.bids.find? (fun order => order.id = id) with
  | some bid =>
      simp only [inBids, Option.some.injEq, Prod.mk.injEq] at located
      obtain ⟨rfl, rfl⟩ := located
      exact ⟨List.mem_of_find?_eq_some inBids, by simpa using List.find?_some inBids⟩
  | none =>
      simp only [inBids, Option.map_eq_some_iff, Prod.mk.injEq] at located
      obtain ⟨ask, inAsks, rfl, rfl⟩ := located
      exact ⟨List.mem_of_find?_eq_some inAsks, by simpa using List.find?_some inAsks⟩

/-! ## Operations -/

/-- Queue an order behind all orders of the same or a better price. -/
def rest (book : Book) (side : Side) (order : Order) : Book :=
  book.setOrders side (KeyedList.enqueue (orderPriority side) order (book.orders side))

/-- Remove the order with an id from both sides. -/
def remove (book : Book) (id : OrderID) : Book :=
  { book with
    bids := book.bids.filter fun order => order.id ≠ id
    asks := book.asks.filter fun order => order.id ≠ id }

theorem orders_remove (book : Book) (id : OrderID) (side : Side) :
    (book.remove id).orders side =
      (book.orders side).filter fun order => order.id ≠ id := by
  cases side <;> rfl

/-- Reduce the order with an id in place. -/
def reduce (book : Book) (id : OrderID) (amount : Quantity) : Book :=
  let change (order : Order) := if order.id = id then order.reduce amount else order
  { book with bids := book.bids.map change, asks := book.asks.map change }

theorem orders_reduce (book : Book) (id : OrderID) (amount : Quantity) (side : Side) :
    (book.reduce id amount).orders side =
      (book.orders side).map fun order =>
        if order.id = id then order.reduce amount else order := by
  cases side <;> rfl

/-- Fill a taker from the makers of one side whose prices are accepted. -/
def matching
    (book : Book) (makerSide : Side) (takes : Price → Bool) (quantity : Quantity) :
    Fill.Outcome Order :=
  Fill.fill Order.quantity Order.reduce quantity
    ((book.orders makerSide).filter fun order => takes order.price)

/-- The book after a taker has been filled. -/
def afterMatching
    (book : Book) (makerSide : Side) (takes : Price → Bool) (quantity : Quantity) :
    Book :=
  book.setOrders makerSide
    ((book.matching makerSide takes quantity).rest ++
      (book.orders makerSide).filter fun order => !takes order.price)

/-- The report of one execution. -/
def execution (entry : Order × Quantity) : ExecutionResult :=
  ⟨entry.1.id, entry.1.price, entry.2⟩

/-- The submission result of a taker, but for its status. -/
def report (outcome : Fill.Outcome Order) (quantity : Quantity) (status : SubmitStatus) :
    SubmissionResult :=
  { quantityRequested := quantity
    quantityFilled := outcome.total
    status
    executions := outcome.taken.map execution }

/-- A limit order of side `side` and price `limit` accepts a maker's price. -/
def accepts (side : Side) (limit price : Price) : Bool :=
  match side with
  | .buy => decide (price ≤ limit)
  | .sell => decide (limit ≤ price)

theorem accepts_iff {side : Side} {limit price : Price} :
    accepts side limit price = true ↔
      priority side.opposite price ≤ priority side.opposite limit := by
  cases side <;> simp [accepts, priority, Side.opposite]

/-- Status of a taker whose remainder is dropped. -/
def droppedStatus (remaining quantity : Quantity) : SubmitStatus :=
  if remaining = 0 then .filled
  else if remaining < quantity then .partiallyFilledCanceled
  else .canceled

/-- Status of a taker whose remainder rests. -/
def restingStatus (remaining quantity : Quantity) : SubmitStatus :=
  if remaining = 0 then .filled
  else if remaining < quantity then .partiallyFilledResting
  else .resting

/-- Trade at any price. -/
def submitMarket (book : Book) (request : MarketOrderRequest) :
    SubmissionResult × Book :=
  if book.Contains request.id then
    ({ quantityRequested := request.quantity, status := .rejected }, book)
  else
    let makerSide := request.side.opposite
    let outcome := book.matching makerSide (fun _ => true) request.quantity
    (report outcome request.quantity
        (droppedStatus (request.quantity - outcome.total) request.quantity),
      book.afterMatching makerSide (fun _ => true) request.quantity)

/-- The remainder of a taker rests at the tail of its own level. -/
def submitResting (book : Book) (request : LimitOrderRequest)
    (lifetime : RestingLifetime) : SubmissionResult × Book :=
  let makerSide := request.side.opposite
  let takes := accepts request.side request.price
  let outcome := book.matching makerSide takes request.quantity
  let remaining := request.quantity - outcome.total
  let after := book.afterMatching makerSide takes request.quantity
  (report outcome request.quantity (restingStatus remaining request.quantity),
    if remaining = 0 then after
    else after.rest request.side ⟨request.id, request.price, remaining, lifetime⟩)

/-- The remainder of a taker is dropped. -/
def submitImmediate (book : Book) (request : LimitOrderRequest) :
    SubmissionResult × Book :=
  let makerSide := request.side.opposite
  let takes := accepts request.side request.price
  let outcome := book.matching makerSide takes request.quantity
  (report outcome request.quantity
      (droppedStatus (request.quantity - outcome.total) request.quantity),
    book.afterMatching makerSide takes request.quantity)

/-- All or nothing. -/
def submitAllOrNothing (book : Book) (request : LimitOrderRequest) :
    SubmissionResult × Book :=
  let makerSide := request.side.opposite
  let takes := accepts request.side request.price
  let outcome := book.matching makerSide takes request.quantity
  if outcome.total = request.quantity then
    (report outcome request.quantity .filled,
      book.afterMatching makerSide takes request.quantity)
  else ({ quantityRequested := request.quantity, status := .killed }, book)

/-- The id of a request is taken, or its price is out of range. -/
def Rejects (book : Book) (request : LimitOrderRequest) : Prop :=
  book.Contains request.id ∨ request.price > book.maxPrice ∨
    request.price < book.minPrice

instance (book : Book) (request : LimitOrderRequest) :
    Decidable (book.Rejects request) :=
  inferInstanceAs (Decidable (_ ∨ _ ∨ _))

/-- Submit a limit order of any time in force. -/
def submitLimit (book : Book) (request : LimitOrderRequest) : SubmissionResult × Book :=
  if book.Rejects request then
    ({ quantityRequested := request.quantity, status := .rejected }, book)
  else
    match request.tif with
    | .gtc => book.submitResting request .gtc
    | .day => book.submitResting request .day
    | .ioc => book.submitImmediate request
    | .fok => book.submitAllOrNothing request

/-- Remove an order, and report its quantity. -/
def cancel (book : Book) (request : CancelOrderRequest) : CancelResult × Book :=
  match book.locate request.id with
  | none => ({ status := .notFound }, book)
  | some (_, order) => (⟨order.quantity, .canceled⟩, book.remove request.id)

/-- The time in force under which an order of a lifetime is resubmitted. -/
def resubmissionTif : RestingLifetime → TimeInForce
  | .gtc => .gtc
  | .day => .day

/-- Remove an order and submit it again with its side and lifetime. -/
def modify (book : Book) (request : ModifyOrderRequest) : ModificationResult × Book :=
  if request.newPrice > book.maxPrice ∨ request.newPrice < book.minPrice then
    ({ status := .rejected, resubmissionResult := none }, book)
  else
    match book.locate request.id with
    | none => ({ status := .notFound, resubmissionResult := none }, book)
    | some (side, order) =>
        if request.newQuantity > 0 then
          let resubmission := (book.remove request.id).submitLimit
            ⟨request.id, request.newPrice, request.newQuantity, side,
              resubmissionTif order.lifetime⟩
          (⟨order.quantity, .resubmitted, some resubmission.1⟩, resubmission.2)
        else (⟨order.quantity, .canceled, none⟩, book.remove request.id)

/-- Remove the DAY orders. -/
def prune (book : Book) : Book :=
  { book with
    bids := book.bids.filter fun order => order.lifetime ≠ .day
    asks := book.asks.filter fun order => order.lifetime ≠ .day }

theorem orders_prune (book : Book) (side : Side) :
    book.prune.orders side =
      (book.orders side).filter fun order => order.lifetime ≠ .day := by
  cases side <;> rfl

/-- The DAY orders of a queue. -/
def dayOrders (queue : List Order) : List Order :=
  queue.filter fun order => order.lifetime = .day

/-- What the queue of one level adds to the session-end report, in the integer
types in which the engine counts. -/
def addPruned (result : DayOrderPruneResult) (queue : List Order) : DayOrderPruneResult :=
  if queue = [] then result
  else
    { ordersPruned := toUInt64 (result.ordersPruned + (dayOrders queue).length)
      sharesErased := toUInt64
        (result.sharesErased + toInt32 ((dayOrders queue).map Order.quantity).sum)
      priceLevelsErased :=
        if dayOrders queue = queue then toUInt32 (result.priceLevelsErased + 1)
        else result.priceLevelsErased }

/-- The queues of a side, one for every price of the range, from the lowest. -/
def levelQueues (book : Book) (side : Side) : List (List Order) :=
  (List.range (book.maxPrice - book.minPrice + 1).toNat).map fun (i : Nat) =>
    book.queue side (book.minPrice + i)

/-- Remove the DAY orders of both sides, and report them level by level. -/
def sessionEnd (book : Book) : DayOrderPruneResult × Book :=
  ((book.levelQueues .buy ++ book.levelQueues .sell).foldl addPruned {}, book.prune)

/-- Queue a GTC order without trading. -/
def replayAdd
    (book : Book) (id : OrderID) (price : Price) (quantity : Quantity) (side : Side) :
    Bool × Book :=
  if quantity = 0 ∨ book.Contains id ∨ price < book.minPrice ∨ price > book.maxPrice then
    (false, book)
  else (true, book.rest side ⟨id, price, quantity, .gtc⟩)

/-- Remove an order. -/
def replayDelete (book : Book) (id : OrderID) : Bool × Book :=
  match book.locate id with
  | none => (false, book)
  | some _ => (true, book.remove id)

/-- Reduce an order, or remove it when nothing is left. -/
def replayReduce (book : Book) (id : OrderID) (quantityReduced : Quantity) :
    Bool × Book :=
  if quantityReduced = 0 then (false, book)
  else
    match book.locate id with
    | none => (false, book)
    | some (_, order) =>
        if quantityReduced > order.quantity then (false, book)
        else if quantityReduced = order.quantity then (true, book.remove id)
        else (true, book.reduce id quantityReduced)

/-- Remove an order and queue another one on its side. -/
def replayReplace
    (book : Book) (originalId newId : OrderID) (newPrice : Price)
    (newQuantity : Quantity) : Bool × Book :=
  if newQuantity = 0 ∨ newPrice < book.minPrice ∨ newPrice > book.maxPrice ∨
      book.Contains newId then
    (false, book)
  else
    match book.locate originalId with
    | none => (false, book)
    | some (side, _) =>
        (book.remove originalId).replayAdd newId newPrice newQuantity side

/-- The reference operation of a call. -/
def execute (book : Book) : Operation → Output × Book
  | .submitLimitOrder limitRequest =>
      (book.submitLimit limitRequest).map .submission id
  | .submitMarketOrder marketRequest =>
      (book.submitMarket marketRequest).map .submission id
  | .cancelOrder cancelRequest => (book.cancel cancelRequest).map .cancellation id
  | .modifyOrder modificationRequest =>
      (book.modify modificationRequest).map .modification id
  | .onSessionEnd => book.sessionEnd.map .sessionEnd id
  | .replayAddVisibleOrder orderId price quantity side =>
      (book.replayAdd orderId price quantity side).map .replay id
  | .replayDeleteVisibleOrder orderId => (book.replayDelete orderId).map .replay id
  | .replayReduceVisibleOrder orderId quantityReduced =>
      (book.replayReduce orderId quantityReduced).map .replay id
  | .replayReplaceVisibleOrder originalId newId newPrice newQuantity =>
      (book.replayReplace originalId newId newPrice newQuantity).map .replay id

/-! ## Distinct ids -/

/-- No two resting orders have one id. -/
def Distinct (book : Book) : Prop :=
  ((book.bids ++ book.asks).map Order.id).Nodup

theorem mem_sides {book : Book} {order : Order} :
    order ∈ book.bids ++ book.asks ↔ ∃ side, order ∈ book.orders side := by
  rw [List.mem_append]
  constructor
  · rintro (inBids | inAsks)
    · exact ⟨.buy, inBids⟩
    · exact ⟨.sell, inAsks⟩
  · rintro ⟨side | side, member⟩
    · exact Or.inl member
    · exact Or.inr member

theorem contains_of_mem
    {book : Book} {side : Side} {order : Order}
    (member : order ∈ book.orders side) :
    book.Contains order.id :=
  contains_iff.mpr ⟨side, order, member, rfl⟩

namespace Distinct

variable {book : Book}

/-- An id determines its order and the side it rests on. -/
theorem eq_of_id_eq
    (distinct : book.Distinct)
    {left right : Order} {leftSide rightSide : Side}
    (leftMember : left ∈ book.orders leftSide)
    (rightMember : right ∈ book.orders rightSide)
    (equal : left.id = right.id) :
    leftSide = rightSide ∧ left = right := by
  unfold Distinct at distinct
  have sameOrder : left = right :=
    List.inj_on_of_nodup_map distinct (mem_sides.mpr ⟨_, leftMember⟩)
      (mem_sides.mpr ⟨_, rightMember⟩) equal
  rw [List.map_append] at distinct
  have apart := (List.nodup_append.mp distinct).2.2
  refine ⟨?_, sameOrder⟩
  cases leftSide <;> cases rightSide
  · rfl
  · exact absurd equal (apart _ (List.mem_map_of_mem leftMember) _
      (List.mem_map_of_mem rightMember))
  · exact absurd equal.symm (apart _ (List.mem_map_of_mem rightMember) _
      (List.mem_map_of_mem leftMember))
  · rfl

/-- Orders of different prices have different ids. -/
theorem id_ne_of_price_ne
    (distinct : book.Distinct)
    {side : Side} {left right : Order}
    (leftMember : left ∈ book.orders side)
    (rightMember : right ∈ book.orders side)
    (different : left.price ≠ right.price) :
    left.id ≠ right.id := fun equal =>
  different (congrArg Order.price (distinct.eq_of_id_eq leftMember rightMember equal).2)

/-- The ids of one side are distinct. -/
theorem side (distinct : book.Distinct) (side : Side) :
    ((book.orders side).map Order.id).Nodup := by
  unfold Distinct at distinct
  rw [List.map_append] at distinct
  cases side with
  | buy => exact (List.nodup_append.mp distinct).1
  | sell => exact (List.nodup_append.mp distinct).2.1

/-- Within a list of distinct ids, filtering one id away removes one order. -/
theorem filter_ne_middle
    {front rest : List Order} {order : Order}
    (distinct : ((front ++ order :: rest).map Order.id).Nodup) :
    (front ++ order :: rest).filter (fun other => other.id ≠ order.id) =
      front ++ rest := by
  rw [List.map_append, List.map_cons, List.nodup_middle, List.nodup_cons,
    ← List.map_append] at distinct
  have others : ∀ other ∈ front ++ rest, other.id ≠ order.id := fun other member equal =>
    distinct.1 (equal ▸ List.mem_map_of_mem member)
  rw [List.filter_append, List.filter_cons_of_neg (by simp), ← List.filter_append]
  exact List.filter_eq_self.mpr fun other member => by simpa using others other member

theorem map_reduce_of_ne
    {orders : List Order} {id : OrderID}
    (different : ∀ order ∈ orders, order.id ≠ id)
    (amount : Quantity) :
    (orders.map fun order => if order.id = id then order.reduce amount else order) = orders :=
  (List.map_congr_left fun order member => if_neg (different order member)).trans
    (List.map_id' orders)

/-- Within a list of distinct ids, reducing one id reduces one order. -/
theorem map_reduce_middle
    {front rest : List Order} {order : Order}
    (distinct : ((front ++ order :: rest).map Order.id).Nodup)
    (amount : Quantity) :
    ((front ++ order :: rest).map fun other =>
      if other.id = order.id then other.reduce amount else other) =
      front ++ order.reduce amount :: rest := by
  rw [List.map_append, List.map_cons, List.nodup_middle, List.nodup_cons,
    ← List.map_append] at distinct
  have others : ∀ other ∈ front ++ rest, other.id ≠ order.id := fun other member equal =>
    distinct.1 (equal ▸ List.mem_map_of_mem member)
  rw [List.map_append, List.map_cons, if_pos rfl,
    map_reduce_of_ne fun other member => others other (List.mem_append_left _ member),
    map_reduce_of_ne fun other member => others other (List.mem_append_right _ member)]

/-- Reducing an order leaves the other side alone. -/
theorem orders_reduce_of_ne
    (distinct : book.Distinct)
    {side other : Side} {order : Order}
    (member : order ∈ book.orders side)
    (different : other ≠ side)
    (amount : Quantity) :
    (book.reduce order.id amount).orders other = book.orders other := by
  rw [orders_reduce]
  exact map_reduce_of_ne
    (fun found inOther equal => different (distinct.eq_of_id_eq inOther member equal).1) amount

/-- Removing an order leaves the other side alone. -/
theorem orders_remove_of_ne
    (distinct : book.Distinct)
    {side other : Side} {order : Order}
    (member : order ∈ book.orders side)
    (different : other ≠ side) :
    (book.remove order.id).orders other = book.orders other := by
  rw [orders_remove]
  refine List.filter_eq_self.mpr fun found inOther => ?_
  simp only [ne_eq, decide_not, Bool.not_eq_eq_eq_not, Bool.not_true, decide_eq_false_iff_not]
  exact fun equal => different (distinct.eq_of_id_eq inOther member equal).1

/-- Removing an order, seen from its own side. -/
theorem remove_eq_setOrders
    (distinct : book.Distinct)
    {side : Side} {order : Order}
    (member : order ∈ book.orders side) :
    book.remove order.id =
      book.setOrders side ((book.orders side).filter fun other => other.id ≠ order.id) := by
  refine ext_orders (by simp [remove]) (by simp [remove]) fun other => ?_
  rw [orders_setOrders]
  by_cases same : other = side
  · subst same
    rw [if_pos rfl, orders_remove]
  · rw [if_neg same, distinct.orders_remove_of_ne member same]

section Head

variable {side : Side} {head : Order} {tail : List Order}

theorem filter_ne_head
    (distinct : book.Distinct)
    (orders : book.orders side = head :: tail) :
    (book.orders side).filter (fun other => other.id ≠ head.id) = tail := by
  have ofSide : (([] ++ head :: tail).map Order.id).Nodup := orders ▸ distinct.side side
  rw [orders]
  exact filter_ne_middle ofSide

/-- Removing the first order of a side. -/
theorem remove_head
    (distinct : book.Distinct)
    (orders : book.orders side = head :: tail) :
    book.remove head.id = book.setOrders side tail := by
  rw [distinct.remove_eq_setOrders (orders ▸ List.mem_cons_self), distinct.filter_ne_head orders]

/-- Reducing the first order of a side. -/
theorem reduce_head
    (distinct : book.Distinct)
    (orders : book.orders side = head :: tail)
    (amount : Quantity) :
    book.reduce head.id amount = book.setOrders side (head.reduce amount :: tail) := by
  refine ext_orders (by simp [reduce]) (by simp [reduce]) fun other => ?_
  rw [orders_setOrders]
  by_cases same : other = side
  · subst same
    have ofSide : (([] ++ head :: tail).map Order.id).Nodup := orders ▸ distinct.side other
    rw [if_pos rfl, orders_reduce, orders]
    exact map_reduce_middle ofSide amount
  · rw [if_neg same]
    exact distinct.orders_reduce_of_ne (orders ▸ List.mem_cons_self) same amount

end Head

/-- The resting orders are the removed one and the others. -/
theorem perm_remove
    (distinct : book.Distinct)
    {side : Side} {order : Order}
    (member : order ∈ book.orders side) :
    (book.bids ++ book.asks).Perm
      (order :: ((book.remove order.id).bids ++ (book.remove order.id).asks)) := by
  obtain ⟨front, rest, split⟩ := List.append_of_mem (mem_sides.mpr ⟨side, member⟩)
  have removed : (book.remove order.id).bids ++ (book.remove order.id).asks =
      front ++ rest := by
    simp only [remove, ← List.filter_append]
    unfold Distinct at distinct
    rw [split] at distinct ⊢
    exact filter_ne_middle distinct
  rw [removed, split]
  exact List.perm_middle

theorem remove (distinct : book.Distinct) (id : OrderID) : (book.remove id).Distinct := by
  unfold Distinct Book.remove at *
  simp only [← List.filter_append]
  exact distinct.sublist (List.Sublist.map _ List.filter_sublist)

/-- An order that rests is found under its id. -/
theorem locate_of_mem
    (distinct : book.Distinct)
    {side : Side} {order : Order}
    (member : order ∈ book.orders side) :
    book.locate order.id = some (side, order) := by
  cases located : book.locate order.id with
  | none => exact absurd (contains_of_mem member) (locate_eq_none.mp located)
  | some found =>
      obtain ⟨foundSide, foundOrder⟩ := found
      obtain ⟨foundMember, equal⟩ := locate_eq_some located
      obtain ⟨rfl, rfl⟩ := distinct.eq_of_id_eq foundMember member equal
      rfl

end Distinct

theorem contains_remove {book : Book} {id other : OrderID} :
    (book.remove id).Contains other ↔ book.Contains other ∧ other ≠ id := by
  simp only [contains_iff, orders_remove, List.mem_filter, ne_eq, decide_not,
    Bool.not_eq_eq_eq_not, Bool.not_true, decide_eq_false_iff_not]
  constructor
  · rintro ⟨side, order, ⟨member, different⟩, rfl⟩
    exact ⟨⟨side, order, member, rfl⟩, different⟩
  · rintro ⟨⟨side, order, member, rfl⟩, different⟩
    exact ⟨side, order, ⟨member, different⟩, rfl⟩

theorem contains_reduce {book : Book} {id other : OrderID} {amount : Quantity} :
    (book.reduce id amount).Contains other ↔ book.Contains other := by
  have idKept : ∀ order : Order,
      (if order.id = id then order.reduce amount else order).id = order.id := by
    intro order
    split <;> rfl
  simp only [contains_iff, orders_reduce, List.mem_map]
  constructor
  · rintro ⟨side, _, ⟨order, member, rfl⟩, equal⟩
    exact ⟨side, order, member, (idKept order).symm.trans equal⟩
  · rintro ⟨side, order, member, equal⟩
    exact ⟨side, _, ⟨order, member, rfl⟩, (idKept order).trans equal⟩

/-- The resting orders after a new one has been queued. -/
theorem perm_rest (book : Book) (side : Side) (order : Order) :
    ((book.rest side order).bids ++ (book.rest side order).asks).Perm
      (order :: (book.bids ++ book.asks)) := by
  cases side with
  | buy => exact (KeyedList.enqueue_perm order book.bids).append_right book.asks
  | sell =>
      exact ((KeyedList.enqueue_perm order book.asks).append_left book.bids).trans
        List.perm_middle

theorem contains_rest {book : Book} {side : Side} {order : Order} {other : OrderID} :
    (book.rest side order).Contains other ↔ book.Contains other ∨ order.id = other := by
  simp only [contains_iff, Book.rest, orders_setOrders]
  constructor
  · rintro ⟨found, element, member, equal⟩
    by_cases same : found = side
    · rw [if_pos same] at member
      rcases KeyedList.mem_enqueue.mp member with rfl | inOrders
      · exact Or.inr equal
      · exact Or.inl ⟨side, element, inOrders, equal⟩
    · rw [if_neg same] at member
      exact Or.inl ⟨found, element, member, equal⟩
  · rintro (⟨found, element, member, equal⟩ | equal)
    · refine ⟨found, element, ?_, equal⟩
      by_cases same : found = side
      · subst same
        rw [if_pos rfl]
        exact KeyedList.mem_enqueue.mpr (Or.inr member)
      · rwa [if_neg same]
    · exact ⟨side, order, by simp, equal⟩

end Book

end Reference
end MatchingEngine
