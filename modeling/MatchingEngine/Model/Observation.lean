import MatchingEngine.Library.LinkedChain
import MatchingEngine.Library.Run
import MatchingEngine.Model.OrderBook

/-!
# Lists of levels, and runs

What can be observed of a book from outside: the orders on the list of each
level, found by following the links from its head, and the runs of the public
operations from a new book.
-/

namespace MatchingEngine

/-- The `next_` member behind a pointer. -/
def nextLink (heap : Heap) (address : BlockAddress) : Option (Option BlockAddress) :=
  match heap address with
  | .order order => some order.next
  | _ => none

/-- The `prev_` member behind a pointer. -/
def prevLink (heap : Heap) (address : BlockAddress) : Option (Option BlockAddress) :=
  match heap address with
  | .order order => some order.prev
  | _ => none

namespace OrderBook

/-- The blocks on the list of a level, from its head on.  A list has at most as
many blocks as the pool has live ones. -/
def levelBlocks (book : OrderBook) (side : Side) (index : Nat) : List BlockAddress :=
  match (book.ladder side).levels[index]? with
  | some level =>
      LinkedChain.collect (nextLink book.heap) book.memoryPool.currentlyAllocated level.head
  | none => []

/-- The order that lives in a block. -/
def orderAt (book : OrderBook) (address : BlockAddress) : Option RestingOrder :=
  match book.heap address with
  | .order order => some order
  | _ => none

/-- The orders on the list of a level. -/
def levelOrders (book : OrderBook) (side : Side) (index : Nat) : List RestingOrder :=
  (book.levelBlocks side index).filterMap book.orderAt

/-- The quantity of the order that the id map leads to. -/
def quantityOf (book : OrderBook) (id : OrderID) : Option Quantity :=
  (book.idToOrderMap.lookup id).bind fun address =>
    (book.orderAt address).map RestingOrder.quantity

/-- Fewer than `2 ^ 32` orders are on every level. -/
def WithinCapacity (book : OrderBook) : Prop :=
  ∀ side index, (book.levelBlocks side index).length < 4294967296

/-- A new book. -/
def Starts (book : OrderBook) : Prop :=
  ∃ config, create config = .ok book

/-- One call that returns, and leaves no level with more orders than its counter
can count. -/
def Steps
    (allowed : OrderBook → Operation → Prop)
    (book : OrderBook) (operation : Operation) (output : Output) (next : OrderBook) : Prop :=
  allowed book operation ∧ book.execute operation = .ok (output, next) ∧
    next.WithinCapacity

/-- Runs of the calls that are allowed, from a new book. -/
abbrev BookRun (allowed : OrderBook → Operation → Prop) :
    List (Event OrderBook Operation Output) → OrderBook → Prop :=
  Run Starts (Steps allowed)

/-- One call that returns, whatever it leaves on the levels. -/
def Returns
    (allowed : OrderBook → Operation → Prop)
    (book : OrderBook) (operation : Operation) (output : Output) (next : OrderBook) : Prop :=
  allowed book operation ∧ book.execute operation = .ok (output, next)

/-- Runs of the calls that are allowed, however many orders they leave on a level. -/
abbrev UnboundedRun (allowed : OrderBook → Operation → Prop) :
    List (Event OrderBook Operation Output) → OrderBook → Prop :=
  Run Starts (Returns allowed)

theorem BookRun.unbounded
    {allowed : OrderBook → Operation → Prop}
    {events : List (Event OrderBook Operation Output)} {book : OrderBook}
    (run : BookRun allowed events book) :
    UnboundedRun allowed events book :=
  run.mono fun _ _ _ _ taken => ⟨taken.1, taken.2.1⟩

/-- Every public operation, with quantities of at least one share. -/
def PublicCalls (_ : OrderBook) (operation : Operation) : Prop :=
  operation.PositiveQuantities

/-- Every public operation, with any quantities but for the replay operations, whose
quantities are of at least one share. -/
def StorableCalls (_ : OrderBook) (operation : Operation) : Prop :=
  operation.RepresentableQuantities ∧ (operation.IsMatching ∨ operation.PositiveQuantities)

/-- Every public operation but the replay operations, with quantities of at least
one share. -/
def MatchingCalls (_ : OrderBook) (operation : Operation) : Prop :=
  operation.IsMatching ∧ operation.PositiveQuantities

instance : DecidablePred Operation.PositiveQuantities := fun operation =>
  match operation with
  | .submitLimitOrder _ | .submitMarketOrder _ | .modifyOrder _
  | .replayAddVisibleOrder .. | .replayReduceVisibleOrder ..
  | .replayReplaceVisibleOrder .. => inferInstanceAs (Decidable (_ ∧ _))
  | .cancelOrder _ | .onSessionEnd | .replayDeleteVisibleOrder _ => .isTrue trivial

instance : DecidablePred Operation.RepresentableQuantities := fun operation =>
  match operation with
  | .submitLimitOrder _ | .submitMarketOrder _ | .modifyOrder _
  | .replayAddVisibleOrder .. | .replayReduceVisibleOrder ..
  | .replayReplaceVisibleOrder .. => inferInstanceAs (Decidable (InInt32 _))
  | .cancelOrder _ | .onSessionEnd | .replayDeleteVisibleOrder _ => .isTrue trivial

instance : DecidablePred Operation.IsMatching := fun operation =>
  match operation with
  | .submitLimitOrder _ | .submitMarketOrder _ | .modifyOrder _ | .cancelOrder _
  | .onSessionEnd => .isTrue trivial
  | .replayAddVisibleOrder .. | .replayDeleteVisibleOrder _ | .replayReduceVisibleOrder ..
  | .replayReplaceVisibleOrder .. => .isFalse id

/-! ## Performing a list of calls -/

/-- Call one method after another and record the events. -/
def perform (book : OrderBook) :
    List Operation → Except Fault (List (Event OrderBook Operation Output) × OrderBook)
  | [] => .ok ([], book)
  | operation :: operations => do
      let (output, next) ← book.execute operation
      let (events, last) ← next.perform operations
      .ok (⟨book, operation, output, next⟩ :: events, last)

theorem perform_cons
    {book last : OrderBook} {operation : Operation} {operations : List Operation}
    {events : List (Event OrderBook Operation Output)}
    (performed : book.perform (operation :: operations) = .ok (events, last)) :
    ∃ output next laterEvents,
      book.execute operation = .ok (output, next) ∧
      next.perform operations = .ok (laterEvents, last) ∧
      events = ⟨book, operation, output, next⟩ :: laterEvents := by
  obtain ⟨⟨output, next⟩, executed, performed⟩ := bind_eq_ok performed
  obtain ⟨⟨laterEvents, last'⟩, later, performed⟩ := bind_eq_ok performed
  obtain ⟨rfl, rfl⟩ := Prod.mk.inj (Except.ok.inj performed)
  exact ⟨output, next, laterEvents, executed, later, rfl⟩

/-- A level has no more orders than the pool has live blocks. -/
theorem withinCapacity_of_few
    {book : OrderBook}
    (few : book.memoryPool.currentlyAllocated < 4294967296) :
    book.WithinCapacity := by
  intro side index
  refine lt_of_le_of_lt ?_ few
  unfold levelBlocks
  split
  · exact LinkedChain.length_collect_le _ _ _
  · exact Nat.zero_le _

/-- Performing allowed calls extends a run. -/
theorem run_of_perform
    {allowed : OrderBook → Operation → Prop}
    {book last : OrderBook} {operations : List Operation}
    {earlier events : List (Event OrderBook Operation Output)}
    (run : BookRun allowed earlier book)
    (performed : book.perform operations = .ok (events, last))
    (isAllowed : ∀ event ∈ events, allowed event.before event.input)
    (few : ∀ event ∈ events, event.after.memoryPool.currentlyAllocated < 4294967296) :
    BookRun allowed (earlier ++ events) last := by
  induction operations generalizing book earlier events with
  | nil =>
      obtain ⟨rfl, rfl⟩ := Prod.mk.inj (Except.ok.inj performed)
      rwa [List.append_nil]
  | cons operation operations inductionHypothesis =>
      obtain ⟨output, next, laterEvents, executed, later, rfl⟩ := perform_cons performed
      obtain ⟨headAllowed, tailAllowed⟩ := List.forall_mem_cons.mp isAllowed
      obtain ⟨headFew, tailFew⟩ := List.forall_mem_cons.mp few
      have extended := inductionHypothesis
        (run.step ⟨headAllowed, executed, withinCapacity_of_few headFew⟩) later tailAllowed
        tailFew
      rwa [List.append_assoc] at extended

/-- A new book and the calls made on it. -/
def session (config : OrderBookConfig) (operations : List Operation) :
    Except Fault (List (Event OrderBook Operation Output) × OrderBook) := do
  let book ← create config
  book.perform operations

theorem run_of_session
    {allowed : OrderBook → Operation → Prop}
    (config : OrderBookConfig) (operations : List Operation) {last : OrderBook}
    {events : List (Event OrderBook Operation Output)}
    (returned : session config operations = .ok (events, last))
    (isAllowed : ∀ event ∈ events, allowed event.before event.input)
    (few : ∀ event ∈ events, event.after.memoryPool.currentlyAllocated < 4294967296) :
    BookRun allowed events last := by
  obtain ⟨book, created, returned⟩ := bind_eq_ok returned
  have started : BookRun allowed [] book := .start ⟨config, created⟩
  exact run_of_perform started returned isAllowed few

instance (book : OrderBook) : DecidablePred (PublicCalls book) := fun operation =>
  inferInstanceAs (Decidable operation.PositiveQuantities)

instance (book : OrderBook) : DecidablePred (MatchingCalls book) := fun operation =>
  inferInstanceAs (Decidable (operation.IsMatching ∧ operation.PositiveQuantities))

instance (book : OrderBook) : DecidablePred (StorableCalls book) := fun operation =>
  inferInstanceAs (Decidable (operation.RepresentableQuantities ∧
    (operation.IsMatching ∨ operation.PositiveQuantities)))

/-! ## A short session

Two asks of one price, a better ask that a taker uses up on its way to them, a
modification, a cancellation and a new bid. -/

/-- Prices from -1 to 4, and two blocks to start with. -/
def sampleConfig : OrderBookConfig where
  initialPoolSize := 2
  minPrice := -1
  maxPrice := 4
  initialPoolSizeRange := by decide
  minPriceRange := by decide
  maxPriceRange := by decide
  ordered := by decide

/-- A configuration for prices from 0 to 4. -/
def fivePrices (initialPoolSize : Nat) (initialPoolSizeRange : InUInt64 initialPoolSize) :
    OrderBookConfig where
  initialPoolSize
  minPrice := 0
  maxPrice := 4
  initialPoolSizeRange
  minPriceRange := by decide
  maxPriceRange := sampleConfig.maxPriceRange
  ordered := by decide

/-- The calls of the session. -/
def sampleCalls : List Operation :=
  [.submitLimitOrder ⟨1, 3, 5, .sell, .gtc⟩,
    .submitLimitOrder ⟨2, 3, 4, .sell, .day⟩,
    .submitLimitOrder ⟨3, 2, 2, .sell, .gtc⟩,
    .submitLimitOrder ⟨4, 0, 7, .buy, .day⟩,
    .submitLimitOrder ⟨5, 3, 4, .buy, .ioc⟩,
    .modifyOrder ⟨2, 6, 4⟩,
    .cancelOrder ⟨4⟩,
    .submitLimitOrder ⟨6, 1, 3, .buy, .day⟩]

/-- The events of the session, and the book at its end. -/
def sampleSession : List (Event OrderBook Operation Output) × OrderBook :=
  (session sampleConfig sampleCalls).toOption.get (by decide +kernel)

/-- One event of the session. -/
def sampleEvent (index : Fin 8) : Event OrderBook Operation Output :=
  sampleSession.1.get (index.cast (by decide +kernel))

theorem sampleSession_drop (index : Fin 8) :
    sampleSession.1.drop index = sampleEvent index :: sampleSession.1.drop (index + 1) := by
  rw [List.drop_eq_getElem_cons]
  rfl

theorem sampleSession_split (index : Fin 8) :
    sampleSession.1 = sampleSession.1.take index ++
      sampleEvent index :: sampleSession.1.drop (index + 1) := by
  rw [← sampleSession_drop, List.take_append_drop]

theorem sampleRun : BookRun MatchingCalls sampleSession.1 sampleSession.2 :=
  run_of_session sampleConfig sampleCalls rfl
    (by decide +kernel) (by decide +kernel)

theorem sampleRun_public : BookRun PublicCalls sampleSession.1 sampleSession.2 :=
  sampleRun.mono fun _ _ _ _ taken => ⟨taken.1.2, taken.2⟩

end OrderBook

end MatchingEngine
