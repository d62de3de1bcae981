import MatchingEngine.Reference.Uncrossed
import MatchingEngine.Refinement.Amendment
import MatchingEngine.Refinement.SessionEnd
import MatchingEngine.Refinement.View

/-!
# Runs refine runs of the reference book

A new book stands for an empty reference book, and every call takes a book and
the reference book it stands for to a book and the reference book it stands
for, with one answer.  Hence every run of the source is, event by event, a run
of the reference book.
-/

namespace MatchingEngine
namespace Refinement

open Reference (Order priority orderPriority)
open OrderBook (Registry BookRun Steps Starts)

/-! ## New books -/

theorem ladder_of_create
    {minPrice maxPrice : Price} {side : Side} {ladder : PriceLadder}
    (minRange : InInt64 minPrice)
    (maxRange : InInt64 maxPrice)
    (created : PriceLadder.create minPrice maxPrice side = .ok ladder)
    (heap : Heap) (addr : OrderID → BlockAddress) :
    LadderHolds heap addr ladder side [] ∧ ladder.bestPrice = none ∧
      ladder.minPrice = minPrice ∧ ladder.maxPrice = maxPrice := by
  unfold PriceLadder.create at created
  split at created
  · simp at created
  next ordered =>
  split at created
  · simp at created
  next differenceRange =>
  split at created
  · simp at created
  next countRange =>
  simp only at created
  split at created
  · simp at created
  next few =>
  obtain rfl := Except.ok.inj created
  have ordered := not_not.mp ordered
  have countRange := not_not.mp countRange
  have count : ((toUInt64 (maxPrice - minPrice + 1) : Nat) : Int) =
      maxPrice - minPrice + 1 :=
    toUInt64_of_inUInt64 (by unfold InInt64 at countRange; unfold InUInt64; lia)
  have newLevel : ∀ (index : Nat) (level : PriceLevel),
      ((List.range (toUInt64 (maxPrice - minPrice + 1))).map fun (i : Nat) =>
        ({ price := toInt64 (minPrice + i) } : PriceLevel))[index]? = some level →
      level = { price := minPrice + index } := by
    intro index level found
    rw [List.getElem?_map] at found
    obtain ⟨position, atPosition, rfl⟩ := Option.map_eq_some_iff.mp found
    obtain ⟨inside, rfl⟩ := List.getElem?_eq_some_iff.mp atPosition
    rw [List.length_range] at inside
    rw [List.getElem_range, toInt64_of_inInt64]
    unfold InInt64 at minRange maxRange ⊢
    lia
  refine ⟨⟨⟨⟨ordered, minRange, maxRange, ?_, ?_⟩, rfl, KeyedList.ordered_nil, ?_, ?_⟩,
    ?_, ?_⟩, rfl, rfl, rfl⟩
  · simpa using few
  · simpa using count
  · simp
  · intro index level found
    obtain rfl := newLevel index level found
    exact ⟨rfl, (LevelHolds.nil _ _ _ _).toLevelLinks⟩
  · simp [Sound]
  · intro index level found wrapped
    obtain rfl := newLevel index level found
    cases wrapped

/-- A new book stands for the empty reference book of its range. -/
theorem refines_of_create
    {config : OrderBookConfig} {book : OrderBook}
    (created : OrderBook.create config = .ok book) :
    Refines book ⟨config.minPrice, config.maxPrice, [], []⟩ := by
  unfold OrderBook.create at created
  cases pooled : MemoryPool.create config.initialPoolSize fun _ => .raw with
  | error fault => simp [pooled] at created
  | ok poolAndHeap =>
    obtain ⟨pool, heap⟩ := poolAndHeap
    cases bids : PriceLadder.create config.minPrice config.maxPrice .buy with
    | error fault => simp [pooled, bids] at created
    | ok bidLevels =>
      cases asks : PriceLadder.create config.minPrice config.maxPrice .sell with
      | error fault => simp [pooled, bids, asks] at created
      | ok askLevels =>
        simp only [pooled, bids, asks, ok_bind] at created
        obtain rfl := Except.ok.inj created
        have range := config.initialPoolSizeRange
        unfold InUInt64 at range
        obtain ⟨free, poolHolds⟩ := PoolHolds.create (by omega) pooled
        obtain ⟨bidHolds, bidBest, bidMin, bidMax⟩ := ladder_of_create config.minPriceRange
          config.maxPriceRange bids heap fun _ => ⟨0, 0⟩
        obtain ⟨askHolds, askBest, askMin, askMax⟩ := ladder_of_create config.minPriceRange
          config.maxPriceRange asks heap fun _ => ⟨0, 0⟩
        refine ⟨⟨fun _ => ⟨0, 0⟩, free, ⟨⟨?_, ?_, ?_, poolHolds, ?_⟩, ?_, ?_⟩⟩, ?_,
          rfl, rfl⟩
        · rintro (side | side)
          · exact bidHolds.toLadderLinks
          · exact askHolds.toLadderLinks
        · rintro (side | side)
          · exact bidMin
          · exact askMin
        · rintro (side | side)
          · exact bidMax
          · exact askMax
        · intro id
          rw [if_neg (by simp [Reference.Book.Contains])]
          rfl
        · rintro (side | side)
          · exact bidHolds.sound
          · exact askHolds.sound
        · rintro (side | side)
          · exact bidHolds.unwrapped
          · exact askHolds.unwrapped
        · rintro (side | side)
          · exact bidBest
          · exact askBest

/-! ## Calls -/

variable {book : OrderBook} {spec : Reference.Book}

theorem Simulates.bind
    {α : Type} {result : Except Fault (α × OrderBook)} {expected : α × Reference.Book}
    (simulates : Simulates result expected)
    (wrap : α → Output) :
    Simulates (do
      let (answer, book) ← result
      .ok (wrap answer, book)) (expected.map wrap id) := by
  obtain ⟨book', rfl, refines'⟩ := simulates
  exact ⟨book', rfl, refines'⟩

theorem SimulatesUnlessExhausted.bind
    {α : Type} {result : Except Fault (α × OrderBook)} {expected : α × Reference.Book}
    (simulates : SimulatesUnlessExhausted book result expected)
    (wrap : α → Output) :
    SimulatesUnlessExhausted book (do
      let (answer, book) ← result
      .ok (wrap answer, book)) (expected.map wrap id) := by
  rcases simulates with ⟨noFree, rfl⟩ | simulates
  · exact Or.inl ⟨noFree, rfl⟩
  · exact Or.inr (simulates.bind wrap)

/-- Every call simulates its reference operation, unless the pool is exhausted. -/
theorem execute_simulates
    (refines : Refines book spec)
    (roomy : RoomyBook spec)
    {operation : Operation}
    (safe : spec.Safe operation) :
    SimulatesUnlessExhausted book (book.execute operation) (spec.execute operation) := by
  have carries := refines.carries
  cases operation with
  | submitLimitOrder limitRequest =>
      exact (submitLimitOrder refines roomy safe).bind .submission
  | submitMarketOrder marketRequest =>
      exact Or.inr ((submitMarketOrder refines roomy safe).bind .submission)
  | cancelOrder cancelRequest =>
      have follows := carries.cancelOrder cancelRequest
      exact Or.inr ((follows.simulates trivial refines roomy).bind .cancellation)
  | modifyOrder modificationRequest =>
      exact Or.inr ((modifyOrder refines roomy safe).bind .modification)
  | onSessionEnd =>
      have simulates : Simulates book.onSessionEnd spec.sessionEnd :=
        onSessionEnd refines roomy
      exact Or.inr (simulates.bind .sessionEnd)
  | replayAddVisibleOrder id price quantity side =>
      rcases carries.replayAddVisibleOrder id price quantity side with exhausted | follows
      · exact SimulatesUnlessExhausted.bind (Or.inl exhausted) .replay
      · exact Or.inr ((follows.simulates safe refines roomy).bind .replay)
  | replayDeleteVisibleOrder id =>
      have follows := carries.replayDeleteVisibleOrder id
      exact Or.inr ((follows.simulates trivial refines roomy).bind .replay)
  | replayReduceVisibleOrder id quantityReduced =>
      have follows := carries.replayReduceVisibleOrder id (refines.reducesInRange id safe)
      exact Or.inr ((follows.simulates safe refines roomy).bind .replay)
  | replayReplaceVisibleOrder originalId newId newPrice newQuantity =>
      have follows :=
        carries.replayReplaceVisibleOrder originalId newId newPrice newQuantity
      exact Or.inr ((follows.simulates safe refines roomy).bind .replay)

/-- A call that returns gives the reference answer and a book for the reference
result. -/
theorem execute_refines
    (refines : Refines book spec)
    (roomy : RoomyBook spec)
    {operation : Operation}
    (safe : spec.Safe operation)
    {output : Output} {next : OrderBook}
    (executed : book.execute operation = .ok (output, next)) :
    spec.execute operation = (output, next.view) ∧ Refines next next.view := by
  rcases execute_simulates refines roomy safe with ⟨_, exhausted⟩ | ⟨book', returned, refines'⟩
  · simp [exhausted] at executed
  · obtain ⟨rfl, rfl⟩ := Prod.mk.inj (Except.ok.inj (returned.symm.trans executed))
    rw [refines'.view_eq]
    exact ⟨rfl, refines'⟩

/-! ## Runs -/

/-- What holds of every book in a run: it stands for its view, and has room on every
level. -/
structure Sane (book : OrderBook) : Prop where
  refines : Refines book book.view
  roomy : RoomyBook book.view

/-- What a limit order is answered is what the reference book answers. -/
theorem Sane.submitLimitOrder_result
    (sane : Sane book)
    {request : LimitOrderRequest} {result : SubmissionResult} {next : OrderBook}
    (positive : (Operation.submitLimitOrder request).PositiveQuantities)
    (submitted : book.submitLimitOrder request = .ok (result, next)) :
    (book.view.submitLimit request).1 = result := by
  have executed : book.execute (.submitLimitOrder request) =
      .ok (.submission result, next) := by
    rw [OrderBook.execute, submitted, ok_bind]
  obtain ⟨answer, _⟩ := execute_refines sane.refines sane.roomy
    (Reference.Book.Safe.of_positive positive book.view) executed
  exact Output.submission.inj (congrArg Prod.fst answer)

/-- What a market order is answered is what the reference book answers. -/
theorem Sane.submitMarketOrder_result
    (sane : Sane book)
    {request : MarketOrderRequest} {result : SubmissionResult} {next : OrderBook}
    (positive : (Operation.submitMarketOrder request).PositiveQuantities)
    (submitted : book.submitMarketOrder request = .ok (result, next)) :
    (book.view.submitMarket request).1 = result := by
  have executed : book.execute (.submitMarketOrder request) =
      .ok (.submission result, next) := by
    rw [OrderBook.execute, submitted, ok_bind]
  obtain ⟨answer, _⟩ := execute_refines sane.refines sane.roomy
    (Reference.Book.Safe.of_positive positive book.view) executed
  exact Output.submission.inj (congrArg Prod.fst answer)

/-- The calls that a run allows are handled as the reference handles them. -/
def SafeCalls (allowed : OrderBook → Operation → Prop) : Prop :=
  ∀ book operation, Refines book book.view → allowed book operation →
    book.view.Safe operation

theorem safeCalls_publicCalls : SafeCalls OrderBook.PublicCalls :=
  fun _ _ _ positive => Reference.Book.Safe.of_positive positive _

theorem safeCalls_matchingCalls : SafeCalls OrderBook.MatchingCalls :=
  fun _ _ _ allowed => Reference.Book.Safe.of_positive allowed.2 _

theorem Sane.of_starts (starts : book.Starts) :
    Sane book ∧ book.view.bids = [] ∧ book.view.asks = [] := by
  obtain ⟨config, created⟩ := starts
  have refines := refines_of_create created
  rw [← refines.view_eq] at refines
  have empty := (refines_of_create created).view_eq
  refine ⟨⟨refines, fun side price => ?_⟩, ?_, ?_⟩
  · rw [empty]
    cases side <;> exact (by decide : 0 < 4294967296)
  · rw [empty]
  · rw [empty]

section Runs

variable {allowed : OrderBook → Operation → Prop}
variable {operation : Operation} {output : Output} {next : OrderBook}
variable {events : List (Event OrderBook Operation Output)}

theorem Sane.of_steps
    (sane : Sane book)
    (safeCalls : SafeCalls allowed)
    (steps : Steps allowed book operation output next) :
    Sane next ∧ book.view.execute operation = (output, next.view) := by
  obtain ⟨isAllowed, executed, capacity⟩ := steps
  obtain ⟨answer, refines⟩ := execute_refines sane.refines sane.roomy
    (safeCalls book operation sane.refines isAllowed) executed
  exact ⟨⟨refines, refines.roomy capacity⟩, answer⟩

/-- Every book that a run reaches stands for its view. -/
theorem Sane.of_run
    (safeCalls : SafeCalls allowed)
    (run : BookRun allowed events book) :
    Sane book :=
  run.invariant Sane (fun _ starts => (Sane.of_starts starts).1)
    fun _ _ _ _ sane steps => (sane.of_steps safeCalls steps).1

/-- Runs of matching operations whose quantities make sense reach uncrossed books. -/
theorem uncrossed_of_run
    (safeCalls : SafeCalls allowed)
    (isMatching : ∀ book operation, allowed book operation → operation.IsMatching)
    (run : BookRun allowed events book) :
    Sane book ∧ book.view.Uncrossed := by
  refine run.invariant (fun book => Sane book ∧ book.view.Uncrossed)
    (fun book starts => ?_) fun book operation output next ⟨sane, uncrossed⟩ steps => ?_
  · obtain ⟨sane, noBids, _⟩ := Sane.of_starts starts
    refine ⟨sane, fun bid member => ?_⟩
    simp [Reference.Book.orders, noBids] at member
  · obtain ⟨saneAfter, answer⟩ := sane.of_steps safeCalls steps
    refine ⟨saneAfter, ?_⟩
    have after := uncrossed.execute sane.refines.valid (isMatching _ _ steps.1)
      (safeCalls book operation sane.refines steps.1)
    rwa [answer] at after

/-- Every event of a run is an operation of the reference book. -/
theorem Sane.forall_events
    (safeCalls : SafeCalls allowed)
    (run : BookRun allowed events book) :
    ∀ event ∈ events, Sane event.before ∧ Sane event.after ∧
      allowed event.before event.input ∧
      event.before.view.execute event.input = (event.output, event.after.view) := by
  intro event member
  obtain ⟨earlier, later, rfl⟩ := List.append_of_mem member
  obtain ⟨runBefore, steps⟩ := run.of_split
  have sane := Sane.of_run safeCalls runBefore
  obtain ⟨saneAfter, answer⟩ := sane.of_steps safeCalls steps
  exact ⟨sane, saneAfter, steps.1, answer⟩

/-- Runs of the reference book. -/
def ReferenceRun (allowed : Reference.Book → Operation → Prop) :
    List (Event Reference.Book Operation Output) → Reference.Book → Prop :=
  Run (fun spec => spec.bids = [] ∧ spec.asks = [])
    fun spec operation output next =>
      allowed spec operation ∧ spec.execute operation = (output, next)

/-- An event of a run, seen on the reference book. -/
def viewEvent (event : Event OrderBook Operation Output) :
    Event Reference.Book Operation Output :=
  ⟨event.before.view, event.input, event.output, event.after.view⟩

/-- Every run of the source is a run of the reference book. -/
theorem referenceRun_of_run
    {allowed' : Reference.Book → Operation → Prop}
    (safeCalls : SafeCalls allowed)
    (weaker : ∀ book operation, allowed book operation → allowed' book.view operation)
    (run : BookRun allowed events book) :
    ReferenceRun allowed' (events.map viewEvent) book.view :=
  run.simulate OrderBook.view (fun _ starts => Sane.of_starts starts)
    fun _ _ _ _ sane steps =>
      let ⟨saneAfter, answer⟩ := sane.of_steps safeCalls steps
      ⟨saneAfter, weaker _ _ steps.1, answer⟩

end Runs

end Refinement
end MatchingEngine
