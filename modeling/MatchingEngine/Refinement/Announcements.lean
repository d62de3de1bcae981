import MatchingEngine.Refinement.Replay
import MatchingEngine.Refinement.Reports

/-!
# The calls that a feed asks for

A feed asks the replay engine for calls of its book: those that its messages about
the followed stock stand for, whatever else is in between.  Conversely every replay
call whose values fit into the fields of a message has a message that asks for it.
-/

namespace MatchingEngine
namespace Refinement

open Reference (FeedChange Tally changeOf)
open Replay (ItchReplayEngine Message StockDirectoryMessage StockLocate Timestamp char)
open Replay.ItchReplayEngine (matchesSymbol sideOf)

/-! ## The calls that a feed asks for -/

/-- The call that a change asks for. -/
def requestOf : FeedChange → Operation
  | .add id side price shares => .replayAddVisibleOrder id price (toInt32 shares) side
  | .take id shares => .replayReduceVisibleOrder id (toInt32 shares)
  | .delete id => .replayDeleteVisibleOrder id
  | .replace originalId newId price shares =>
      .replayReplaceVisibleOrder originalId newId price (toInt32 shares)

/-- The calls that the messages about the stock with a symbol ask for, in order, when
`target` is the locate code of the stock so far. -/
def announced (symbol : List UInt8) : Option StockLocate → List Message → List Operation
  | _, [] => []
  | target, message :: messages =>
      match message with
      | .stockDirectory directory =>
          if matchesSymbol directory.stock symbol then
            announced symbol (some directory.stockLocate) messages
          else announced symbol target messages
      | message =>
          match changeOf message with
          | some (_, change) =>
              if target = some message.stockLocate then
                requestOf change :: announced symbol target messages
              else announced symbol target messages
          | none => announced symbol target messages

theorem execute_requestOf (change : FeedChange) (book : OrderBook) :
    book.execute (requestOf change) = (do
      let (applied, next) ← callOf change book
      .ok (.replay applied, next)) := by
  cases change <;> rfl

variable {engine : ItchReplayEngine} {message : Message}

/-- A message that asks nothing of the book of an engine. -/
structure Passes (engine : ItchReplayEngine) (message : Message) (next : ItchReplayEngine) :
    Prop where
  handled : engine.onMessage message = .ok next
  ob : next.ob = engine.ob
  symbol : next.symbol = engine.symbol
  failures : next.failedApplications = engine.failedApplications
  announced : ∀ messages,
    announced engine.symbol engine.targetStockLocate (message :: messages) =
      announced next.symbol next.targetStockLocate messages

/-- The engine after the answer of its book. -/
def answered (engine : ItchReplayEngine) (tally : Tally) (applied : Bool) (ob : OrderBook) :
    ItchReplayEngine :=
  if applied then countOf tally { engine with ob } else { engine with ob }.countFailure

@[simp] theorem answered_ob (tally : Tally) (applied : Bool) (ob : OrderBook) :
    (answered engine tally applied ob).ob = ob := by
  cases applied <;> cases tally <;> rfl

@[simp] theorem answered_symbol (tally : Tally) (applied : Bool) (ob : OrderBook) :
    (answered engine tally applied ob).symbol = engine.symbol := by
  cases applied <;> cases tally <;> rfl

@[simp] theorem answered_target (tally : Tally) (applied : Bool) (ob : OrderBook) :
    (answered engine tally applied ob).targetStockLocate = engine.targetStockLocate := by
  cases applied <;> cases tally <;> rfl

theorem answered_failures (tally : Tally) (ob : OrderBook) :
    (answered engine tally true ob).failedApplications = engine.failedApplications := by
  cases tally <;> rfl

/-- A message that asks for a call of the book. -/
structure Asks
    (engine : ItchReplayEngine) (message : Message) (tally : Tally) (change : FeedChange) :
    Prop where
  handled : engine.onMessage message = (do
    let (applied, ob) ← callOf change engine.ob
    .ok (answered engine tally applied ob))
  announced : ∀ messages,
    announced engine.symbol engine.targetStockLocate (message :: messages) =
      requestOf change :: announced engine.symbol engine.targetStockLocate messages

theorem announced_of_asks
    {tally : Tally} {change : FeedChange}
    (asks : changeOf message = some (tally, change))
    (symbol : List UInt8) (target : Option StockLocate) (messages : List Message) :
    announced symbol target (message :: messages) =
      if target = some message.stockLocate then
        requestOf change :: announced symbol target messages
      else announced symbol target messages := by
  cases message <;> cases asks <;> rfl

/-- Every message passes by the book or asks it for one call. -/
theorem passes_or_asks (engine : ItchReplayEngine) (message : Message) :
    (∃ next, Passes engine message next) ∨
      ∃ tally change, Asks engine message tally change := by
  cases asks : changeOf message with
  | some asked =>
      obtain ⟨tally, change⟩ := asked
      have handled := onMessage_eq asks engine
      have calls := announced_of_asks asks engine.symbol engine.targetStockLocate
      rw [ItchReplayEngine.applyToBook] at handled
      by_cases onTarget : engine.targetStockLocate = some message.stockLocate
      · have target : (!engine.isTargetStock message.stockLocate) = false := by
          simp [ItchReplayEngine.isTargetStock, onTarget]
        simp only [target, Bool.false_eq_true, if_false] at handled
        simp only [onTarget, if_true] at calls
        exact Or.inr ⟨tally, change, handled, onTarget ▸ calls⟩
      · have target : (!engine.isTargetStock message.stockLocate) = true := by
          rw [ItchReplayEngine.isTargetStock]
          split
          next targetStockLocate isTarget =>
            rw [isTarget, Option.some.injEq, eq_comm] at onTarget
            simpa using onTarget
          next => rfl
        simp only [target, if_true] at handled
        simp only [onTarget, if_false] at calls
        exact Or.inl ⟨engine, handled, rfl, rfl, rfl, calls⟩
  | none =>
      left
      cases message with
      | systemEvent event => exact ⟨engine, rfl, rfl, rfl, rfl, fun _ => rfl⟩
      | stockDirectory directory =>
          by_cases matching : matchesSymbol directory.stock engine.symbol = true
          · refine ⟨{ engine with targetStockLocate := some directory.stockLocate },
              if_pos matching, rfl, rfl, rfl, fun messages => ?_⟩
            simp only [announced, matching, if_true]
          · refine ⟨engine, if_neg matching, rfl, rfl, rfl, fun messages => ?_⟩
            simp only [announced, if_neg matching]
      | addOrder | addOrderWithMPID | orderExecuted | orderExecutedWithPrice | orderCancel
      | orderDelete | orderReplace => cases asks

/-- After a feed the book is where the announced calls lead, and when all of them are
accepted, nothing is counted as failed. -/
theorem onMessages_announced (engine : ItchReplayEngine) (messages : List Message) :
    (∃ fault, engine.ob.perform (announced engine.symbol engine.targetStockLocate messages) =
        .error fault ∧ engine.onMessages messages = .error fault) ∨
      ∃ events last,
        engine.ob.perform (announced engine.symbol engine.targetStockLocate messages) =
          .ok (events, last.ob) ∧ engine.onMessages messages = .ok last ∧
        ((∀ event ∈ events, event.output = .replay true) →
          last.failedApplications = engine.failedApplications) := by
  induction messages generalizing engine with
  | nil => exact Or.inr ⟨[], engine, rfl, rfl, fun _ => rfl⟩
  | cons message messages inductionHypothesis =>
      have first : engine.onMessages (message :: messages) =
          engine.onMessage message >>= fun next => next.onMessages messages :=
        List.foldlM_cons
      rcases passes_or_asks engine message with ⟨next, passes⟩ | ⟨tally, change, asks⟩
      · rw [first, passes.handled, ok_bind, passes.announced, ← passes.ob, ← passes.failures]
        exact inductionHypothesis next
      · rw [first, asks.handled, asks.announced, OrderBook.perform, execute_requestOf]
        cases called : callOf change engine.ob with
        | error fault => exact Or.inl ⟨fault, rfl, rfl⟩
        | ok answer =>
            obtain ⟨applied, ob⟩ := answer
            have later := inductionHypothesis (answered engine tally applied ob)
            rw [answered_ob, answered_symbol, answered_target] at later
            simp only [ok_bind]
            rcases later with
              ⟨fault, refused, failed⟩ | ⟨events, last, reached, returned, counts⟩
            · exact Or.inl ⟨fault, by rw [refused, error_bind], failed⟩
            · refine Or.inr ⟨_, last, by rw [reached, ok_bind], returned, fun accepted => ?_⟩
              obtain ⟨headAccepted, tailAccepted⟩ := List.forall_mem_cons.mp accepted
              obtain rfl := Output.replay.inj headAccepted
              rw [counts tailAccepted, answered_failures]

/-! ## Messages for calls -/

/-- A replay call whose values fit into the fields of a message. -/
def Announceable : Operation → Prop
  | .replayAddVisibleOrder id price quantity _ =>
      id < 2 ^ 64 ∧ (0 ≤ price ∧ price < 2 ^ 32) ∧ 1 ≤ quantity ∧ InInt32 quantity
  | .replayReduceVisibleOrder id quantityReduced =>
      id < 2 ^ 64 ∧ 1 ≤ quantityReduced ∧ InInt32 quantityReduced
  | .replayDeleteVisibleOrder id => id < 2 ^ 64
  | .replayReplaceVisibleOrder originalId newId newPrice newQuantity =>
      originalId < 2 ^ 64 ∧ newId < 2 ^ 64 ∧ (0 ≤ newPrice ∧ newPrice < 2 ^ 32) ∧
        1 ≤ newQuantity ∧ InInt32 newQuantity
  | _ => False

/-- The buy/sell indicator of a side. -/
def indicatorOf : Side → UInt8
  | .buy => char 'B'
  | .sell => char 'S'

/-- The message that asks for a replay call. -/
def announcementOf (directory : StockDirectoryMessage) (timestamp : Timestamp) :
    Operation → Message
  | .replayAddVisibleOrder id price quantity side =>
      .addOrder
        { stockLocate := directory.stockLocate, trackingNumber := 0, timestamp
          orderReferenceNumber := .ofNat id
          buySellIndicator := indicatorOf side
          shares := .ofNat quantity.toNat, stock := directory.stock
          price := .ofNat price.toNat }
  | .replayReduceVisibleOrder id quantityReduced =>
      .orderExecuted
        { stockLocate := directory.stockLocate, trackingNumber := 0, timestamp
          orderReferenceNumber := .ofNat id, executedShares := .ofNat quantityReduced.toNat
          matchNumber := 0 }
  | .replayDeleteVisibleOrder id =>
      .orderDelete
        { stockLocate := directory.stockLocate, trackingNumber := 0, timestamp
          orderReferenceNumber := .ofNat id }
  | .replayReplaceVisibleOrder originalId newId newPrice newQuantity =>
      .orderReplace
        { stockLocate := directory.stockLocate, trackingNumber := 0, timestamp
          originalOrderReferenceNumber := .ofNat originalId
          newOrderReferenceNumber := .ofNat newId, shares := .ofNat newQuantity.toNat
          price := .ofNat newPrice.toNat }
  | _ =>
      .systemEvent
        { stockLocate := directory.stockLocate, trackingNumber := 0, timestamp
          eventCode := char 'O' }

theorem sideOf_indicatorOf (side : Side) : sideOf (indicatorOf side) = side := by
  cases side <;> rfl

theorem toNat_ofNat_reference {id : OrderID} (fits : id < 2 ^ 64) :
    (UInt64.ofNat id).toNat = id :=
  UInt64.toNat_ofNat_of_lt' fits

theorem toNat_ofNat_price {price : Price} (fits : 0 ≤ price ∧ price < 2 ^ 32) :
    ((UInt32.ofNat price.toNat).toNat : Price) = price := by
  obtain ⟨lower, upper⟩ := fits
  rw [UInt32.toNat_ofNat_of_lt' (show price.toNat < 2 ^ 32 by lia)]
  exact Int.toNat_of_nonneg lower

theorem toInt32_ofNat_shares
    {quantity : Quantity}
    (positive : 1 ≤ quantity)
    (range : InInt32 quantity) :
    toInt32 (UInt32.ofNat quantity.toNat).toNat = quantity := by
  have upper := range.2
  rw [UInt32.toNat_ofNat_of_lt' (show quantity.toNat < 2 ^ 32 by lia),
    Int.toNat_of_nonneg (by lia), toInt32_of_inInt32 range]

/-- The message for a call asks for this call. -/
theorem changeOf_announcementOf
    {call : Operation}
    (announceable : Announceable call)
    (directory : StockDirectoryMessage) (timestamp : Timestamp) :
    ∃ tally change, changeOf (announcementOf directory timestamp call) = some (tally, change) ∧
      requestOf change = call := by
  cases call with
  | replayAddVisibleOrder id price quantity side =>
      obtain ⟨idFits, priceFits, positive, range⟩ := announceable
      refine ⟨_, _, rfl, ?_⟩
      rw [requestOf, toNat_ofNat_reference idFits, toNat_ofNat_price priceFits,
        toInt32_ofNat_shares positive range, sideOf_indicatorOf]
  | replayReduceVisibleOrder id quantityReduced =>
      obtain ⟨idFits, positive, range⟩ := announceable
      refine ⟨_, _, rfl, ?_⟩
      rw [requestOf, toNat_ofNat_reference idFits, toInt32_ofNat_shares positive range]
  | replayDeleteVisibleOrder id =>
      refine ⟨_, _, rfl, ?_⟩
      rw [requestOf, toNat_ofNat_reference announceable]
  | replayReplaceVisibleOrder originalId newId newPrice newQuantity =>
      obtain ⟨originalFits, newFits, priceFits, positive, range⟩ := announceable
      refine ⟨_, _, rfl, ?_⟩
      rw [requestOf, toNat_ofNat_reference originalFits, toNat_ofNat_reference newFits,
        toNat_ofNat_price priceFits, toInt32_ofNat_shares positive range]
  | submitLimitOrder | submitMarketOrder | cancelOrder | modifyOrder | onSessionEnd =>
      exact announceable.elim

theorem stockLocate_announcementOf
    (directory : StockDirectoryMessage) (timestamp : Timestamp) (call : Operation) :
    (announcementOf directory timestamp call).stockLocate = directory.stockLocate := by
  cases call <;> rfl

theorem timestamp_announcementOf
    (directory : StockDirectoryMessage) (timestamp : Timestamp) (call : Operation) :
    (announcementOf directory timestamp call).timestamp = timestamp := by
  cases call <;> rfl

/-- The messages for calls, after the directory message of their stock, announce them. -/
theorem announced_announcements
    {symbol : List UInt8} {directory : StockDirectoryMessage} {calls : List Operation}
    (matching : matchesSymbol directory.stock symbol = true)
    (timestamp : Timestamp)
    (announceable : ∀ call ∈ calls, Announceable call) :
    announced symbol none
        (.stockDirectory directory :: calls.map (announcementOf directory timestamp)) =
      calls := by
  simp only [announced, matching, if_true]
  induction calls with
  | nil => rfl
  | cons call calls inductionHypothesis =>
      obtain ⟨headAnnounceable, tailAnnounceable⟩ := List.forall_mem_cons.mp announceable
      obtain ⟨tally, change, asks, same⟩ :=
        changeOf_announcementOf headAnnounceable directory timestamp
      rw [List.map_cons, announced_of_asks asks, stockLocate_announcementOf, if_pos rfl, same,
        inductionHypothesis tailAnnounceable]

/-! ## Calls that are accepted -/

/-- The id of the order that a call may leave in the book fits into its type. -/
def EntersFitting : Operation → Prop
  | .submitLimitOrder limitRequest => limitRequest.id < 2 ^ 64
  | .modifyOrder modificationRequest => modificationRequest.id < 2 ^ 64
  | .replayAddVisibleOrder id _ _ _ => id < 2 ^ 64
  | .replayReplaceVisibleOrder _ newId _ _ => newId < 2 ^ 64
  | _ => True

/-- The ids and the prices of a book fit into the fields of a message. -/
structure FitsFeed (spec : Reference.Book) : Prop where
  ids : ∀ id, spec.Contains id → id < 2 ^ 64
  minPrice : 0 ≤ spec.minPrice
  maxPrice : spec.maxPrice < 2 ^ 32

namespace FitsFeed

variable {spec : Reference.Book}

theorem rest
    {order : Reference.Order} {side : Side}
    (fits : FitsFeed spec)
    (idFits : order.id < 2 ^ 64) :
    FitsFeed (spec.rest side order) where
  ids id present := by
    rcases Reference.Book.contains_rest.mp present with before | rfl
    · exact fits.ids id before
    · exact idFits
  minPrice := (Reference.Book.setOrders_minPrice ..).symm ▸ fits.minPrice
  maxPrice := (Reference.Book.setOrders_maxPrice ..).symm ▸ fits.maxPrice

theorem remove (fits : FitsFeed spec) (id : OrderID) : FitsFeed (spec.remove id) where
  ids other present := fits.ids other (Reference.Book.contains_remove.mp present).1
  minPrice := fits.minPrice
  maxPrice := fits.maxPrice

theorem reduce (fits : FitsFeed spec) (id : OrderID) (amount : Quantity) :
    FitsFeed (spec.reduce id amount) where
  ids other present := fits.ids other (Reference.Book.contains_reduce.mp present)
  minPrice := fits.minPrice
  maxPrice := fits.maxPrice

theorem contained
    {id : OrderID} {found : Side × Reference.Order}
    (fits : FitsFeed spec)
    (located : spec.locate id = some found) :
    id < 2 ^ 64 := by
  apply fits.ids
  by_contra absent
  rw [Reference.Book.locate_eq_none.mpr absent] at located
  cases located

theorem priced
    {price : Price}
    (fits : FitsFeed spec)
    (lower : ¬ price < spec.minPrice)
    (upper : ¬ price > spec.maxPrice) :
    0 ≤ price ∧ price < 2 ^ 32 :=
  ⟨fits.minPrice.trans (not_lt.mp lower), (not_lt.mp upper).trans_lt fits.maxPrice⟩

/-- A call that is accepted has values that fit, and leaves a book that fits. -/
theorem announceable
    {call : Operation}
    (fits : FitsFeed spec)
    (entersFitting : EntersFitting call)
    (positive : call.PositiveQuantities)
    (accepted : (spec.execute call).1 = .replay true) :
    Announceable call ∧ FitsFeed (spec.execute call).2 := by
  cases call with
  | replayAddVisibleOrder id price quantity side =>
      simp only [Reference.Book.execute, Reference.Book.replayAdd] at accepted ⊢
      split at accepted
      · simp at accepted
      next added =>
        have inRange := not_or.mp (not_or.mp (not_or.mp added).2).2
        rw [if_neg added]
        exact ⟨⟨entersFitting, fits.priced inRange.1 inRange.2, positive⟩,
          fits.rest entersFitting⟩
  | replayReduceVisibleOrder id quantityReduced =>
      cases located : spec.locate id with
      | none => simp [Reference.Book.execute, Reference.Book.replayReduce, located] at accepted
      | some found =>
          refine ⟨⟨fits.contained located, positive⟩, ?_⟩
          simp only [Reference.Book.execute, Reference.Book.replayReduce, located]
          split
          · exact fits
          split
          · exact fits
          split
          · exact fits.remove id
          · exact fits.reduce id quantityReduced
  | replayDeleteVisibleOrder id =>
      cases located : spec.locate id with
      | none => simp [Reference.Book.execute, Reference.Book.replayDelete, located] at accepted
      | some found =>
          refine ⟨fits.contained located, ?_⟩
          simp only [Reference.Book.execute, Reference.Book.replayDelete, located]
          exact fits.remove id
  | replayReplaceVisibleOrder originalId newId newPrice newQuantity =>
      simp only [Reference.Book.execute, Reference.Book.replayReplace] at accepted ⊢
      split at accepted
      · simp at accepted
      next replaced =>
      rw [if_neg replaced]
      have inRange := (not_or.mp replaced).2
      have below := (not_or.mp inRange).1
      have above := (not_or.mp (not_or.mp inRange).2).1
      cases located : spec.locate originalId with
      | none => simp [located] at accepted
      | some found =>
          refine ⟨⟨fits.contained located, entersFitting, fits.priced below above,
            positive⟩, ?_⟩
          simp only [Reference.Book.replayAdd_of_remove replaced]
          exact (fits.remove originalId).rest entersFitting
  | submitLimitOrder | submitMarketOrder | cancelOrder | modifyOrder | onSessionEnd =>
      cases accepted

/-- Calls that are all accepted have values that fit. -/
theorem announceable_of_accepted
    {calls : List Operation}
    (fits : FitsFeed spec)
    (entersFitting : ∀ call ∈ calls, EntersFitting call)
    (positive : ∀ call ∈ calls, call.PositiveQuantities)
    (accepted : ∀ output ∈ (spec.executeAll calls).1, output = .replay true) :
    ∀ call ∈ calls, Announceable call := by
  induction calls generalizing spec with
  | nil => simp
  | cons call calls inductionHypothesis =>
      obtain ⟨headEnters, tailEnters⟩ := List.forall_mem_cons.mp entersFitting
      obtain ⟨headPositive, tailPositive⟩ := List.forall_mem_cons.mp positive
      obtain ⟨headAccepted, tailAccepted⟩ := List.forall_mem_cons.mp accepted
      obtain ⟨headAnnounceable, fitsAfter⟩ :=
        fits.announceable headEnters headPositive headAccepted
      exact List.forall_mem_cons.mpr
        ⟨headAnnounceable, inductionHypothesis fitsAfter tailEnters tailPositive tailAccepted⟩

end FitsFeed

/-! ## Reports -/

theorem entersFitting_submissionCalls
    {id : OrderID} (fits : id < 2 ^ 64)
    (price : Price) (side : Side) (result : SubmissionResult) :
    ∀ call ∈ Reference.submissionCalls id price side result, EntersFitting call := by
  intro call member
  rcases List.mem_append.mp member with executed | added
  · obtain ⟨execution, _, rfl⟩ := List.mem_map.mp executed
    trivial
  · rw [Reference.additionCall] at added
    split at added
    · obtain rfl := List.mem_singleton.mp added
      exact fits
    · cases added

/-- The reports of a call enter no id but the one that the call enters. -/
theorem entersFitting_reports
    {operation : Operation}
    (spec : Reference.Book)
    (fits : EntersFitting operation)
    (output : Output) :
    ∀ call ∈ spec.reports operation output, EntersFitting call := by
  unfold Reference.Book.reports
  split
  · exact entersFitting_submissionCalls fits _ _ _
  · intro call member
    obtain ⟨execution, _, rfl⟩ := List.mem_map.mp member
    trivial
  · intro call member
    split at member
    · obtain rfl := List.mem_singleton.mp member
      trivial
    · cases member
  · split
    · exact List.forall_mem_cons.mpr ⟨trivial, entersFitting_submissionCalls fits _ _ _⟩
    · exact List.forall_mem_singleton.mpr trivial
    · simp
  · intro call member
    obtain ⟨id, _, rfl⟩ := List.mem_map.mp member
    trivial
  · exact List.forall_mem_singleton.mpr fits
  · simp

end Refinement
end MatchingEngine
