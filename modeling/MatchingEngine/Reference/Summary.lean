import MatchingEngine.Model.Summary
import MatchingEngine.Reference.Ledger

/-!
# The summary of a ledger

What the summary of a replay should say: the counters of a ledger of the feed, its
orders and its best levels, with prices as exact dollars.
-/

namespace MatchingEngine
namespace Reference

open Replay (Message Summary text)

/-- A price in dollars; its last four digits are the decimals. -/
def writePrice (price : Price) : List UInt8 :=
  (if price < 0 then text "-" else []) ++
    Decimal.write (price.natAbs / 10000) ++ text "." ++ Decimal.writeDigits 4 price.natAbs

namespace Ledger

/-- The live orders of a side, level by level. -/
def ordersOf (ledger : Ledger) (minPrice maxPrice : Price) (side : Side) : List OrderID :=
  (pricesOf minPrice maxPrice side).flatMap (ledger.queue side)

/-- The best price of a side with the shares there, if the side has orders. -/
def bestLevel (ledger : Ledger) (minPrice maxPrice : Price) (side : Side) :
    Option (Price × Volume) :=
  (ledger.depth minPrice maxPrice side 1).head?

end Ledger

/-- The summary of a ledger that shows a range of prices; counters are of 64 bits. -/
def LedgerReplay.summary (state : LedgerReplay) (minPrice maxPrice : Price) (depth : Nat) :
    Summary where
  symbol := state.symbol
  targetStockLocate := state.target
  addsApplied := toUInt64 (state.applied .adds)
  executionsApplied := toUInt64 (state.applied .executions)
  cancelsApplied := toUInt64 (state.applied .cancels)
  deletesApplied := toUInt64 (state.applied .deletes)
  replacesApplied := toUInt64 (state.applied .replaces)
  failedApplications := toUInt64 state.failed
  numOrders := (state.ledger.ordersOf minPrice maxPrice .buy).length +
    (state.ledger.ordersOf minPrice maxPrice .sell).length
  numLevelsBids := (state.ledger.occupied minPrice maxPrice .buy).length
  numLevelsAsks := (state.ledger.occupied minPrice maxPrice .sell).length
  bestBid := state.ledger.bestLevel minPrice maxPrice .buy
  bestAsk := state.ledger.bestLevel minPrice maxPrice .sell
  topAskLevels := state.ledger.depth minPrice maxPrice .sell depth
  topBidLevels := state.ledger.depth minPrice maxPrice .buy depth

/-! ## The queues of a ledger -/

namespace Ledger

variable {shows : Price → Bool} {ledger next : Ledger}

/-- No queue gains an order when one leaves. -/
theorem queue_erase_sublist
    (ledger : Ledger) (id : OrderID) (entry : Entry) (side : Side) (price : Price) :
    ((ledger.erase id entry).queue side price).Sublist (ledger.queue side price) := by
  rw [queue_erase, onQueue]
  by_cases sameSide : side = entry.side
  · subst sameSide
    rw [Function.update_self]
    by_cases samePrice : price = entry.price
    · subst samePrice
      rw [Function.update_self]
      exact List.filter_sublist
    · rw [Function.update_of_ne samePrice]
  · rw [Function.update_of_ne sameSide]

/-- A new order stands in the queue of its side and price, and in no other. -/
theorem queue_insert_cases
    (ledger : Ledger) (id : OrderID) (entry : Entry) (side : Side) (price : Price) :
    (price = entry.price ∧
      (ledger.insert id entry).queue side price = ledger.queue side price ++ [id]) ∨
    (ledger.insert id entry).queue side price = ledger.queue side price := by
  rw [queue_insert, onQueue]
  by_cases sameSide : side = entry.side
  · subst sameSide
    rw [Function.update_self]
    by_cases samePrice : price = entry.price
    · subst samePrice
      exact Or.inl ⟨rfl, Function.update_self ..⟩
    · exact Or.inr (Function.update_of_ne samePrice ..)
  · exact Or.inr (congrFun (Function.update_of_ne sameSide ..) price)

theorem length_queue_insert_le
    (ledger : Ledger) (id : OrderID) (entry : Entry) (side : Side) (price : Price) :
    ((ledger.insert id entry).queue side price).length ≤
      (ledger.queue side price).length + 1 := by
  rcases queue_insert_cases ledger id entry side price with ⟨_, joined⟩ | same
  · rw [joined, List.length_append, List.length_singleton]
  · rw [same]
    exact Nat.le_succ _

/-- A change adds an order to a queue at most. -/
theorem Applies.length_queue_le
    {change : FeedChange}
    (applies : ledger.Applies shows change next) (side : Side) (price : Price) :
    (next.queue side price).length ≤ (ledger.queue side price).length + 1 := by
  have erased : ∀ id entry,
      ((ledger.erase id entry).queue side price).length ≤ (ledger.queue side price).length :=
    fun id entry => (queue_erase_sublist ledger id entry side price).length_le
  cases applies with
  | add => exact length_queue_insert_le ..
  | takeAll => exact (erased _ _).trans (Nat.le_succ _)
  | takeSome => exact Nat.le_succ _
  | delete => exact (erased _ _).trans (Nat.le_succ _)
  | replace => exact (length_queue_insert_le ..).trans (Nat.succ_le_succ (erased _ _))

end Ledger

/-! ## The prices of a feed

Every price of a feed has 32 bits, so a `double` holds it and its dollars well enough
to print them. -/

/-- All live orders are at prices of 32 bits. -/
def Ledger.PricesFit (ledger : Ledger) : Prop :=
  ∀ side price, ledger.queue side price ≠ [] → InUInt32 price

/-- The change adds orders at prices of 32 bits only. -/
def FeedChange.PriceFits : FeedChange → Prop
  | .add _ _ price _ => InUInt32 price
  | .replace _ _ price _ => InUInt32 price
  | .take .. | .delete _ => True

theorem priceFits_changeOf
    {message : Message} {tally : Tally} {change : FeedChange}
    (asks : changeOf message = some (tally, change)) :
    change.PriceFits := by
  have bits : ∀ price : Replay.Price, InUInt32 (price.toNat : Int) := fun price =>
    ⟨Int.natCast_nonneg _, Int.ofNat_lt.mpr price.toNat_lt⟩
  cases message with
  | systemEvent | stockDirectory => cases asks
  | addOrder message | addOrderWithMPID message | orderReplace message =>
      cases asks
      exact bits message.price
  | orderExecuted | orderExecutedWithPrice | orderCancel | orderDelete =>
      cases asks
      trivial

namespace Ledger

variable {shows : Price → Bool} {ledger next : Ledger}

theorem PricesFit.erase
    (fit : ledger.PricesFit) (id : OrderID) (entry : Entry) :
    (ledger.erase id entry).PricesFit := by
  intro side price occupied
  refine fit side price fun vacant => occupied ?_
  exact List.sublist_nil.mp (vacant ▸ queue_erase_sublist ledger id entry side price)

theorem PricesFit.insert
    (fit : ledger.PricesFit) (id : OrderID) (entry : Entry)
    (price : InUInt32 entry.price) :
    (ledger.insert id entry).PricesFit := by
  intro side other occupied
  rcases queue_insert_cases ledger id entry side other with ⟨samePrice, _⟩ | same
  · exact samePrice ▸ price
  · exact fit side other (same ▸ occupied)

theorem PricesFit.of_applies
    {change : FeedChange}
    (fit : ledger.PricesFit)
    (price : change.PriceFits)
    (applies : ledger.Applies shows change next) :
    next.PricesFit := by
  cases applies with
  | add => exact fit.insert _ _ price
  | takeAll => exact fit.erase _ _
  | takeSome => exact fit
  | delete => exact fit.erase _ _
  | replace => exact (fit.erase _ _).insert _ _ price

end Ledger

/-! ## Replayed ledgers -/

namespace LedgerReplay

variable {shows : Price → Bool}

/-- A message changes the ledger as it asks, or not at all. -/
theorem handle_cases (shows : Price → Bool) (state : LedgerReplay) (message : Message) :
    (∃ tally change, changeOf message = some (tally, change) ∧
      state.ledger.Applies shows change (state.handle shows message).ledger) ∨
    (state.handle shows message).ledger = state.ledger := by
  by_cases attempted : ∃ tally change, changeOf message = some (tally, change) ∧
      state.target = some message.stockLocate
  · obtain ⟨tally, change, asks, target⟩ := attempted
    rw [handle_of_asks asks, if_pos target, attempt]
    split
    next ledger applied =>
      exact Or.inl ⟨tally, change, asks, Ledger.applies_of_apply applied⟩
    next => exact Or.inr rfl
  · exact Or.inr (ledger_handle_of_idle shows fun tally change asks target =>
      attempted ⟨tally, change, asks, target⟩)

/-- The prices of a replayed ledger have 32 bits. -/
theorem pricesFit_replay
    (shows : Price → Bool) (symbol : List UInt8) (messages : List Message) :
    (replay shows symbol messages).ledger.PricesFit := by
  induction messages using List.reverseRecOn with
  | nil => exact fun side price occupied => absurd rfl occupied
  | append_singleton messages message inductionHypothesis =>
      rw [replay_append_singleton]
      rcases handle_cases shows (replay shows symbol messages) message with
        ⟨tally, change, asks, applies⟩ | same
      · exact inductionHypothesis.of_applies (priceFits_changeOf asks) applies
      · exact same ▸ inductionHypothesis

/-- No queue of a replayed ledger has more orders than the feed has messages. -/
theorem length_queue_replay_le
    (shows : Price → Bool) (symbol : List UInt8) (messages : List Message)
    (side : Side) (price : Price) :
    ((replay shows symbol messages).ledger.queue side price).length ≤ messages.length := by
  induction messages using List.reverseRecOn with
  | nil => exact Nat.zero_le _
  | append_singleton messages message inductionHypothesis =>
      rw [replay_append_singleton, List.length_append, List.length_singleton]
      rcases handle_cases shows (replay shows symbol messages) message with
        ⟨tally, change, asks, applies⟩ | same
      · exact (applies.length_queue_le side price).trans (Nat.succ_le_succ inductionHypothesis)
      · rw [same]
        exact inductionHypothesis.trans (Nat.le_succ _)

/-- A feed of fewer than `2 ^ 32` messages crowds no queue. -/
theorem withinCapacity_of_few
    (shows : Price → Bool) (symbol : List UInt8)
    {messages : List Message}
    (few : messages.length < 4294967296) :
    ∀ earlier, earlier <+: messages →
      (replay shows symbol earlier).ledger.WithinCapacity := fun earlier before side price =>
  ((length_queue_replay_le shows symbol earlier side price).trans before.length_le).trans_lt few

end LedgerReplay

end Reference
end MatchingEngine
