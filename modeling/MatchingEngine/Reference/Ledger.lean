import Mathlib.Logic.Function.Basic
import MatchingEngine.Model.ItchReplayEngine

/-!
# A ledger of visible orders

What a feed says about the visible orders of one symbol, without a book: which
reference numbers are live, with which side, price and open quantity, and the
queue of every side and price.  A ledger may show only some of the prices; it
refuses to take in orders at the others.
-/

namespace MatchingEngine
namespace Reference

open Replay (Message StockLocate)
open Replay.ItchReplayEngine (matchesSymbol sideOf)

/-- What is known of a live order. -/
structure Entry where
  side : Side
  price : Price
  openQuantity : Quantity
  deriving DecidableEq

/-- Live reference numbers, and one queue for every side and price. -/
@[ext]
structure Ledger where
  live : OrderID → Option Entry
  queue : Side → Price → List OrderID

/-- What a message asks of a ledger. -/
inductive FeedChange
  | add (id : OrderID) (side : Side) (price : Price) (shares : Quantity)
  | take (id : OrderID) (shares : Quantity)
  | delete (id : OrderID)
  | replace (originalId newId : OrderID) (price : Price) (shares : Quantity)
  deriving DecidableEq

namespace Ledger

/-- The ledger in which no order is live. -/
def empty : Ledger := ⟨fun _ => none, fun _ _ => []⟩

/-- Change the queue of one side and price. -/
def onQueue
    (ledger : Ledger) (side : Side) (price : Price) (change : List OrderID → List OrderID) :
    Side → Price → List OrderID :=
  Function.update ledger.queue side
    (Function.update (ledger.queue side) price (change (ledger.queue side price)))

/-- A new order, at the tail of its queue. -/
def insert (ledger : Ledger) (id : OrderID) (entry : Entry) : Ledger where
  live := Function.update ledger.live id (some entry)
  queue := ledger.onQueue entry.side entry.price fun queue => queue ++ [id]

/-- An order leaves its queue. -/
def erase (ledger : Ledger) (id : OrderID) (entry : Entry) : Ledger where
  live := Function.update ledger.live id none
  queue := ledger.onQueue entry.side entry.price fun queue => queue.filter fun other => other ≠ id

/-- An order is reduced in its place. -/
def reduce (ledger : Ledger) (id : OrderID) (entry : Entry) (shares : Quantity) : Ledger :=
  { ledger with
    live := Function.update ledger.live id
      (some { entry with openQuantity := entry.openQuantity - shares }) }

@[simp] theorem live_insert (ledger : Ledger) (id : OrderID) (entry : Entry) :
    (ledger.insert id entry).live = Function.update ledger.live id (some entry) := rfl

@[simp] theorem queue_insert (ledger : Ledger) (id : OrderID) (entry : Entry) :
    (ledger.insert id entry).queue =
      ledger.onQueue entry.side entry.price fun queue => queue ++ [id] := rfl

@[simp] theorem live_erase (ledger : Ledger) (id : OrderID) (entry : Entry) :
    (ledger.erase id entry).live = Function.update ledger.live id none := rfl

@[simp] theorem queue_erase (ledger : Ledger) (id : OrderID) (entry : Entry) :
    (ledger.erase id entry).queue =
      ledger.onQueue entry.side entry.price fun queue =>
        queue.filter fun other => other ≠ id := rfl

@[simp] theorem live_reduce
    (ledger : Ledger) (id : OrderID) (entry : Entry) (shares : Quantity) :
    (ledger.reduce id entry shares).live = Function.update ledger.live id
      (some { entry with openQuantity := entry.openQuantity - shares }) := rfl

@[simp] theorem queue_reduce
    (ledger : Ledger) (id : OrderID) (entry : Entry) (shares : Quantity) :
    (ledger.reduce id entry shares).queue = ledger.queue := rfl

/-- A change of a ledger that shows some prices, or nothing when it is refused. -/
def apply (shows : Price → Bool) (ledger : Ledger) : FeedChange → Option Ledger
  | .add id side price shares =>
      if 0 < shares ∧ ledger.live id = none ∧ shows price then
        some (ledger.insert id ⟨side, price, shares⟩)
      else none
  | .take id shares =>
      match ledger.live id with
      | none => none
      | some entry =>
          if ¬ (0 < shares ∧ shares ≤ entry.openQuantity) then none
          else if shares = entry.openQuantity then some (ledger.erase id entry)
          else some (ledger.reduce id entry shares)
  | .delete id => (ledger.live id).map (ledger.erase id)
  | .replace originalId newId price shares =>
      match ledger.live originalId with
      | none => none
      | some entry =>
          if 0 < shares ∧ ledger.live newId = none ∧ shows price then
            some ((ledger.erase originalId entry).insert newId ⟨entry.side, price, shares⟩)
          else none

/-- How a ledger takes a change in. -/
inductive Applies (shows : Price → Bool) (ledger : Ledger) : FeedChange → Ledger → Prop
  | add
      {id : OrderID} {side : Side} {price : Price} {shares : Quantity}
      (positive : 0 < shares)
      (fresh : ledger.live id = none)
      (shown : shows price = true) :
      Applies shows ledger (.add id side price shares) (ledger.insert id ⟨side, price, shares⟩)
  | takeAll
      {id : OrderID} {shares : Quantity} {entry : Entry}
      (found : ledger.live id = some entry)
      (positive : 0 < shares)
      (all : shares = entry.openQuantity) :
      Applies shows ledger (.take id shares) (ledger.erase id entry)
  | takeSome
      {id : OrderID} {shares : Quantity} {entry : Entry}
      (found : ledger.live id = some entry)
      (positive : 0 < shares)
      (less : shares < entry.openQuantity) :
      Applies shows ledger (.take id shares) (ledger.reduce id entry shares)
  | delete
      {id : OrderID} {entry : Entry}
      (found : ledger.live id = some entry) :
      Applies shows ledger (.delete id) (ledger.erase id entry)
  | replace
      {originalId newId : OrderID} {price : Price} {shares : Quantity} {entry : Entry}
      (found : ledger.live originalId = some entry)
      (positive : 0 < shares)
      (fresh : ledger.live newId = none)
      (shown : shows price = true) :
      Applies shows ledger (.replace originalId newId price shares)
        ((ledger.erase originalId entry).insert newId ⟨entry.side, price, shares⟩)

theorem applies_of_apply
    {shows : Price → Bool} {ledger next : Ledger} {change : FeedChange}
    (applied : ledger.apply shows change = some next) :
    ledger.Applies shows change next := by
  cases change with
  | add id side price shares =>
      simp only [apply] at applied
      split at applied
      next accepted =>
        obtain rfl := Option.some.inj applied
        exact .add accepted.1 accepted.2.1 accepted.2.2
      next => cases applied
  | take id shares =>
      simp only [apply] at applied
      split at applied
      next => cases applied
      next entry found =>
      split at applied
      next => cases applied
      next enough =>
      obtain ⟨positive, atMost⟩ := not_not.mp enough
      split at applied
      next all =>
        obtain rfl := Option.some.inj applied
        exact .takeAll found positive all
      next some =>
        obtain rfl := Option.some.inj applied
        exact .takeSome found positive (lt_of_le_of_ne atMost some)
  | delete id =>
      obtain ⟨entry, found, rfl⟩ := Option.map_eq_some_iff.mp applied
      exact .delete found
  | replace originalId newId price shares =>
      simp only [apply] at applied
      split at applied
      next => cases applied
      next entry found =>
      split at applied
      next accepted =>
        obtain rfl := Option.some.inj applied
        exact .replace found accepted.1 accepted.2.1 accepted.2.2
      next => cases applied

/-- The prices of a range. -/
def within (minPrice maxPrice price : Price) : Bool :=
  decide (minPrice ≤ price ∧ price ≤ maxPrice)

@[simp] theorem within_eq_true {minPrice maxPrice price : Price} :
    within minPrice maxPrice price = true ↔ minPrice ≤ price ∧ price ≤ maxPrice :=
  decide_eq_true_iff

/-- The shares of a change fit the quantities of a book, or the change is refused
whatever its shares. -/
def Fits (shows : Price → Bool) (ledger : Ledger) : FeedChange → Prop
  | .add id _ price shares =>
      shares ≤ 2147483647 ∨ ledger.live id ≠ none ∨ shows price = false
  | .take id shares => shares ≤ 2147483647 ∨ ledger.live id = none
  | .delete _ => True
  | .replace originalId newId price shares =>
      shares ≤ 2147483647 ∨ ledger.live originalId = none ∨ ledger.live newId ≠ none ∨
        shows price = false

/-- A change that is refused does nothing. -/
def update (shows : Price → Bool) (ledger : Ledger) (change : FeedChange) : Ledger :=
  (ledger.apply shows change).getD ledger

/-- Fewer than `2 ^ 32` orders are in every queue. -/
def WithinCapacity (ledger : Ledger) : Prop :=
  ∀ side price, (ledger.queue side price).length < 4294967296

/-! ## What a ledger shows -/

/-- The prices of a range, from the best for a side to the worst. -/
def pricesOf (minPrice maxPrice : Price) : Side → List Price
  | .buy => (List.range (maxPrice - minPrice + 1).toNat).reverse.map fun (i : Nat) => minPrice + i
  | .sell => (List.range (maxPrice - minPrice + 1).toNat).map fun (i : Nat) => minPrice + i

theorem mem_pricesOf {minPrice maxPrice : Price} {side : Side} {price : Price} :
    price ∈ pricesOf minPrice maxPrice side ↔ minPrice ≤ price ∧ price ≤ maxPrice := by
  have inRange : (∃ index < (maxPrice - minPrice + 1).toNat, minPrice + (index : Int) = price) ↔
      minPrice ≤ price ∧ price ≤ maxPrice := by
    constructor
    · rintro ⟨index, inside, rfl⟩
      lia
    · intro bounds
      exact ⟨(price - minPrice).toNat, by lia, by lia⟩
  cases side <;> simpa [pricesOf] using inRange

/-- The prices of a range at which there are orders, from the best to the worst. -/
def occupied (ledger : Ledger) (minPrice maxPrice : Price) (side : Side) : List Price :=
  (pricesOf minPrice maxPrice side).filter fun price => ledger.queue side price ≠ []

/-- The open quantity of an order. -/
def openQuantityOf (ledger : Ledger) (id : OrderID) : Quantity :=
  match ledger.live id with
  | some entry => entry.openQuantity
  | none => 0

/-- The shares in one queue. -/
def volume (ledger : Ledger) (side : Side) (price : Price) : Int :=
  ((ledger.queue side price).map ledger.openQuantityOf).sum

/-- The best prices at which there are orders, with the shares there. -/
def depth (ledger : Ledger) (minPrice maxPrice : Price) (side : Side) (count : Nat) :
    List (Price × Volume) :=
  ((ledger.occupied minPrice maxPrice side).take count).map fun price =>
    (price, (ledger.volume side price).toNat)

end Ledger

/-! ## Replaying a feed -/

/-- What the messages that are applied are counted as. -/
inductive Tally
  | adds
  | executions
  | cancels
  | deletes
  | replaces
  deriving DecidableEq

/-- What an order message asks for, and what it is counted as. -/
def changeOf : Message → Option (Tally × FeedChange)
  | .systemEvent _ | .stockDirectory _ => none
  | .addOrder message =>
      some (.adds, .add message.orderReferenceNumber.toNat (sideOf message.buySellIndicator)
        message.price.toNat message.shares.toNat)
  | .addOrderWithMPID message =>
      some (.adds, .add message.orderReferenceNumber.toNat (sideOf message.buySellIndicator)
        message.price.toNat message.shares.toNat)
  | .orderExecuted message =>
      some (.executions, .take message.orderReferenceNumber.toNat message.executedShares.toNat)
  | .orderExecutedWithPrice message =>
      some (.executions, .take message.orderReferenceNumber.toNat message.executedShares.toNat)
  | .orderCancel message =>
      some (.cancels, .take message.orderReferenceNumber.toNat message.cancelledShares.toNat)
  | .orderDelete message => some (.deletes, .delete message.orderReferenceNumber.toNat)
  | .orderReplace message =>
      some (.replaces, .replace message.originalOrderReferenceNumber.toNat
        message.newOrderReferenceNumber.toNat message.price.toNat message.shares.toNat)

/-- A ledger that follows one symbol, with its counters. -/
structure LedgerReplay where
  symbol : List UInt8
  target : Option StockLocate := none
  ledger : Ledger := Ledger.empty
  applied : Tally → Nat := fun _ => 0
  failed : Nat := 0

namespace LedgerReplay

/-- Apply a change to the ledger, and count it or its failure. -/
def attempt (shows : Price → Bool) (state : LedgerReplay) (tally : Tally) (change : FeedChange) :
    LedgerReplay :=
  match state.ledger.apply shows change with
  | some ledger =>
      { state with
        ledger
        applied := Function.update state.applied tally (state.applied tally + 1) }
  | none => { state with failed := state.failed + 1 }

/-- One message of the feed. -/
def handle (shows : Price → Bool) (state : LedgerReplay) (message : Message) : LedgerReplay :=
  match message with
  | .stockDirectory directory =>
      if matchesSymbol directory.stock state.symbol then
        { state with target := some directory.stockLocate }
      else state
  | message =>
      match changeOf message with
      | some (tally, change) =>
          if state.target = some message.stockLocate then state.attempt shows tally change
          else state
      | none => state

/-- An order message for the target is an attempt at its change. -/
theorem handle_of_asks
    {message : Message} {tally : Tally} {change : FeedChange}
    (asks : changeOf message = some (tally, change))
    (shows : Price → Bool) (state : LedgerReplay) :
    state.handle shows message =
      if state.target = some message.stockLocate then state.attempt shows tally change
      else state := by
  cases message <;> cases asks <;> rfl

/-- Other messages leave the ledger as it is. -/
theorem ledger_handle_of_idle
    {state : LedgerReplay} {message : Message}
    (shows : Price → Bool)
    (idle : ∀ tally change, changeOf message = some (tally, change) →
      state.target ≠ some message.stockLocate) :
    (state.handle shows message).ledger = state.ledger := by
  cases asks : changeOf message with
  | none =>
      cases message with
      | systemEvent => rfl
      | stockDirectory =>
          simp only [handle]
          split <;> rfl
      | _ => cases asks
  | some asked =>
      obtain ⟨tally, change⟩ := asked
      rw [handle_of_asks asks, if_neg (idle tally change asks)]

/-- A feed, from an empty ledger. -/
def replay (shows : Price → Bool) (symbol : List UInt8) (messages : List Message) :
    LedgerReplay :=
  messages.foldl (handle shows) { symbol }

theorem replay_append_singleton
    (shows : Price → Bool) (symbol : List UInt8) (messages : List Message) (message : Message) :
    replay shows symbol (messages ++ [message]) =
      (replay shows symbol messages).handle shows message := by
  rw [replay, List.foldl_append]
  rfl

end LedgerReplay

end Reference
end MatchingEngine
