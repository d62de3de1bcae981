import MatchingEngine.Library.Run
import MatchingEngine.Model.ItchMessages
import MatchingEngine.Model.OrderBook

/-!
# The replay engine

The engine follows one symbol.  A directory message with that symbol tells it
the locate code of the symbol; the order messages with that code are applied to
a book, and counted as applied or failed.
-/

namespace MatchingEngine
namespace Replay

/-- The members of the engine: its counters, the symbol that it follows with the locate code, and
the book. -/
structure ItchReplayEngine where
  addsApplied : Nat := 0
  executionsApplied : Nat := 0
  cancelsApplied : Nat := 0
  deletesApplied : Nat := 0
  replacesApplied : Nat := 0
  failedApplications : Nat := 0
  symbol : List UInt8
  targetStockLocate : Option StockLocate
  ob : OrderBook

namespace ItchReplayEngine

/-- The constructor. -/
def create (symbol : List UInt8) (obConfig : OrderBookConfig) :
    Except Fault ItchReplayEngine := do
  let ob ← OrderBook.create obConfig
  .ok { symbol, targetStockLocate := none, ob }

/-- `++counter`, in `std::size_t`. -/
def increment (counter : Nat) : Nat := toUInt64 (counter + 1)

/-- The locate code is that of the symbol, once it is known. -/
def isTargetStock (engine : ItchReplayEngine) (stockLocate : StockLocate) : Bool :=
  match engine.targetStockLocate with
  | some targetStockLocate => stockLocate == targetStockLocate
  | none => false

/-- The stock field, up to its first blank, is the symbol. -/
def matchesSymbol (itchStock : Vector UInt8 8) (symbol : List UInt8) : Bool :=
  let itchStockSize := (itchStock.toList.takeWhile fun character => character ≠ char ' ').length
  itchStockSize == symbol.length && symbol == itchStock.toList.take symbol.length

/-- Count an addition. -/
def countAdd (engine : ItchReplayEngine) : ItchReplayEngine :=
  { engine with addsApplied := increment engine.addsApplied }

/-- Count an execution. -/
def countExecution (engine : ItchReplayEngine) : ItchReplayEngine :=
  { engine with executionsApplied := increment engine.executionsApplied }

/-- Count a partial cancellation. -/
def countCancel (engine : ItchReplayEngine) : ItchReplayEngine :=
  { engine with cancelsApplied := increment engine.cancelsApplied }

/-- Count a deletion. -/
def countDelete (engine : ItchReplayEngine) : ItchReplayEngine :=
  { engine with deletesApplied := increment engine.deletesApplied }

/-- Count a replacement. -/
def countReplace (engine : ItchReplayEngine) : ItchReplayEngine :=
  { engine with replacesApplied := increment engine.replacesApplied }

/-- Count a change that the book has refused. -/
def countFailure (engine : ItchReplayEngine) : ItchReplayEngine :=
  { engine with failedApplications := increment engine.failedApplications }

/-- What the handlers of all order messages do: unless the message is about another
stock, call the book and count how the call ended. -/
def applyToBook
    (engine : ItchReplayEngine) (stockLocate : StockLocate)
    (call : OrderBook → Except Fault (Bool × OrderBook))
    (countApplied : ItchReplayEngine → ItchReplayEngine) :
    Except Fault ItchReplayEngine :=
  if !engine.isTargetStock stockLocate then .ok engine
  else do
    let (applied, ob) ← call engine.ob
    let engine := { engine with ob }
    .ok (if applied then countApplied engine else countFailure engine)

/-- The side that a buy/sell indicator stands for. -/
def sideOf (buySellIndicator : UInt8) : Side :=
  if buySellIndicator = char 'B' then .buy else .sell

/-- The implicit conversion of shares to the quantity of the book. -/
def toQuantity (shares : Shares) : Quantity := toInt32 shares.toNat

/-- System events are ignored. -/
def onSystemEvent (engine : ItchReplayEngine) (_ : SystemEventMessage) :
    Except Fault ItchReplayEngine :=
  .ok engine

/-- The directory entry of the symbol tells its locate code; the last one counts. -/
def onStockDirectory (engine : ItchReplayEngine) (message : StockDirectoryMessage) :
    Except Fault ItchReplayEngine :=
  if matchesSymbol message.stock engine.symbol then
    .ok { engine with targetStockLocate := some message.stockLocate }
  else .ok engine

/-- Add a visible order. -/
def onAddOrder (engine : ItchReplayEngine) (message : AddOrderMessage) :
    Except Fault ItchReplayEngine :=
  engine.applyToBook message.stockLocate
    (fun ob => ob.replayAddVisibleOrder message.orderReferenceNumber.toNat
      message.price.toNat (toQuantity message.shares) (sideOf message.buySellIndicator))
    countAdd

/-- Add a visible order, whoever has added it. -/
def onAddOrderWithMPID (engine : ItchReplayEngine) (message : AddOrderWithMPIDMessage) :
    Except Fault ItchReplayEngine :=
  engine.applyToBook message.stockLocate
    (fun ob => ob.replayAddVisibleOrder message.orderReferenceNumber.toNat
      message.price.toNat (toQuantity message.shares) (sideOf message.buySellIndicator))
    countAdd

/-- Take the executed shares off an order. -/
def onOrderExecuted (engine : ItchReplayEngine) (message : OrderExecutedMessage) :
    Except Fault ItchReplayEngine :=
  engine.applyToBook message.stockLocate
    (fun ob => ob.replayReduceVisibleOrder message.orderReferenceNumber.toNat
      (toQuantity message.executedShares))
    countExecution

/-- Take the executed shares off an order, whatever they were traded at. -/
def onOrderExecutedWithPrice
    (engine : ItchReplayEngine) (message : OrderExecutedWithPriceMessage) :
    Except Fault ItchReplayEngine :=
  engine.applyToBook message.stockLocate
    (fun ob => ob.replayReduceVisibleOrder message.orderReferenceNumber.toNat
      (toQuantity message.executedShares))
    countExecution

/-- Take the cancelled shares off an order. -/
def onOrderCancel (engine : ItchReplayEngine) (message : OrderCancelMessage) :
    Except Fault ItchReplayEngine :=
  engine.applyToBook message.stockLocate
    (fun ob => ob.replayReduceVisibleOrder message.orderReferenceNumber.toNat
      (toQuantity message.cancelledShares))
    countCancel

/-- Delete an order. -/
def onOrderDelete (engine : ItchReplayEngine) (message : OrderDeleteMessage) :
    Except Fault ItchReplayEngine :=
  engine.applyToBook message.stockLocate
    (fun ob => ob.replayDeleteVisibleOrder message.orderReferenceNumber.toNat)
    countDelete

/-- Replace an order by one with a new id, price and quantity. -/
def onOrderReplace (engine : ItchReplayEngine) (message : OrderReplaceMessage) :
    Except Fault ItchReplayEngine :=
  engine.applyToBook message.stockLocate
    (fun ob => ob.replayReplaceVisibleOrder message.originalOrderReferenceNumber.toNat
      message.newOrderReferenceNumber.toNat message.price.toNat (toQuantity message.shares))
    countReplace

/-- The overloads of `on_message`. -/
def onMessage (engine : ItchReplayEngine) : Message → Except Fault ItchReplayEngine
  | .systemEvent message => engine.onSystemEvent message
  | .stockDirectory message => engine.onStockDirectory message
  | .addOrder message => engine.onAddOrder message
  | .addOrderWithMPID message => engine.onAddOrderWithMPID message
  | .orderExecuted message => engine.onOrderExecuted message
  | .orderExecutedWithPrice message => engine.onOrderExecutedWithPrice message
  | .orderCancel message => engine.onOrderCancel message
  | .orderDelete message => engine.onOrderDelete message
  | .orderReplace message => engine.onOrderReplace message

/-- Hand a list of messages to the engine, one after another. -/
def onMessages (engine : ItchReplayEngine) (messages : List Message) :
    Except Fault ItchReplayEngine :=
  messages.foldlM onMessage engine

/-! ## Runs -/

/-- A new engine. -/
def Starts (engine : ItchReplayEngine) : Prop :=
  ∃ symbol obConfig, create symbol obConfig = .ok engine

/-- One message that is handled. -/
def Handles
    (allowed : ItchReplayEngine → Message → Prop)
    (engine : ItchReplayEngine) (message : Message) (_ : Unit) (next : ItchReplayEngine) : Prop :=
  allowed engine message ∧ engine.onMessage message = .ok next

/-- Runs over the messages that are allowed, from a new engine. -/
abbrev EngineRun (allowed : ItchReplayEngine → Message → Prop) :
    List (Event ItchReplayEngine Message Unit) → ItchReplayEngine → Prop :=
  Run Starts (Handles allowed)

end ItchReplayEngine

end Replay
end MatchingEngine
