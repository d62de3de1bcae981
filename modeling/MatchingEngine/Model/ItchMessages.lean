import Mathlib.Tactic.TypeStar

/-!
# Decoded messages of the market data feed

The nine message types that the replay handles, with every field of their
decoded form.  A `char` is its byte; the source only compares characters for
equality, so their sign does not matter.
-/

namespace MatchingEngine
namespace Replay

/-- The number that stands for a stock in one day's feed. -/
abbrev StockLocate := UInt16

/-- A number for the internal use of the exchange. -/
abbrev TrackingNumber := UInt16

/-- Nanoseconds; 48 bits in the feed, kept in `std::uint64_t`. -/
abbrev Timestamp := UInt64

/-- The id of an order in the feed. -/
abbrev OrderReferenceNumber := UInt64

/-- The id of an execution. -/
abbrev MatchNumber := UInt64

/-- `std::uint32_t`. -/
abbrev Shares := UInt32

/-- `std::uint32_t`, a price with four decimals. -/
abbrev Price := UInt32

/-- The character constants of the source. -/
def char (character : Char) : UInt8 := character.toUInt8

/-- S -/
structure SystemEventMessage where
  stockLocate : StockLocate
  trackingNumber : TrackingNumber
  timestamp : Timestamp
  eventCode : UInt8
  deriving DecidableEq

/-- R -/
structure StockDirectoryMessage where
  stockLocate : StockLocate
  trackingNumber : TrackingNumber
  timestamp : Timestamp
  stock : Vector UInt8 8
  marketCategory : UInt8
  financialStatusIndicator : UInt8
  roundLotSize : UInt32
  roundLotsOnly : UInt8
  issueClassification : UInt8
  issueSubType : Vector UInt8 2
  authenticity : UInt8
  shortSaleThresholdIndicator : UInt8
  ipoFlag : UInt8
  luldReferencePriceTier : UInt8
  etpFlag : UInt8
  etpLeverageFactor : UInt32
  inverseIndicator : UInt8
  deriving DecidableEq

/-- A -/
structure AddOrderMessage where
  stockLocate : StockLocate
  trackingNumber : TrackingNumber
  timestamp : Timestamp
  orderReferenceNumber : OrderReferenceNumber
  buySellIndicator : UInt8
  shares : Shares
  stock : Vector UInt8 8
  price : Price
  deriving DecidableEq

/-- F -/
structure AddOrderWithMPIDMessage where
  stockLocate : StockLocate
  trackingNumber : TrackingNumber
  timestamp : Timestamp
  orderReferenceNumber : OrderReferenceNumber
  buySellIndicator : UInt8
  shares : Shares
  stock : Vector UInt8 8
  price : Price
  attribution : Vector UInt8 4
  deriving DecidableEq

/-- E -/
structure OrderExecutedMessage where
  stockLocate : StockLocate
  trackingNumber : TrackingNumber
  timestamp : Timestamp
  orderReferenceNumber : OrderReferenceNumber
  executedShares : Shares
  matchNumber : MatchNumber
  deriving DecidableEq

/-- C -/
structure OrderExecutedWithPriceMessage where
  stockLocate : StockLocate
  trackingNumber : TrackingNumber
  timestamp : Timestamp
  orderReferenceNumber : OrderReferenceNumber
  executedShares : Shares
  matchNumber : MatchNumber
  printable : UInt8
  executionPrice : Price
  deriving DecidableEq

/-- X -/
structure OrderCancelMessage where
  stockLocate : StockLocate
  trackingNumber : TrackingNumber
  timestamp : Timestamp
  orderReferenceNumber : OrderReferenceNumber
  cancelledShares : Shares
  deriving DecidableEq

/-- D -/
structure OrderDeleteMessage where
  stockLocate : StockLocate
  trackingNumber : TrackingNumber
  timestamp : Timestamp
  orderReferenceNumber : OrderReferenceNumber
  deriving DecidableEq

/-- U -/
structure OrderReplaceMessage where
  stockLocate : StockLocate
  trackingNumber : TrackingNumber
  timestamp : Timestamp
  originalOrderReferenceNumber : OrderReferenceNumber
  newOrderReferenceNumber : OrderReferenceNumber
  shares : Shares
  price : Price
  deriving DecidableEq

/-- The message types with a handler. -/
inductive MessageType
  | systemEvent
  | stockDirectory
  | addOrder
  | addOrderWithMPID
  | orderExecuted
  | orderExecutedWithPrice
  | orderCancel
  | orderDelete
  | orderReplace
  deriving DecidableEq

/-- The type byte. -/
def MessageType.code : MessageType → UInt8
  | systemEvent => char 'S'
  | stockDirectory => char 'R'
  | addOrder => char 'A'
  | addOrderWithMPID => char 'F'
  | orderExecuted => char 'E'
  | orderExecutedWithPrice => char 'C'
  | orderCancel => char 'X'
  | orderDelete => char 'D'
  | orderReplace => char 'U'

/-- The message type with a type byte, if a `case` of the source handles it. -/
def MessageType.ofCode (code : UInt8) : Option MessageType :=
  [systemEvent, stockDirectory, addOrder, addOrderWithMPID, orderExecuted,
    orderExecutedWithPrice, orderCancel, orderDelete, orderReplace].find?
      fun messageType => messageType.code = code

theorem MessageType.ofCode_code (messageType : MessageType) :
    ofCode messageType.code = some messageType := by
  cases messageType <;> rfl

/-- A message of any of the types. -/
inductive Message
  | systemEvent (message : SystemEventMessage)
  | stockDirectory (message : StockDirectoryMessage)
  | addOrder (message : AddOrderMessage)
  | addOrderWithMPID (message : AddOrderWithMPIDMessage)
  | orderExecuted (message : OrderExecutedMessage)
  | orderExecutedWithPrice (message : OrderExecutedWithPriceMessage)
  | orderCancel (message : OrderCancelMessage)
  | orderDelete (message : OrderDeleteMessage)
  | orderReplace (message : OrderReplaceMessage)
  deriving DecidableEq

namespace Message

/-- The type of a message. -/
def messageType : Message → MessageType
  | systemEvent _ => .systemEvent
  | stockDirectory _ => .stockDirectory
  | addOrder _ => .addOrder
  | addOrderWithMPID _ => .addOrderWithMPID
  | orderExecuted _ => .orderExecuted
  | orderExecutedWithPrice _ => .orderExecutedWithPrice
  | orderCancel _ => .orderCancel
  | orderDelete _ => .orderDelete
  | orderReplace _ => .orderReplace

/-- The `timestamp_` member, which every message has. -/
def timestamp : Message → Timestamp
  | systemEvent message => message.timestamp
  | stockDirectory message => message.timestamp
  | addOrder message => message.timestamp
  | addOrderWithMPID message => message.timestamp
  | orderExecuted message => message.timestamp
  | orderExecutedWithPrice message => message.timestamp
  | orderCancel message => message.timestamp
  | orderDelete message => message.timestamp
  | orderReplace message => message.timestamp

/-- The `stockLocate_` member, which every message has. -/
def stockLocate : Message → StockLocate
  | systemEvent message => message.stockLocate
  | stockDirectory message => message.stockLocate
  | addOrder message => message.stockLocate
  | addOrderWithMPID message => message.stockLocate
  | orderExecuted message => message.stockLocate
  | orderExecutedWithPrice message => message.stockLocate
  | orderCancel message => message.stockLocate
  | orderDelete message => message.stockLocate
  | orderReplace message => message.stockLocate

end Message

/-- The directory message of symbol A. -/
def sampleDirectory : StockDirectoryMessage where
  stockLocate := 1
  trackingNumber := 0
  timestamp := 1
  stock := #v[65, 32, 32, 32, 32, 32, 32, 32]
  marketCategory := 81
  financialStatusIndicator := 78
  roundLotSize := 100
  roundLotsOnly := 78
  issueClassification := 67
  issueSubType := #v[90, 32]
  authenticity := 80
  shortSaleThresholdIndicator := 78
  ipoFlag := 78
  luldReferencePriceTier := 49
  etpFlag := 78
  etpLeverageFactor := 0
  inverseIndicator := 78

end Replay
end MatchingEngine
