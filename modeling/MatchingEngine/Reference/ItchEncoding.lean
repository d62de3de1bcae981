import MatchingEngine.Model.ItchDecoding
import MatchingEngine.Model.ItchParser

/-!
# The format of the feed

A file is a sequence of frames: two bytes with the length of the body, then the
body, whose first byte is the message type.  Numbers are big-endian, and the
fields of a message follow its type in the order of its members.
-/

namespace MatchingEngine
namespace Replay

/-! ## Writing messages -/

/-- A number in two bytes. -/
def encodeU16 (value : UInt16) : List UInt8 := BigEndian.encode 2 value.toNat

/-- A number in four bytes. -/
def encodeU32 (value : UInt32) : List UInt8 := BigEndian.encode 4 value.toNat

/-- A number in six bytes. -/
def encodeU48 (value : UInt64) : List UInt8 := BigEndian.encode 6 value.toNat

/-- A number in eight bytes. -/
def encodeU64 (value : UInt64) : List UInt8 := BigEndian.encode 8 value.toNat

/-- The fields that every message starts with. -/
def encodeHeader
    (stockLocate : StockLocate) (trackingNumber : TrackingNumber) (timestamp : Timestamp) :
    List UInt8 :=
  encodeU16 stockLocate ++ encodeU16 trackingNumber ++ encodeU48 timestamp

/-- The fields of a system event. -/
def SystemEventMessage.encode (message : SystemEventMessage) : List UInt8 :=
  encodeHeader message.stockLocate message.trackingNumber message.timestamp ++
    [message.eventCode]

/-- The fields of a stock directory entry. -/
def StockDirectoryMessage.encode (message : StockDirectoryMessage) : List UInt8 :=
  encodeHeader message.stockLocate message.trackingNumber message.timestamp ++
    message.stock.toList ++ [message.marketCategory] ++ [message.financialStatusIndicator] ++
    encodeU32 message.roundLotSize ++ [message.roundLotsOnly] ++
    [message.issueClassification] ++ message.issueSubType.toList ++ [message.authenticity] ++
    [message.shortSaleThresholdIndicator] ++ [message.ipoFlag] ++
    [message.luldReferencePriceTier] ++ [message.etpFlag] ++
    encodeU32 message.etpLeverageFactor ++ [message.inverseIndicator]

/-- The fields of an added order. -/
def AddOrderMessage.encode (message : AddOrderMessage) : List UInt8 :=
  encodeHeader message.stockLocate message.trackingNumber message.timestamp ++
    encodeU64 message.orderReferenceNumber ++ [message.buySellIndicator] ++
    encodeU32 message.shares ++ message.stock.toList ++ encodeU32 message.price

/-- The fields of an added order with its participant. -/
def AddOrderWithMPIDMessage.encode (message : AddOrderWithMPIDMessage) : List UInt8 :=
  encodeHeader message.stockLocate message.trackingNumber message.timestamp ++
    encodeU64 message.orderReferenceNumber ++ [message.buySellIndicator] ++
    encodeU32 message.shares ++ message.stock.toList ++ encodeU32 message.price ++
    message.attribution.toList

/-- The fields of an execution. -/
def OrderExecutedMessage.encode (message : OrderExecutedMessage) : List UInt8 :=
  encodeHeader message.stockLocate message.trackingNumber message.timestamp ++
    encodeU64 message.orderReferenceNumber ++ encodeU32 message.executedShares ++
    encodeU64 message.matchNumber

/-- The fields of an execution at a price of its own. -/
def OrderExecutedWithPriceMessage.encode (message : OrderExecutedWithPriceMessage) :
    List UInt8 :=
  encodeHeader message.stockLocate message.trackingNumber message.timestamp ++
    encodeU64 message.orderReferenceNumber ++ encodeU32 message.executedShares ++
    encodeU64 message.matchNumber ++ [message.printable] ++ encodeU32 message.executionPrice

/-- The fields of a partial cancellation. -/
def OrderCancelMessage.encode (message : OrderCancelMessage) : List UInt8 :=
  encodeHeader message.stockLocate message.trackingNumber message.timestamp ++
    encodeU64 message.orderReferenceNumber ++ encodeU32 message.cancelledShares

/-- The fields of a deletion. -/
def OrderDeleteMessage.encode (message : OrderDeleteMessage) : List UInt8 :=
  encodeHeader message.stockLocate message.trackingNumber message.timestamp ++
    encodeU64 message.orderReferenceNumber

/-- The fields of a replacement. -/
def OrderReplaceMessage.encode (message : OrderReplaceMessage) : List UInt8 :=
  encodeHeader message.stockLocate message.trackingNumber message.timestamp ++
    encodeU64 message.originalOrderReferenceNumber ++
    encodeU64 message.newOrderReferenceNumber ++ encodeU32 message.shares ++
    encodeU32 message.price

/-- A message without its type byte. -/
def Message.encode : Message → List UInt8
  | systemEvent message => message.encode
  | stockDirectory message => message.encode
  | addOrder message => message.encode
  | addOrderWithMPID message => message.encode
  | orderExecuted message => message.encode
  | orderExecutedWithPrice message => message.encode
  | orderCancel message => message.encode
  | orderDelete message => message.encode
  | orderReplace message => message.encode

/-! ## Writing frames -/

/-- A frame with a message that the parser handles, or with a body that it skips. -/
inductive Frame
  | handled (message : Message) (timestampRange : message.timestamp.toNat < 2 ^ 48)
  | unknown (messageType : UInt8) (payload : List UInt8)
      (unhandled : MessageType.ofCode messageType = none)
      (lengthRange : payload.length + 1 ≤ 65535)

namespace Frame

/-- The type byte and the bytes after it. -/
def body : Frame → List UInt8
  | handled message _ => message.messageType.code :: message.encode
  | unknown messageType payload _ _ => messageType :: payload

/-- The frame behind its length. -/
def bytes (frame : Frame) : List UInt8 :=
  BigEndian.encode 2 frame.body.length ++ frame.body

/-- The message of a frame, if the parser handles it. -/
def message : Frame → Option Message
  | handled message _ => some message
  | unknown .. => none

end Frame

/-! ## Reading frames -/

/-- The body of the first frame, if it is complete and not empty, and the bytes after
it. -/
def firstFrame : List UInt8 → Option (List UInt8 × List UInt8)
  | high :: low :: bytes =>
      let length := BigEndian.decode [high, low]
      if 1 ≤ length ∧ length ≤ bytes.length then
        some (bytes.take length, bytes.drop length)
      else none
  | _ => none

theorem length_of_firstFrame
    {bytes body rest : List UInt8}
    (found : firstFrame bytes = some (body, rest)) :
    rest.length < bytes.length := by
  match bytes with
  | [] | [_] => cases found
  | high :: low :: bytes =>
      simp only [firstFrame] at found
      split at found
      next bounds =>
        obtain ⟨rfl, rfl⟩ := Prod.mk.inj (Option.some.inj found)
        simp only [List.length_drop, List.length_cons]
        omega
      · cases found

/-- The bodies of the complete frames at the start of a file, in order, and the bytes
after them. -/
def completeFrames (bytes : List UInt8) : List (List UInt8) × List UInt8 :=
  match found : firstFrame bytes with
  | some (body, rest) =>
      have := length_of_firstFrame found
      let (bodies, last) := completeFrames rest
      (body :: bodies, last)
  | none => ([], bytes)
termination_by bytes.length

/-- What the parser has to do with the body of a complete frame. -/
inductive Reading
  | skip
  | deliver (message : Message)
  | stop
  deriving DecidableEq

/-- The reading of a body: a handled type of the right length and not later than the
stop time is delivered, other types are skipped. -/
def readBody (stopTimestamp : Option Timestamp) : List UInt8 → Reading
  | [] => .stop
  | messageType :: payload =>
      match MessageType.ofCode messageType with
      | none => .skip
      | some handled =>
          if payload.length + 1 ≠ handled.length.toNat then .stop
          else
            let message := (handled.decode { rest := payload }).1
            if shouldStopBefore message stopTimestamp then .stop else .deliver message

/-- The messages from a body on, given those after it. -/
def Reading.before : Reading → List Message → List Message
  | skip, later => later
  | deliver message, later => message :: later
  | stop, _ => []

/-- The messages of the bodies before the first one at which the parser stops. -/
def messagesOf (stopTimestamp : Option Timestamp) (bodies : List (List UInt8)) :
    List Message :=
  bodies.foldr (fun body later => (readBody stopTimestamp body).before later) []

/-- The messages that a file has for the engine. -/
def fileMessages (stopTimestamp : Option Timestamp) (bytes : List UInt8) : List Message :=
  messagesOf stopTimestamp (completeFrames bytes).1

end Replay
end MatchingEngine
