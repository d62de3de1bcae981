import MatchingEngine.Library.BigEndian
import MatchingEngine.Model.ItchMessages

/-!
# Decoding messages from a stream

The file stream of the source has the characters that are still to be extracted
and two state bits.  A read that meets the end of the stream stores what there
is into its zero-initialised buffer and sets both bits; a read from a stream
with a bit set stores nothing.  The decoders read field after field and do not
look at the bits.
-/

namespace MatchingEngine
namespace Replay

/-- `std::ifstream`. -/
structure InputStream where
  rest : List UInt8
  eofbit : Bool := false
  failbit : Bool := false
  deriving DecidableEq

namespace InputStream

/-- Neither bit is set. -/
def good (file : InputStream) : Bool := !file.eofbit && !file.failbit

/-- The result of `!file`. -/
def failed (file : InputStream) : Bool := file.failbit

/-- `read`: the characters that are stored, and the stream after it. -/
def read (count : Nat) (file : InputStream) : List UInt8 × InputStream :=
  if !file.good then ([], { file with failbit := true })
  else if count ≤ file.rest.length then
    (file.rest.take count, { file with rest := file.rest.drop count })
  else (file.rest, { rest := [], eofbit := true, failbit := true })

/-- `ignore`, which does not fail at the end of the stream. -/
def ignore (count : Nat) (file : InputStream) : InputStream :=
  if !file.good then { file with failbit := true }
  else if count ≤ file.rest.length then { file with rest := file.rest.drop count }
  else { file with rest := [], eofbit := true }

end InputStream

/-- Functions that read from a stream. -/
abbrev Decoder := StateM InputStream

/-- Read into a zero-initialised buffer. -/
def readBuffer (size : Nat) : Decoder (List UInt8) := fun file =>
  let (stored, file) := file.read size
  (stored.takeD size 0, file)

/-- A buffer as one number: `value |= buffer[i] << shift`, with the first byte
shifted the farthest. -/
def assembleBuffer (buffer : List UInt8) : Nat :=
  BigEndian.assemble (8 * (buffer.length - 1)) buffer 0

/-- The two bytes before a message. -/
def getMessageLength : Decoder UInt16 := do
  let messageLengthBuffer ← readBuffer 2
  return UInt16.ofNat (assembleBuffer messageLengthBuffer)

/-- A number of two bytes. -/
def readU16Be : Decoder UInt16 := do
  let buffer ← readBuffer 2
  return UInt16.ofNat (assembleBuffer buffer)

/-- A number of four bytes. -/
def readU32Be : Decoder UInt32 := do
  let buffer ← readBuffer 4
  return UInt32.ofNat (assembleBuffer buffer)

/-- A number of six bytes, a timestamp. -/
def readU48Be : Decoder UInt64 := do
  let buffer ← readBuffer 6
  return UInt64.ofNat (assembleBuffer buffer)

/-- A number of eight bytes. -/
def readU64Be : Decoder UInt64 := do
  let buffer ← readBuffer 8
  return UInt64.ofNat (assembleBuffer buffer)

/-- One character. -/
def readChar : Decoder UInt8 := do
  let buffer ← readBuffer 1
  return buffer.headD 0

/-- The type byte of a message. -/
def getMessageType : Decoder UInt8 := do
  let messageTypeBuffer ← readBuffer 1
  return messageTypeBuffer.headD 0

/-- A text of fixed length. -/
def readAlphaArray (size : Nat) : Decoder (Vector UInt8 size) := do
  let value ← readBuffer size
  return Vector.ofFn fun i => value.getD i 0

/-- The length that a message of a type must have, its type byte included. -/
def MessageType.length : MessageType → UInt16
  | systemEvent => 12
  | stockDirectory => 39
  | addOrder => 36
  | addOrderWithMPID => 40
  | orderExecuted => 31
  | orderExecutedWithPrice => 36
  | orderCancel => 23
  | orderDelete => 19
  | orderReplace => 35

/-- A handled type has another length than the one announced.  Types that are not handled
may have any length. -/
def unexpectedMessageLength (messageLength : UInt16) (messageType : UInt8) : Bool :=
  match MessageType.ofCode messageType with
  | some handled => messageLength != handled.length
  | none => false

/-! ## Messages -/

/-- A system event. -/
def decodeSTypeMessage : Decoder SystemEventMessage := do
  let stockLocate ← readU16Be
  let trackingNumber ← readU16Be
  let timestamp ← readU48Be
  let eventCode ← readChar
  return { stockLocate, trackingNumber, timestamp, eventCode }

/-- A stock directory entry. -/
def decodeRTypeMessage : Decoder StockDirectoryMessage := do
  let stockLocate ← readU16Be
  let trackingNumber ← readU16Be
  let timestamp ← readU48Be
  let stock ← readAlphaArray 8
  let marketCategory ← readChar
  let financialStatusIndicator ← readChar
  let roundLotSize ← readU32Be
  let roundLotsOnly ← readChar
  let issueClassification ← readChar
  let issueSubType ← readAlphaArray 2
  let authenticity ← readChar
  let shortSaleThresholdIndicator ← readChar
  let ipoFlag ← readChar
  let luldReferencePriceTier ← readChar
  let etpFlag ← readChar
  let etpLeverageFactor ← readU32Be
  let inverseIndicator ← readChar
  return {
    stockLocate, trackingNumber, timestamp, stock, marketCategory, financialStatusIndicator,
    roundLotSize, roundLotsOnly, issueClassification, issueSubType, authenticity,
    shortSaleThresholdIndicator, ipoFlag, luldReferencePriceTier, etpFlag, etpLeverageFactor,
    inverseIndicator }

/-- An added order. -/
def decodeATypeMessage : Decoder AddOrderMessage := do
  let stockLocate ← readU16Be
  let trackingNumber ← readU16Be
  let timestamp ← readU48Be
  let orderReferenceNumber ← readU64Be
  let buySellIndicator ← readChar
  let shares ← readU32Be
  let stock ← readAlphaArray 8
  let price ← readU32Be
  return {
    stockLocate, trackingNumber, timestamp, orderReferenceNumber, buySellIndicator, shares,
    stock, price }

/-- An added order with the participant who added it. -/
def decodeFTypeMessage : Decoder AddOrderWithMPIDMessage := do
  let stockLocate ← readU16Be
  let trackingNumber ← readU16Be
  let timestamp ← readU48Be
  let orderReferenceNumber ← readU64Be
  let buySellIndicator ← readChar
  let shares ← readU32Be
  let stock ← readAlphaArray 8
  let price ← readU32Be
  let attribution ← readAlphaArray 4
  return {
    stockLocate, trackingNumber, timestamp, orderReferenceNumber, buySellIndicator, shares,
    stock, price, attribution }

/-- An execution at the price of the order. -/
def decodeETypeMessage : Decoder OrderExecutedMessage := do
  let stockLocate ← readU16Be
  let trackingNumber ← readU16Be
  let timestamp ← readU48Be
  let orderReferenceNumber ← readU64Be
  let executedShares ← readU32Be
  let matchNumber ← readU64Be
  return {
    stockLocate, trackingNumber, timestamp, orderReferenceNumber, executedShares, matchNumber }

/-- An execution at a price of its own. -/
def decodeCTypeMessage : Decoder OrderExecutedWithPriceMessage := do
  let stockLocate ← readU16Be
  let trackingNumber ← readU16Be
  let timestamp ← readU48Be
  let orderReferenceNumber ← readU64Be
  let executedShares ← readU32Be
  let matchNumber ← readU64Be
  let printable ← readChar
  let executionPrice ← readU32Be
  return {
    stockLocate, trackingNumber, timestamp, orderReferenceNumber, executedShares, matchNumber,
    printable, executionPrice }

/-- A partial cancellation. -/
def decodeXTypeMessage : Decoder OrderCancelMessage := do
  let stockLocate ← readU16Be
  let trackingNumber ← readU16Be
  let timestamp ← readU48Be
  let orderReferenceNumber ← readU64Be
  let cancelledShares ← readU32Be
  return { stockLocate, trackingNumber, timestamp, orderReferenceNumber, cancelledShares }

/-- A deletion. -/
def decodeDTypeMessage : Decoder OrderDeleteMessage := do
  let stockLocate ← readU16Be
  let trackingNumber ← readU16Be
  let timestamp ← readU48Be
  let orderReferenceNumber ← readU64Be
  return { stockLocate, trackingNumber, timestamp, orderReferenceNumber }

/-- A replacement. -/
def decodeUTypeMessage : Decoder OrderReplaceMessage := do
  let stockLocate ← readU16Be
  let trackingNumber ← readU16Be
  let timestamp ← readU48Be
  let originalOrderReferenceNumber ← readU64Be
  let newOrderReferenceNumber ← readU64Be
  let shares ← readU32Be
  let price ← readU32Be
  return {
    stockLocate, trackingNumber, timestamp, originalOrderReferenceNumber,
    newOrderReferenceNumber, shares, price }

/-- The decoder that the `case` of a message type calls. -/
def MessageType.decode : MessageType → Decoder Message
  | systemEvent => return .systemEvent (← decodeSTypeMessage)
  | stockDirectory => return .stockDirectory (← decodeRTypeMessage)
  | addOrder => return .addOrder (← decodeATypeMessage)
  | addOrderWithMPID => return .addOrderWithMPID (← decodeFTypeMessage)
  | orderExecuted => return .orderExecuted (← decodeETypeMessage)
  | orderExecutedWithPrice => return .orderExecutedWithPrice (← decodeCTypeMessage)
  | orderCancel => return .orderCancel (← decodeXTypeMessage)
  | orderDelete => return .orderDelete (← decodeDTypeMessage)
  | orderReplace => return .orderReplace (← decodeUTypeMessage)

end Replay
end MatchingEngine
