import MatchingEngine.Reference.ItchEncoding

/-!
# Decoders read fixed numbers of bytes

A decoder of some width sees that many bytes of the stream, with zeros in place
of the bytes that are missing, and leaves the stream as one read of that width
leaves it.  The property is kept by sequencing, so it holds of the decoders of
all messages, and a decoder can be run on the bytes that it sees alone.
-/

namespace MatchingEngine
namespace Replay

variable {α β : Type}

/-! ## Streams -/

/-- Padding to a width that is split pads the two parts. -/
theorem takeD_add (first second : Nat) (bytes : List UInt8) :
    bytes.takeD (first + second) 0 =
      bytes.takeD first 0 ++ (bytes.drop first).takeD second 0 := by
  induction first generalizing bytes with
  | zero => simp
  | succ first inductionHypothesis =>
      rw [Nat.succ_add, List.takeD, List.takeD, inductionHypothesis, List.cons_append,
        List.drop_tail]

namespace InputStream

/-- The bytes that a read can still get. -/
def available (file : InputStream) : List UInt8 := if file.good then file.rest else []

/-- The stream after a read. -/
def advance (count : Nat) (file : InputStream) : InputStream := (file.read count).2

theorem available_of_good (bytes : List UInt8) :
    available { rest := bytes } = bytes := rfl

theorem read_fst (count : Nat) (file : InputStream) :
    (file.read count).1 = file.available.take count := by
  unfold read available
  cases file.good with
  | false => simp
  | true =>
      by_cases enough : count ≤ file.rest.length
      · simp [enough]
      · simp [enough, List.take_of_length_le (not_le.mp enough).le]

theorem advance_of_le
    {count : Nat} {bytes : List UInt8}
    (enough : count ≤ bytes.length) :
    advance count { rest := bytes } = { rest := bytes.drop count } := by
  simp [advance, read, good, enough]

theorem advance_of_lt
    {count : Nat} {bytes : List UInt8}
    (short : bytes.length < count) :
    advance count { rest := bytes } = { rest := [], eofbit := true, failbit := true } := by
  simp [advance, read, good, not_le.mpr short]

theorem available_advance (count : Nat) (file : InputStream) :
    (file.advance count).available = file.available.drop count := by
  unfold advance read available
  cases isGood : file.good with
  | false => simp [good]
  | true =>
      by_cases enough : count ≤ file.rest.length
      · simp only [Bool.not_true, Bool.false_eq_true, if_false, enough, if_true]
        exact if_pos isGood
      · simp [enough, good, List.drop_of_length_le (not_le.mp enough).le]

/-- Two reads in a row leave the stream as one read of both widths. -/
theorem advance_advance (first second : Nat) (file : InputStream) :
    (file.advance first).advance second = file.advance (first + second) := by
  obtain ⟨rest, eofbit, failbit⟩ := file
  cases eofbit <;> cases failbit <;> try rfl
  by_cases enough : first ≤ rest.length
  · rw [advance_of_le enough]
    by_cases both : first + second ≤ rest.length
    · rw [advance_of_le both, advance_of_le (by simp; omega), List.drop_drop]
    · rw [advance_of_lt (not_le.mp both), advance_of_lt (by simp; omega)]
  · rw [advance_of_lt (not_le.mp enough), advance_of_lt (by omega)]
    rfl

end InputStream

/-- A sequence of decoders runs the second one on the stream that the first one leaves. -/
theorem bind_apply
    (decoder : Decoder α) (continuation : α → Decoder β) (file : InputStream) :
    (decoder >>= continuation) file = continuation (decoder file).1 (decoder file).2 := rfl

theorem pure_apply (value : α) (file : InputStream) :
    (pure value : Decoder α) file = (value, file) := rfl

theorem map_of_eq
    {decoder : Decoder α} {file after : InputStream} {value : α}
    (decoded : decoder file = (value, after))
    (function : α → β) :
    (decoder >>= fun value => pure (function value)) file = (function value, after) := by
  rw [bind_apply, decoded, pure_apply]

/-- A decoder that sees the next `width` bytes, with zeros in place of missing ones. -/
def FixedWidth (width : Nat) (decoder : Decoder α) : Prop :=
  ∀ file : InputStream,
    decoder file =
      ((decoder { rest := file.available.takeD width 0 }).1, file.advance width)

namespace FixedWidth

theorem bind
    {first second : Nat} {decoder : Decoder α} {continuation : α → Decoder β}
    (fixed : FixedWidth first decoder)
    (fixedAfter : ∀ value, FixedWidth second (continuation value)) :
    FixedWidth (first + second) (decoder >>= continuation) := by
  intro file
  have onBytes : (decoder >>= continuation)
      { rest := file.available.takeD (first + second) 0 } =
        continuation (decoder { rest := file.available.takeD first 0 }).1
          { rest := (file.available.drop first).takeD second 0 } := by
    rw [takeD_add]
    have firstPart := fixed
      { rest := file.available.takeD first 0 ++ (file.available.drop first).takeD second 0 }
    rw [InputStream.available_of_good, List.takeD_left' (List.takeD_length ..),
      InputStream.advance_of_le (by simp), List.drop_left' (List.takeD_length ..)] at firstPart
    rw [bind_apply, firstPart]
  calc
    (decoder >>= continuation) file =
        continuation (decoder { rest := file.available.takeD first 0 }).1
          (file.advance first) := by
      rw [bind_apply, fixed file]
    _ = ((continuation (decoder { rest := file.available.takeD first 0 }).1
          { rest := (file.available.drop first).takeD second 0 }).1,
        file.advance (first + second)) := by
      rw [fixedAfter _ (file.advance first), InputStream.available_advance,
        InputStream.advance_advance]
    _ = _ := by
      rw [onBytes]

theorem map
    {width : Nat} {decoder : Decoder α}
    (fixed : FixedWidth width decoder)
    (function : α → β) :
    FixedWidth width (decoder >>= fun value => pure (function value)) := by
  intro file
  rw [bind_apply, fixed file]
  rfl

end FixedWidth

/-- Padding what is stored pads what is there. -/
theorem takeD_take (width : Nat) (bytes : List UInt8) :
    (bytes.take width).takeD width 0 = bytes.takeD width 0 := by
  induction width generalizing bytes with
  | zero => rfl
  | succ width inductionHypothesis =>
      cases bytes with
      | nil => rfl
      | cons byte bytes => simp [inductionHypothesis]

theorem takeD_takeD (width : Nat) (bytes : List UInt8) :
    (bytes.takeD width 0).takeD width 0 = bytes.takeD width 0 := by
  have whole : (bytes.takeD width 0 ++ []).takeD width 0 = bytes.takeD width 0 :=
    List.takeD_left' (List.takeD_length ..)
  rwa [List.append_nil] at whole

theorem readBuffer_fst (size : Nat) (file : InputStream) :
    (readBuffer size file).1 = file.available.takeD size 0 := by
  change (file.read size).1.takeD size 0 = _
  rw [InputStream.read_fst, takeD_take]

theorem fixedWidth_readBuffer (size : Nat) : FixedWidth size (readBuffer size) := by
  intro file
  refine Prod.ext ?_ rfl
  rw [readBuffer_fst, readBuffer_fst, InputStream.available_of_good, takeD_takeD]

/-! ## Fields -/

theorem fixedWidth_getMessageLength : FixedWidth 2 getMessageLength :=
  (fixedWidth_readBuffer 2).map _

theorem fixedWidth_readU16Be : FixedWidth 2 readU16Be := (fixedWidth_readBuffer 2).map _

theorem fixedWidth_readU32Be : FixedWidth 4 readU32Be := (fixedWidth_readBuffer 4).map _

theorem fixedWidth_readU48Be : FixedWidth 6 readU48Be := (fixedWidth_readBuffer 6).map _

theorem fixedWidth_readU64Be : FixedWidth 8 readU64Be := (fixedWidth_readBuffer 8).map _

theorem fixedWidth_readChar : FixedWidth 1 readChar := (fixedWidth_readBuffer 1).map _

theorem fixedWidth_readAlphaArray (size : Nat) : FixedWidth size (readAlphaArray size) :=
  (fixedWidth_readBuffer size).map _

/-- The bytes of a buffer that is there are read as they are. -/
theorem readBuffer_append
    {size : Nat} {bytes : List UInt8}
    (exact : bytes.length = size)
    (more : List UInt8) :
    readBuffer size { rest := bytes ++ more } = (bytes, { rest := more }) := by
  subst exact
  have enough : bytes.length ≤ (bytes ++ more).length := by simp
  have after := InputStream.advance_of_le enough
  rw [List.drop_left] at after
  refine Prod.ext ?_ after
  rw [readBuffer_fst, InputStream.available_of_good, List.takeD_left]

theorem assembleBuffer_encode
    {width value : Nat}
    (range : value < 256 ^ width) :
    assembleBuffer (BigEndian.encode width value) = value := by
  rw [assembleBuffer, BigEndian.assemble_zero, BigEndian.decode_encode, Nat.mod_eq_of_lt range]

section Fields

variable (more : List UInt8)

theorem readU16Be_bind (value : UInt16) (continuation : UInt16 → Decoder α) :
    (readU16Be >>= continuation) { rest := encodeU16 value ++ more } =
      continuation value { rest := more } := by
  unfold readU16Be encodeU16
  rw [bind_apply, bind_apply, readBuffer_append (BigEndian.length_encode ..), pure_apply,
    assembleBuffer_encode value.toNat_lt, UInt16.ofNat_toNat]

theorem readU32Be_bind (value : UInt32) (continuation : UInt32 → Decoder α) :
    (readU32Be >>= continuation) { rest := encodeU32 value ++ more } =
      continuation value { rest := more } := by
  unfold readU32Be encodeU32
  rw [bind_apply, bind_apply, readBuffer_append (BigEndian.length_encode ..), pure_apply,
    assembleBuffer_encode value.toNat_lt, UInt32.ofNat_toNat]

theorem readU48Be_bind
    {value : UInt64}
    (range : value.toNat < 2 ^ 48)
    (continuation : UInt64 → Decoder α) :
    (readU48Be >>= continuation) { rest := encodeU48 value ++ more } =
      continuation value { rest := more } := by
  unfold readU48Be encodeU48
  rw [bind_apply, bind_apply, readBuffer_append (BigEndian.length_encode ..), pure_apply,
    assembleBuffer_encode range, UInt64.ofNat_toNat]

theorem readU64Be_bind (value : UInt64) (continuation : UInt64 → Decoder α) :
    (readU64Be >>= continuation) { rest := encodeU64 value ++ more } =
      continuation value { rest := more } := by
  unfold readU64Be encodeU64
  rw [bind_apply, bind_apply, readBuffer_append (BigEndian.length_encode ..), pure_apply,
    assembleBuffer_encode value.toNat_lt, UInt64.ofNat_toNat]

theorem readChar_bind (value : UInt8) (continuation : UInt8 → Decoder α) :
    (readChar >>= continuation) { rest := value :: more } = continuation value { rest := more } :=
  rfl

theorem readAlphaArray_bind
    {size : Nat} (value : Vector UInt8 size) (continuation : Vector UInt8 size → Decoder α) :
    (readAlphaArray size >>= continuation) { rest := value.toList ++ more } =
      continuation value { rest := more } := by
  unfold readAlphaArray
  have elements : (Vector.ofFn fun index : Fin size => value.toList.getD index 0) = value := by
    ext index inside
    simp
  rw [bind_apply, bind_apply, readBuffer_append (Vector.length_toList ..), pure_apply, elements]

end Fields

/-! ## Messages -/

/-- All decoders start with the same three fields. -/
theorem FixedWidth.header
    {width : Nat}
    {continuation : StockLocate → TrackingNumber → Timestamp → Decoder α}
    (fixed : ∀ stockLocate trackingNumber timestamp,
      FixedWidth width (continuation stockLocate trackingNumber timestamp)) :
    FixedWidth (2 + (2 + (6 + width)))
      (readU16Be >>= fun stockLocate => readU16Be >>= fun trackingNumber =>
        readU48Be >>= continuation stockLocate trackingNumber) :=
  fixedWidth_readU16Be.bind fun stockLocate => fixedWidth_readU16Be.bind fun trackingNumber =>
    fixedWidth_readU48Be.bind (fixed stockLocate trackingNumber)

/-- Every decoder reads the length that the parser demands for its type, less the type
byte. -/
theorem fixedWidth_decode (handled : MessageType) :
    FixedWidth (handled.length.toNat - 1) handled.decode := by
  cases handled with
  | systemEvent =>
      exact FixedWidth.map (.header fun _ _ _ => fixedWidth_readChar.map _) _
  | stockDirectory =>
      exact FixedWidth.map (.header fun _ _ _ =>
        (fixedWidth_readAlphaArray 8).bind fun _ => fixedWidth_readChar.bind fun _ =>
        fixedWidth_readChar.bind fun _ => fixedWidth_readU32Be.bind fun _ =>
        fixedWidth_readChar.bind fun _ => fixedWidth_readChar.bind fun _ =>
        (fixedWidth_readAlphaArray 2).bind fun _ => fixedWidth_readChar.bind fun _ =>
        fixedWidth_readChar.bind fun _ => fixedWidth_readChar.bind fun _ =>
        fixedWidth_readChar.bind fun _ => fixedWidth_readChar.bind fun _ =>
        fixedWidth_readU32Be.bind fun _ => fixedWidth_readChar.map _) _
  | addOrder =>
      exact FixedWidth.map (.header fun _ _ _ =>
        fixedWidth_readU64Be.bind fun _ => fixedWidth_readChar.bind fun _ =>
        fixedWidth_readU32Be.bind fun _ => (fixedWidth_readAlphaArray 8).bind fun _ =>
        fixedWidth_readU32Be.map _) _
  | addOrderWithMPID =>
      exact FixedWidth.map (.header fun _ _ _ =>
        fixedWidth_readU64Be.bind fun _ => fixedWidth_readChar.bind fun _ =>
        fixedWidth_readU32Be.bind fun _ => (fixedWidth_readAlphaArray 8).bind fun _ =>
        fixedWidth_readU32Be.bind fun _ => (fixedWidth_readAlphaArray 4).map _) _
  | orderExecuted =>
      exact FixedWidth.map (.header fun _ _ _ =>
        fixedWidth_readU64Be.bind fun _ => fixedWidth_readU32Be.bind fun _ =>
        fixedWidth_readU64Be.map _) _
  | orderExecutedWithPrice =>
      exact FixedWidth.map (.header fun _ _ _ =>
        fixedWidth_readU64Be.bind fun _ => fixedWidth_readU32Be.bind fun _ =>
        fixedWidth_readU64Be.bind fun _ => fixedWidth_readChar.bind fun _ =>
        fixedWidth_readU32Be.map _) _
  | orderCancel =>
      exact FixedWidth.map (.header fun _ _ _ =>
        fixedWidth_readU64Be.bind fun _ => fixedWidth_readU32Be.map _) _
  | orderDelete =>
      exact FixedWidth.map (.header fun _ _ _ => fixedWidth_readU64Be.map _) _
  | orderReplace =>
      exact FixedWidth.map (.header fun _ _ _ =>
        fixedWidth_readU64Be.bind fun _ => fixedWidth_readU64Be.bind fun _ =>
        fixedWidth_readU32Be.bind fun _ => fixedWidth_readU32Be.map _) _

section Encoded

variable (more : List UInt8)

/-- The common fields are read back by the readers of the common fields. -/
theorem header_encode
    (stockLocate : StockLocate) (trackingNumber : TrackingNumber) {timestamp : Timestamp}
    (range : timestamp.toNat < 2 ^ 48)
    (continuation : StockLocate → TrackingNumber → Timestamp → Decoder α) :
    (readU16Be >>= fun stockLocate => readU16Be >>= fun trackingNumber =>
        readU48Be >>= continuation stockLocate trackingNumber)
      { rest := encodeHeader stockLocate trackingNumber timestamp ++ more } =
      continuation stockLocate trackingNumber timestamp { rest := more } := by
  simp only [encodeHeader, List.append_assoc, readU16Be_bind, readU48Be_bind _ range]

theorem decodeSTypeMessage_encode
    (message : SystemEventMessage)
    (range : message.timestamp.toNat < 2 ^ 48) :
    decodeSTypeMessage { rest := message.encode ++ more } = (message, { rest := more }) := by
  unfold decodeSTypeMessage SystemEventMessage.encode
  simp only [List.append_assoc, List.cons_append, List.nil_append]
  rw [header_encode _ _ _ range]
  simp only [readChar_bind, pure_apply]

theorem decodeRTypeMessage_encode
    (message : StockDirectoryMessage)
    (range : message.timestamp.toNat < 2 ^ 48) :
    decodeRTypeMessage { rest := message.encode ++ more } = (message, { rest := more }) := by
  unfold decodeRTypeMessage StockDirectoryMessage.encode
  simp only [List.append_assoc, List.cons_append, List.nil_append]
  rw [header_encode _ _ _ range]
  simp only [readU32Be_bind, readChar_bind, readAlphaArray_bind, pure_apply]

theorem decodeATypeMessage_encode
    (message : AddOrderMessage)
    (range : message.timestamp.toNat < 2 ^ 48) :
    decodeATypeMessage { rest := message.encode ++ more } = (message, { rest := more }) := by
  unfold decodeATypeMessage AddOrderMessage.encode
  simp only [List.append_assoc, List.cons_append, List.nil_append]
  rw [header_encode _ _ _ range]
  simp only [readU32Be_bind, readU64Be_bind, readChar_bind,
    readAlphaArray_bind, pure_apply]

theorem decodeFTypeMessage_encode
    (message : AddOrderWithMPIDMessage)
    (range : message.timestamp.toNat < 2 ^ 48) :
    decodeFTypeMessage { rest := message.encode ++ more } = (message, { rest := more }) := by
  unfold decodeFTypeMessage AddOrderWithMPIDMessage.encode
  simp only [List.append_assoc, List.cons_append, List.nil_append]
  rw [header_encode _ _ _ range]
  simp only [readU32Be_bind, readU64Be_bind, readChar_bind,
    readAlphaArray_bind, pure_apply]

theorem decodeETypeMessage_encode
    (message : OrderExecutedMessage)
    (range : message.timestamp.toNat < 2 ^ 48) :
    decodeETypeMessage { rest := message.encode ++ more } = (message, { rest := more }) := by
  unfold decodeETypeMessage OrderExecutedMessage.encode
  simp only [List.append_assoc]
  rw [header_encode _ _ _ range]
  simp only [readU32Be_bind, readU64Be_bind, pure_apply]

theorem decodeCTypeMessage_encode
    (message : OrderExecutedWithPriceMessage)
    (range : message.timestamp.toNat < 2 ^ 48) :
    decodeCTypeMessage { rest := message.encode ++ more } = (message, { rest := more }) := by
  unfold decodeCTypeMessage OrderExecutedWithPriceMessage.encode
  simp only [List.append_assoc, List.cons_append, List.nil_append]
  rw [header_encode _ _ _ range]
  simp only [readU32Be_bind, readU64Be_bind, readChar_bind, pure_apply]

theorem decodeXTypeMessage_encode
    (message : OrderCancelMessage)
    (range : message.timestamp.toNat < 2 ^ 48) :
    decodeXTypeMessage { rest := message.encode ++ more } = (message, { rest := more }) := by
  unfold decodeXTypeMessage OrderCancelMessage.encode
  simp only [List.append_assoc]
  rw [header_encode _ _ _ range]
  simp only [readU32Be_bind, readU64Be_bind, pure_apply]

theorem decodeDTypeMessage_encode
    (message : OrderDeleteMessage)
    (range : message.timestamp.toNat < 2 ^ 48) :
    decodeDTypeMessage { rest := message.encode ++ more } = (message, { rest := more }) := by
  unfold decodeDTypeMessage OrderDeleteMessage.encode
  simp only [List.append_assoc]
  rw [header_encode _ _ _ range]
  simp only [readU64Be_bind, pure_apply]

theorem decodeUTypeMessage_encode
    (message : OrderReplaceMessage)
    (range : message.timestamp.toNat < 2 ^ 48) :
    decodeUTypeMessage { rest := message.encode ++ more } = (message, { rest := more }) := by
  unfold decodeUTypeMessage OrderReplaceMessage.encode
  simp only [List.append_assoc]
  rw [header_encode _ _ _ range]
  simp only [readU32Be_bind, readU64Be_bind, pure_apply]

/-- Decoding undoes encoding. -/
theorem decode_encode
    (message : Message)
    (range : message.timestamp.toNat < 2 ^ 48) :
    message.messageType.decode { rest := message.encode ++ more } =
      (message, { rest := more }) := by
  cases message with
  | systemEvent message => exact map_of_eq (decodeSTypeMessage_encode more message range) _
  | stockDirectory message => exact map_of_eq (decodeRTypeMessage_encode more message range) _
  | addOrder message => exact map_of_eq (decodeATypeMessage_encode more message range) _
  | addOrderWithMPID message => exact map_of_eq (decodeFTypeMessage_encode more message range) _
  | orderExecuted message => exact map_of_eq (decodeETypeMessage_encode more message range) _
  | orderExecutedWithPrice message =>
      exact map_of_eq (decodeCTypeMessage_encode more message range) _
  | orderCancel message => exact map_of_eq (decodeXTypeMessage_encode more message range) _
  | orderDelete message => exact map_of_eq (decodeDTypeMessage_encode more message range) _
  | orderReplace message => exact map_of_eq (decodeUTypeMessage_encode more message range) _

/-- A message is as long as the parser demands. -/
theorem length_encode (message : Message) :
    message.encode.length + 1 = message.messageType.length.toNat := by
  cases message <;>
    simp [Message.encode, SystemEventMessage.encode, StockDirectoryMessage.encode,
      AddOrderMessage.encode, AddOrderWithMPIDMessage.encode, OrderExecutedMessage.encode,
      OrderExecutedWithPriceMessage.encode, OrderCancelMessage.encode,
      OrderDeleteMessage.encode, OrderReplaceMessage.encode, encodeHeader, encodeU16, encodeU32,
      encodeU48, encodeU64] <;>
    rfl

end Encoded

end Replay
end MatchingEngine
