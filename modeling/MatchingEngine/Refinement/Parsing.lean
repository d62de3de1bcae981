import Mathlib.Data.List.TakeWhile
import MatchingEngine.Refinement.Decoding

/-!
# The parser reads frames

One iteration of the parser reads one frame.  It handles the bodies of complete
frames as the format says; at the end of the file it may find a frame that is
cut short, and when that frame is of a handled type, the parser decodes what is
there, padded with zeros, before it looks at the state of its file.
-/

namespace MatchingEngine
namespace Replay

/-! ## The time of a message -/

/-- The bytes of a payload that hold the time, with zeros in place of missing ones. -/
def timestampField (payload : List UInt8) : Nat :=
  BigEndian.decode ((payload.drop 4).takeD 6 0)

theorem timestamp_decode (handled : MessageType) (payload : List UInt8) :
    (handled.decode { rest := payload }).1.timestamp.toNat = timestampField payload := by
  have third : (handled.decode { rest := payload }).1.timestamp =
      (readU48Be (readU16Be (readU16Be { rest := payload }).2).2).1 := by
    cases handled <;> rfl
  have skipped : ∀ file : InputStream, (readU16Be file).2 = file.advance 2 := fun file =>
    congrArg Prod.snd (fixedWidth_readU16Be file)
  have buffer : (readBuffer 6 (InputStream.advance 4 { rest := payload })).1 =
      (payload.drop 4).takeD 6 0 := by
    rw [readBuffer_fst, InputStream.available_advance, InputStream.available_of_good]
  have range := BigEndian.decode_lt ((payload.drop 4).takeD 6 0)
  rw [List.takeD_length] at range
  rw [third, skipped, skipped, InputStream.advance_advance, readU48Be, bind_apply, pure_apply,
    buffer, assembleBuffer, BigEndian.assemble_zero]
  exact UInt64.toNat_ofNat_of_lt' (range.trans (by decide))

/-- A message that has been decoded is late when its time is after the stop time. -/
theorem shouldStopBefore_decode
    (handled : MessageType) (payload : List UInt8) (stopTimestamp : Option Timestamp) :
    shouldStopBefore (handled.decode { rest := payload }).1 stopTimestamp = true ↔
      ∃ stop, stopTimestamp = some stop ∧ stop.toNat < timestampField payload := by
  rw [← timestamp_decode handled payload]
  cases stopTimestamp with
  | none => simp [shouldStopBefore]
  | some stop => simp [shouldStopBefore, UInt64.lt_iff_toNat_lt]

/-! ## One iteration -/

theorem getMessageLength_cons (high low : UInt8) (bytes : List UInt8) :
    getMessageLength { rest := high :: low :: bytes } =
      (UInt16.ofNat (BigEndian.decode [high, low]), { rest := bytes }) := by
  have buffer : readBuffer 2 { rest := [high, low] ++ bytes } =
      ([high, low], { rest := bytes }) :=
    @readBuffer_append 2 [high, low] rfl bytes
  unfold getMessageLength
  rw [bind_apply, show high :: low :: bytes = [high, low] ++ bytes from rfl, buffer, pure_apply,
    assembleBuffer, BigEndian.assemble_zero]

theorem getMessageLength_short
    {bytes : List UInt8}
    (short : bytes.length < 2) :
    (getMessageLength { rest := bytes }).2.failed = true := by
  rw [fixedWidth_getMessageLength { rest := bytes }, InputStream.advance_of_lt short]
  rfl

theorem getMessageType_cons (messageType : UInt8) (bytes : List UInt8) :
    getMessageType { rest := messageType :: bytes } = (messageType, { rest := bytes }) := rfl

/-- Two bytes make a number below `2 ^ 16`. -/
theorem decode_pair_lt (high low : UInt8) : BigEndian.decode [high, low] < 65536 := by
  simpa using BigEndian.decode_lt [high, low]

section Loop

variable {σ : Type} (onMessage : σ → Message → Except Fault σ)
variable (stopTimestamp : Option Timestamp)

/-- An iteration that finds a length and a type. -/
theorem parseLoop_frame
    (fuel : Nat) (high low messageType : UInt8) (payload : List UInt8) (receiver : σ) :
    parseLoop onMessage stopTimestamp (fuel + 1)
        { rest := high :: low :: messageType :: payload } receiver =
      if BigEndian.decode [high, low] = 0 then
        .ok ⟨.returned, { rest := messageType :: payload }, receiver⟩
      else
        match MessageType.ofCode messageType with
        | some handled =>
            if BigEndian.decode [high, low] ≠ handled.length.toNat then
              .ok ⟨.runtimeError "Unexpected ITCH message length.", { rest := payload },
                receiver⟩
            else
              let decoded := handled.decode { rest := payload }
              if shouldStopBefore decoded.1 stopTimestamp then
                .ok ⟨.returned, decoded.2, receiver⟩
              else do
                let receiver ← onMessage receiver decoded.1
                if decoded.2.failed then .ok ⟨.returned, decoded.2, receiver⟩
                else parseLoop onMessage stopTimestamp fuel decoded.2 receiver
        | none =>
            let file := InputStream.ignore (BigEndian.decode [high, low] - 1) { rest := payload }
            if file.failed then .ok ⟨.returned, file, receiver⟩
            else parseLoop onMessage stopTimestamp fuel file receiver := by
  have range := decode_pair_lt high low
  have value : (UInt16.ofNat (BigEndian.decode [high, low])).toNat =
      BigEndian.decode [high, low] :=
    UInt16.toNat_ofNat_of_lt' range
  have zero : UInt16.ofNat (BigEndian.decode [high, low]) = 0 ↔
      BigEndian.decode [high, low] = 0 := by
    rw [← UInt16.toNat_inj, value]
    rfl
  rw [parseLoop, getMessageLength_cons]
  cases kind : MessageType.ofCode messageType with
  | none =>
      simp only [InputStream.failed, Bool.false_eq_true, if_false, zero, getMessageType_cons,
        unexpectedMessageLength, kind, value]
      rfl
  | some handled =>
      have unexpected : (UInt16.ofNat (BigEndian.decode [high, low]) != handled.length) =
          true ↔ BigEndian.decode [high, low] ≠ handled.length.toNat := by
        rw [bne_iff_ne, ne_eq, ← UInt16.toNat_inj, value]
      simp only [InputStream.failed, Bool.false_eq_true, if_false, zero, getMessageType_cons,
        unexpectedMessageLength, kind, unexpected]
      rfl

end Loop

/-! ## The frames of a file -/

theorem completeFrames_of_some
    {bytes body rest : List UInt8}
    (found : firstFrame bytes = some (body, rest)) :
    completeFrames bytes = (body :: (completeFrames rest).1, (completeFrames rest).2) := by
  rw [completeFrames]
  split
  next body' rest' found' =>
    obtain ⟨rfl, rfl⟩ := Prod.mk.inj (Option.some.inj (found.symm.trans found'))
    rfl
  next missing =>
    rw [missing] at found
    cases found

theorem completeFrames_of_none
    {bytes : List UInt8}
    (missing : firstFrame bytes = none) :
    completeFrames bytes = ([], bytes) := by
  rw [completeFrames]
  split
  next found =>
    rw [missing] at found
    cases found
  next => rfl

theorem firstFrame_complete
    {high low messageType : UInt8} {payload : List UInt8}
    (nonempty : BigEndian.decode [high, low] ≠ 0)
    (complete : BigEndian.decode [high, low] ≤ payload.length + 1) :
    firstFrame (high :: low :: messageType :: payload) =
      some (messageType :: payload.take (BigEndian.decode [high, low] - 1),
        payload.drop (BigEndian.decode [high, low] - 1)) := by
  obtain ⟨length, equal⟩ := Nat.exists_eq_succ_of_ne_zero nonempty
  simp only [firstFrame, List.length_cons]
  rw [if_pos ⟨Nat.one_le_iff_ne_zero.mpr nonempty, complete⟩, equal]
  rfl

theorem firstFrame_cut
    {high low : UInt8} {bytes : List UInt8}
    (cut : BigEndian.decode [high, low] = 0 ∨ bytes.length < BigEndian.decode [high, low]) :
    firstFrame (high :: low :: bytes) = none := by
  simp only [firstFrame]
  rw [if_neg (by omega)]

theorem readBody_of_none
    {messageType : UInt8} (stopTimestamp : Option Timestamp) (payload : List UInt8)
    (kind : MessageType.ofCode messageType = none) :
    readBody stopTimestamp (messageType :: payload) = .skip := by
  simp only [readBody, kind]

theorem readBody_of_some
    {messageType : UInt8} {handled : MessageType}
    (stopTimestamp : Option Timestamp) (payload : List UInt8)
    (kind : MessageType.ofCode messageType = some handled) :
    readBody stopTimestamp (messageType :: payload) =
      if payload.length + 1 ≠ handled.length.toNat then .stop
      else if shouldStopBefore (handled.decode { rest := payload }).1 stopTimestamp then .stop
      else .deliver (handled.decode { rest := payload }).1 := by
  simp only [readBody, kind]

/-- What the parser makes of a frame of a handled type that the end of the file cuts
short. -/
def readCut (stopTimestamp : Option Timestamp) : List UInt8 → Reading
  | high :: low :: messageType :: payload =>
      match MessageType.ofCode messageType with
      | some handled =>
          let message := (handled.decode { rest := payload }).1
          if BigEndian.decode [high, low] = handled.length.toNat ∧
              payload.length + 1 < handled.length.toNat ∧
              ¬ shouldStopBefore message stopTimestamp then
            .deliver message
          else .stop
      | none => .stop
  | _ => .stop

/-- The messages that the parser hands over: those of complete frames, and then the one
of a frame that is cut short. -/
def handedMessages (stopTimestamp : Option Timestamp) (bytes : List UInt8) : List Message :=
  (completeFrames bytes).1.foldr
    (fun body later => (readBody stopTimestamp body).before later)
    ((readCut stopTimestamp (completeFrames bytes).2).before [])

/-- Some iterations of the parser hand the messages over, whoever receives them. -/
def HandsOver
    (stopTimestamp : Option Timestamp) (fuel : Nat) (file : InputStream)
    (messages : List Message) : Prop :=
  ∃ outcome file', ∀ {σ : Type} (onMessage : σ → Message → Except Fault σ) (receiver : σ),
    parseLoop onMessage stopTimestamp fuel file receiver =
      (messages.foldlM onMessage receiver >>= fun receiver => .ok ⟨outcome, file', receiver⟩)

section HandsOver

variable {stopTimestamp : Option Timestamp} {fuel : Nat} {file next : InputStream}
variable {message : Message} {messages : List Message}

theorem HandsOver.nothing
    (outcome : ParseOutcome) (file' : InputStream)
    (ends : ∀ {σ : Type} (onMessage : σ → Message → Except Fault σ) (receiver : σ),
      parseLoop onMessage stopTimestamp fuel file receiver = .ok ⟨outcome, file', receiver⟩) :
    HandsOver stopTimestamp fuel file [] :=
  ⟨outcome, file', fun onMessage receiver => ends onMessage receiver⟩

theorem HandsOver.skip
    (skips : ∀ {σ : Type} (onMessage : σ → Message → Except Fault σ) (receiver : σ),
      parseLoop onMessage stopTimestamp (fuel + 1) file receiver =
        parseLoop onMessage stopTimestamp fuel next receiver)
    (later : HandsOver stopTimestamp fuel next messages) :
    HandsOver stopTimestamp (fuel + 1) file messages := by
  obtain ⟨outcome, file', hands⟩ := later
  exact ⟨outcome, file', fun onMessage receiver =>
    (skips onMessage receiver).trans (hands onMessage receiver)⟩

theorem HandsOver.deliver
    (delivers : ∀ {σ : Type} (onMessage : σ → Message → Except Fault σ) (receiver : σ),
      parseLoop onMessage stopTimestamp (fuel + 1) file receiver =
        (onMessage receiver message >>= parseLoop onMessage stopTimestamp fuel next))
    (later : HandsOver stopTimestamp fuel next messages) :
    HandsOver stopTimestamp (fuel + 1) file (message :: messages) := by
  obtain ⟨outcome, file', hands⟩ := later
  refine ⟨outcome, file', fun onMessage receiver => ?_⟩
  rw [delivers, List.foldlM_cons]
  cases onMessage receiver message with
  | error fault => rfl
  | ok received => exact hands onMessage received

/-- A parser whose file is at its end hands nothing over. -/
theorem HandsOver.of_failed
    (failed : (getMessageLength file).2.failed = true) :
    HandsOver stopTimestamp (fuel + 1) file [] :=
  .nothing .returned (getMessageLength file).2 fun onMessage receiver => by
    rw [parseLoop]
    exact if_pos failed

/-- An iteration that finds a frame with all of its bytes. -/
theorem handsOver_complete
    {high low messageType : UInt8} {payload : List UInt8}
    (nonempty : BigEndian.decode [high, low] ≠ 0)
    (complete : BigEndian.decode [high, low] ≤ payload.length + 1)
    (later : HandsOver stopTimestamp fuel
      { rest := payload.drop (BigEndian.decode [high, low] - 1) } messages) :
    HandsOver stopTimestamp (fuel + 1) { rest := high :: low :: messageType :: payload }
      ((readBody stopTimestamp
        (messageType :: payload.take (BigEndian.decode [high, low] - 1))).before messages) := by
  cases kind : MessageType.ofCode messageType with
  | none =>
      rw [readBody_of_none _ _ kind]
      refine .skip (fun onMessage receiver => ?_) later
      have skipped : InputStream.ignore (BigEndian.decode [high, low] - 1) { rest := payload } =
          { rest := payload.drop (BigEndian.decode [high, low] - 1) } := by
        simp [InputStream.ignore, InputStream.good]
        omega
      rw [parseLoop_frame, if_neg nonempty]
      simp only [kind, skipped]
      rfl
  | some handled =>
      have taken : (payload.take (BigEndian.decode [high, low] - 1)).length + 1 =
          BigEndian.decode [high, low] := by
        rw [List.length_take]
        omega
      rw [readBody_of_some _ _ kind, taken]
      by_cases unexpected : BigEndian.decode [high, low] ≠ handled.length.toNat
      · rw [if_pos unexpected]
        refine .nothing (.runtimeError "Unexpected ITCH message length.") { rest := payload }
          fun onMessage receiver => ?_
        rw [parseLoop_frame, if_neg nonempty]
        simp only [kind]
        rw [if_pos unexpected]
      · have expected := not_not.mp unexpected
        have enough : handled.length.toNat - 1 ≤ payload.length := by omega
        have decoded := fixedWidth_decode handled { rest := payload }
        rw [InputStream.available_of_good, List.takeD_eq_take _ enough,
          InputStream.advance_of_le enough] at decoded
        rw [expected] at later
        rw [if_neg unexpected, expected]
        by_cases late : shouldStopBefore
            (handled.decode { rest := payload.take (handled.length.toNat - 1) }).1 stopTimestamp
        · rw [if_pos late]
          refine .nothing .returned { rest := payload.drop (handled.length.toNat - 1) }
            fun onMessage receiver => ?_
          rw [parseLoop_frame, if_neg nonempty]
          simp only [kind, decoded]
          rw [if_neg unexpected, if_pos late]
        · rw [if_neg late]
          refine .deliver (fun onMessage receiver => ?_) later
          rw [parseLoop_frame, if_neg nonempty]
          simp only [kind, decoded]
          rw [if_neg unexpected, if_neg late]
          rfl

/-- An iteration that finds a frame whose bytes end too early. -/
theorem handsOver_cut
    {high low messageType : UInt8} {payload : List UInt8}
    (cut : payload.length + 1 < BigEndian.decode [high, low])
    (more : 0 < fuel) :
    HandsOver stopTimestamp (fuel + 1) { rest := high :: low :: messageType :: payload }
      ((readCut stopTimestamp (high :: low :: messageType :: payload)).before []) := by
  have nonempty : BigEndian.decode [high, low] ≠ 0 := by omega
  cases kind : MessageType.ofCode messageType with
  | none =>
      obtain ⟨fuel, rfl⟩ := Nat.exists_eq_succ_of_ne_zero more.ne'
      have skipped : InputStream.ignore (BigEndian.decode [high, low] - 1) { rest := payload } =
          { rest := [], eofbit := true } := by
        simp [InputStream.ignore, InputStream.good]
        omega
      simp only [readCut, kind]
      refine .skip (fun onMessage receiver => ?_)
        (HandsOver.of_failed (show (getMessageLength { rest := [], eofbit := true }).2.failed =
          true from rfl))
      rw [parseLoop_frame, if_neg nonempty]
      simp only [kind, skipped]
      rfl
  | some handled =>
      simp only [readCut, kind]
      by_cases unexpected : BigEndian.decode [high, low] ≠ handled.length.toNat
      · rw [if_neg fun readable => unexpected readable.1]
        refine .nothing (.runtimeError "Unexpected ITCH message length.") { rest := payload }
          fun onMessage receiver => ?_
        rw [parseLoop_frame, if_neg nonempty]
        simp only [kind]
        rw [if_pos unexpected]
      · have expected := not_not.mp unexpected
        have decoded := (fixedWidth_decode handled { rest := payload })
        have short : payload.length < handled.length.toNat - 1 := by omega
        have after : (handled.decode { rest := payload }).2 =
            { rest := [], eofbit := true, failbit := true } := by
          rw [decoded]
          exact InputStream.advance_of_lt short
        by_cases late : shouldStopBefore (handled.decode { rest := payload }).1 stopTimestamp
        · rw [if_neg fun readable => readable.2.2 late]
          refine .nothing .returned (handled.decode { rest := payload }).2
            fun onMessage receiver => ?_
          rw [parseLoop_frame, if_neg nonempty]
          simp only [kind]
          rw [if_neg unexpected, if_pos late]
        · rw [if_pos ⟨expected, by omega, late⟩]
          refine ⟨.returned, { rest := [], eofbit := true, failbit := true },
            fun onMessage receiver => ?_⟩
          rw [parseLoop_frame, if_neg nonempty]
          simp only [kind, after]
          rw [if_neg unexpected, if_neg late]
          simp only [Reading.before, List.foldlM_cons, List.foldlM_nil, bind_pure]
          rfl

/-- An iteration that finds a length and no type. -/
theorem handsOver_pair (high low : UInt8) :
    HandsOver stopTimestamp (fuel + 1) { rest := [high, low] } [] := by
  by_cases empty : UInt16.ofNat (BigEndian.decode [high, low]) = 0
  · refine .nothing .returned { rest := [] } fun onMessage receiver => ?_
    rw [parseLoop, getMessageLength_cons]
    exact if_pos empty
  · refine .nothing .returned (getMessageType { rest := [] }).2 fun onMessage receiver => ?_
    rw [parseLoop, getMessageLength_cons]
    exact if_neg empty

/-- An iteration that finds a length of zero. -/
theorem handsOver_empty
    {high low messageType : UInt8} {payload : List UInt8}
    (empty : BigEndian.decode [high, low] = 0) :
    HandsOver stopTimestamp (fuel + 1) { rest := high :: low :: messageType :: payload }
      ((readCut stopTimestamp (high :: low :: messageType :: payload)).before []) := by
  have noMessage : readCut stopTimestamp (high :: low :: messageType :: payload) = .stop := by
    simp only [readCut]
    cases MessageType.ofCode messageType with
    | none => rfl
    | some handled =>
        refine if_neg fun readable => ?_
        rw [empty] at readable
        exact absurd (readable.1 ▸ readable.2.1) (Nat.not_lt_zero _)
  rw [noMessage]
  refine .nothing .returned { rest := messageType :: payload } fun onMessage receiver => ?_
  rw [parseLoop_frame, if_pos empty]

end HandsOver

/-- The parser hands over the messages of the complete frames, and then the one that it
makes of a frame that is cut short. -/
theorem handsOver_handedMessages
    (stopTimestamp : Option Timestamp) {fuel : Nat} {bytes : List UInt8}
    (enough : bytes.length < fuel) :
    HandsOver stopTimestamp fuel { rest := bytes } (handedMessages stopTimestamp bytes) := by
  induction fuel generalizing bytes with
  | zero => cases enough
  | succ fuel inductionHypothesis =>
      match bytes with
      | [] | [_] =>
          unfold handedMessages
          rw [completeFrames_of_none rfl]
          exact .of_failed (getMessageLength_short (by simp))
      | [high, low] =>
          have missing : firstFrame [high, low] = none :=
            firstFrame_cut (Nat.eq_zero_or_pos _)
          unfold handedMessages
          rw [completeFrames_of_none missing]
          exact handsOver_pair high low
      | high :: low :: messageType :: payload =>
          by_cases empty : BigEndian.decode [high, low] = 0
          · unfold handedMessages
            rw [completeFrames_of_none (firstFrame_cut (Or.inl empty))]
            exact handsOver_empty empty
          · by_cases complete : BigEndian.decode [high, low] ≤ payload.length + 1
            · unfold handedMessages
              rw [completeFrames_of_some (firstFrame_complete empty complete)]
              refine handsOver_complete empty complete (inductionHypothesis ?_)
              simp only [List.length_cons, List.length_drop] at enough ⊢
              omega
            · unfold handedMessages
              have cut := not_le.mp complete
              have missing : firstFrame (high :: low :: messageType :: payload) = none :=
                firstFrame_cut (Or.inr (by simpa using cut))
              rw [completeFrames_of_none missing]
              refine handsOver_cut cut ?_
              simp only [List.length_cons] at enough
              omega

/-! ## Encoded frames -/

theorem decode_encode_pair
    {length : Nat}
    (range : length ≤ 65535) :
    BigEndian.decode (BigEndian.encode 2 length) = length := by
  rw [BigEndian.decode_encode]
  exact Nat.mod_eq_of_lt (Nat.lt_succ_of_le range)

theorem Frame.length_body (frame : Frame) :
    1 ≤ frame.body.length ∧ frame.body.length ≤ 65535 := by
  cases frame with
  | handled message timestampRange =>
      rw [Frame.body, List.length_cons, length_encode]
      cases message.messageType <;> decide
  | unknown messageType payload unhandled lengthRange =>
      exact ⟨Nat.succ_le_succ (Nat.zero_le _), lengthRange⟩

/-- The first frame of a file that starts with an encoded frame. -/
theorem firstFrame_bytes (frame : Frame) (more : List UInt8) :
    firstFrame (frame.bytes ++ more) = some (frame.body, more) := by
  obtain ⟨nonempty, range⟩ := frame.length_body
  have length := decode_encode_pair range
  obtain ⟨high, low, encoded⟩ : ∃ high low,
      BigEndian.encode 2 frame.body.length = [high, low] := ⟨_, _, rfl⟩
  rw [encoded] at length
  rw [Frame.bytes, encoded]
  simp only [List.cons_append, List.nil_append, firstFrame, length]
  rw [if_pos ⟨nonempty, by simp⟩, List.take_left, List.drop_left]

theorem completeFrames_append
    {last : List UInt8}
    (missing : firstFrame last = none)
    (frames : List Frame) :
    completeFrames (frames.flatMap Frame.bytes ++ last) = (frames.map Frame.body, last) := by
  induction frames with
  | nil => exact completeFrames_of_none missing
  | cons frame frames inductionHypothesis =>
      rw [List.flatMap_cons, List.append_assoc, completeFrames_of_some (firstFrame_bytes ..),
        inductionHypothesis]
      rfl

/-- The body of an encoded frame is read as its message. -/
theorem readBody_body (stopTimestamp : Option Timestamp) (frame : Frame) :
    readBody stopTimestamp frame.body =
      match frame.message with
      | some message =>
          if shouldStopBefore message stopTimestamp then .stop else .deliver message
      | none => .skip := by
  cases frame with
  | handled message timestampRange =>
      have decoded := decode_encode [] message timestampRange
      rw [List.append_nil] at decoded
      rw [Frame.body, readBody_of_some _ _ message.messageType.ofCode_code, length_encode,
        if_neg (not_not.mpr rfl), decoded]
      rfl
  | unknown messageType payload unhandled lengthRange =>
      exact readBody_of_none _ _ unhandled

/-- The messages of encoded frames. -/
theorem messagesOf_frames (stopTimestamp : Option Timestamp) (frames : List Frame) :
    messagesOf stopTimestamp (frames.map Frame.body) =
      (frames.filterMap Frame.message).takeWhile fun message =>
        !shouldStopBefore message stopTimestamp := by
  induction frames with
  | nil => rfl
  | cons frame frames inductionHypothesis =>
      unfold messagesOf at inductionHypothesis ⊢
      rw [List.map_cons, List.foldr_cons, inductionHypothesis, readBody_body,
        List.filterMap_cons]
      cases frame.message with
      | none => rfl
      | some message =>
          cases late : shouldStopBefore message stopTimestamp <;>
            simp [Reading.before, late]

/-! ## Where the parser stops -/

section Position

variable {stopTimestamp : Option Timestamp} {fuel : Nat} {σ : Type}
variable (onMessage : σ → Message → Except Fault σ) (receiver : σ)

/-- The length in front of an encoded frame. -/
theorem Frame.exists_length (frame : Frame) :
    ∃ high low, frame.bytes = high :: low :: frame.body ∧
      BigEndian.decode [high, low] = frame.body.length :=
  ⟨_, _, rfl, decode_encode_pair frame.length_body.2⟩

/-- A handled frame is consumed before the parser decides to stop. -/
theorem parseLoop_handled
    (message : Message) (range : message.timestamp.toNat < 2 ^ 48) (more : List UInt8) :
    parseLoop onMessage stopTimestamp (fuel + 1)
        { rest := (Frame.handled message range).bytes ++ more } receiver =
      if shouldStopBefore message stopTimestamp then
        .ok ⟨.returned, { rest := more }, receiver⟩
      else onMessage receiver message >>=
        parseLoop onMessage stopTimestamp fuel { rest := more } := by
  obtain ⟨high, low, bytes, length⟩ := (Frame.handled message range).exists_length
  have expected : BigEndian.decode [high, low] = message.messageType.length.toNat := by
    rw [length, Frame.body, List.length_cons, length_encode]
  have nonempty : BigEndian.decode [high, low] ≠ 0 := by
    have positive := (Frame.handled message range).length_body.1
    omega
  rw [bytes, Frame.body, List.cons_append, List.cons_append, List.cons_append, parseLoop_frame,
    if_neg nonempty]
  simp only [message.messageType.ofCode_code, decode_encode more message range]
  rw [if_neg (not_not.mpr expected)]
  rfl

theorem parseLoop_unknown
    {messageType : UInt8} {payload : List UInt8}
    (unhandled : MessageType.ofCode messageType = none)
    (range : payload.length + 1 ≤ 65535) (more : List UInt8) :
    parseLoop onMessage stopTimestamp (fuel + 1)
        { rest := (Frame.unknown messageType payload unhandled range).bytes ++ more } receiver =
      parseLoop onMessage stopTimestamp fuel { rest := more } receiver := by
  obtain ⟨high, low, bytes, length⟩ :=
    (Frame.unknown messageType payload unhandled range).exists_length
  have expected : BigEndian.decode [high, low] = payload.length + 1 := length
  have skipped : InputStream.ignore (BigEndian.decode [high, low] - 1)
      { rest := payload ++ more } = { rest := more } := by
    simp [InputStream.ignore, InputStream.good, expected]
  rw [bytes, Frame.body, List.cons_append, List.cons_append, List.cons_append, parseLoop_frame,
    if_neg (by omega)]
  simp only [unhandled, skipped]
  rfl

end Position

/-- The parser hands the messages over, and returns with its file at the given place. -/
def ReadsTo
    (stopTimestamp : Option Timestamp) (fuel : Nat) (file : InputStream)
    (messages : List Message) (file' : InputStream) : Prop :=
  ∀ {σ : Type} (onMessage : σ → Message → Except Fault σ) (receiver : σ),
    parseLoop onMessage stopTimestamp fuel file receiver =
      (messages.foldlM onMessage receiver >>= fun receiver => .ok ⟨.returned, file', receiver⟩)

/-- What may follow the last frame of a file: nothing, or a frame of length zero. -/
def Closes (closing : List UInt8) : Prop := closing = [] ∨ closing = [0, 0]

/-- The messages that are handed over up to a stop time. -/
def handedBefore (stopTimestamp : Option Timestamp) (messages : List Message) : List Message :=
  messages.takeWhile fun message => !shouldStopBefore message stopTimestamp

/-- The messages after the one that has been read to decide to stop. -/
def leftAfter (stopTimestamp : Option Timestamp) (messages : List Message) : List Message :=
  (messages.dropWhile fun message => !shouldStopBefore message stopTimestamp).tail

/-- Nothing can be read from a file any more, or it has these messages left. -/
def Leaves (closing : List UInt8) (file : InputStream) (messages : List Message) : Prop :=
  ((getMessageLength file).2.failed = true ∧ messages = []) ∨
    ∃ frames : List Frame, file = { rest := frames.flatMap Frame.bytes ++ closing } ∧
      frames.filterMap Frame.message = messages

section ReadsTo

variable {stopTimestamp : Option Timestamp} {fuel : Nat} {closing : List UInt8}

theorem readsTo_of_failed
    {file : InputStream}
    (failed : (getMessageLength file).2.failed = true) :
    ReadsTo stopTimestamp (fuel + 1) file [] (getMessageLength file).2 := by
  intro σ onMessage receiver
  rw [parseLoop]
  exact if_pos failed

/-- At the end of the frames the parser returns, and finds nothing later. -/
theorem readsTo_closing (closes : Closes closing) :
    ∃ file', ReadsTo stopTimestamp (fuel + 1) { rest := closing } [] file' ∧
      (getMessageLength file').2.failed = true ∧ file'.rest = [] := by
  rcases closes with rfl | rfl
  · exact ⟨_, readsTo_of_failed rfl, rfl, rfl⟩
  · exact ⟨{ rest := [] }, fun onMessage receiver => rfl, rfl, rfl⟩

/-- A parser on encoded frames hands over the messages before the first late one, and
leaves those after it.  When none is late it reads its file to the end. -/
theorem readsTo_frames
    (closes : Closes closing)
    {frames : List Frame}
    (enough : frames.length < fuel) :
    ∃ file',
      ReadsTo stopTimestamp fuel { rest := frames.flatMap Frame.bytes ++ closing }
        (handedBefore stopTimestamp (frames.filterMap Frame.message)) file' ∧
      Leaves closing file' (leftAfter stopTimestamp (frames.filterMap Frame.message)) ∧
      ((∀ message ∈ frames.filterMap Frame.message,
          shouldStopBefore message stopTimestamp = false) →
        file'.rest = []) := by
  induction frames generalizing fuel with
  | nil =>
      obtain ⟨fuel, rfl⟩ := Nat.exists_eq_succ_of_ne_zero (Nat.ne_of_gt enough)
      obtain ⟨file', reads, finished, atEnd⟩ := readsTo_closing closes
      exact ⟨file', reads, Or.inl ⟨finished, rfl⟩, fun _ => atEnd⟩
  | cons frame frames inductionHypothesis =>
      obtain ⟨fuel, rfl⟩ := Nat.exists_eq_succ_of_ne_zero (Nat.ne_of_gt (Nat.zero_lt_of_lt enough))
      obtain ⟨file', reads, leaves, atEnd⟩ :=
        inductionHypothesis (Nat.lt_of_succ_lt_succ enough)
      rw [List.flatMap_cons, List.append_assoc]
      cases frame with
      | unknown messageType payload unhandled range =>
          refine ⟨file', fun onMessage receiver => ?_, leaves, atEnd⟩
          rw [parseLoop_unknown]
          exact reads onMessage receiver
      | handled message range =>
          rw [List.filterMap_cons_some (show (Frame.handled message range).message = _ from rfl),
            handedBefore, leftAfter, List.takeWhile_cons, List.dropWhile_cons]
          cases late : shouldStopBefore message stopTimestamp with
          | true =>
              refine ⟨{ rest := frames.flatMap Frame.bytes ++ closing },
                fun onMessage receiver => ?_, Or.inr ⟨frames, rfl, rfl⟩, fun noneLate => ?_⟩
              case refine_2 => cases late.symm.trans (noneLate message List.mem_cons_self)
              rw [parseLoop_handled, if_pos late]
              rfl
          | false =>
              refine ⟨file', fun onMessage receiver => ?_, leaves, fun noneLate =>
                atEnd fun other later => noneLate other (List.mem_cons_of_mem _ later)⟩
              rw [parseLoop_handled, if_neg (by simp [late])]
              simp only [Bool.not_false, if_true, List.foldlM_cons]
              cases onMessage receiver message with
              | error fault => rfl
              | ok received => exact reads onMessage received

/-- `parseInto` counts enough iterations for every frame. -/
theorem length_le_bytes (frames : List Frame) :
    frames.length ≤ (frames.flatMap Frame.bytes).length := by
  induction frames with
  | nil => exact Nat.le_refl 0
  | cons frame frames inductionHypothesis =>
      have positive := frame.length_body.1
      simp only [List.flatMap_cons, List.length_append, List.length_cons, Frame.bytes]
      omega

/-- What one call hands over, and what it leaves. -/
theorem parseInto_frames
    (closes : Closes closing) (stopTimestamp : Option Timestamp) (frames : List Frame) :
    ∃ file',
      ReadsTo stopTimestamp ((frames.flatMap Frame.bytes ++ closing).length + 1)
        { rest := frames.flatMap Frame.bytes ++ closing }
        (handedBefore stopTimestamp (frames.filterMap Frame.message)) file' ∧
      Leaves closing file' (leftAfter stopTimestamp (frames.filterMap Frame.message)) ∧
      ((∀ message ∈ frames.filterMap Frame.message,
          shouldStopBefore message stopTimestamp = false) →
        file'.rest = []) := by
  refine readsTo_frames closes ?_
  have shorter := length_le_bytes frames
  rw [List.length_append]
  omega

end ReadsTo

/-- A file of whole frames has their messages up to the stop time. -/
theorem handedMessages_frames (stopTimestamp : Option Timestamp) (frames : List Frame) :
    handedMessages stopTimestamp (frames.flatMap Frame.bytes) =
      handedBefore stopTimestamp (frames.filterMap Frame.message) := by
  have complete := completeFrames_append (show firstFrame [] = none from rfl) frames
  rw [List.append_nil] at complete
  rw [handedMessages, complete]
  exact messagesOf_frames stopTimestamp frames

/-- Without a stop time a file of whole frames is its messages for the engine, and is read
to its end. -/
theorem parse_frames (engine : ItchReplayEngine) (frames : List Frame) :
    ∃ file', file'.rest = [] ∧
      ItchParser.parse ⟨{ rest := frames.flatMap Frame.bytes }⟩ engine none =
        engine.onMessages (frames.filterMap Frame.message) >>= fun replayEngine =>
          .ok ⟨.returned, file', replayEngine⟩ := by
  have all : handedBefore none (frames.filterMap Frame.message) =
      frames.filterMap Frame.message :=
    List.takeWhile_eq_self_iff.mpr fun message _ => rfl
  obtain ⟨file', reads, _, atEnd⟩ := parseInto_frames (Or.inl rfl) none frames
  rw [List.append_nil, all] at reads
  exact ⟨file', atEnd fun _ _ => rfl, reads ItchReplayEngine.onMessage engine⟩

end Replay
end MatchingEngine
