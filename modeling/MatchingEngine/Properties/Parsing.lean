import MatchingEngine.Model.Observation
import MatchingEngine.Refinement.Parsing

/-!
# What the parser hands to the engine

Files that consist of whole frames are parsed exactly.  A file that ends inside
a frame of a handled type is not: the parser pads the frame with zeros and hands
over the message.
-/

namespace MatchingEngine
namespace Properties

open Replay

variable {stopTimestamp : Option Timestamp}

/-- `parse` hands the messages to the replay engine, in order, and ends; and so does its
loop for any other receiver. -/
def Delivers
    (parser : ItchParser) (stopTimestamp : Option Timestamp) (messages : List Message) : Prop :=
  ∃ outcome file',
    (∀ replayEngine : ItchReplayEngine,
      parser.parse replayEngine stopTimestamp =
        (replayEngine.onMessages messages >>= fun replayEngine =>
          .ok ⟨outcome, file', replayEngine⟩)) ∧
    ∀ {σ : Type} (onMessage : σ → Message → Except Fault σ) (receiver : σ),
      parseInto onMessage stopTimestamp parser.file receiver =
        (messages.foldlM onMessage receiver >>= fun receiver => .ok ⟨outcome, file', receiver⟩)

/-- Keep a record of the messages. -/
def record (messages : List Message) (message : Message) : Except Fault (List Message) :=
  .ok (messages ++ [message])

theorem foldlM_record (messages earlier : List Message) :
    messages.foldlM record earlier = .ok (earlier ++ messages) := by
  induction messages generalizing earlier with
  | nil =>
      rw [List.append_nil]
      rfl
  | cons message messages inductionHypothesis =>
      rw [List.foldlM_cons, record, ok_bind, inductionHypothesis]
      simp

/-- The parser hands over one list of messages only. -/
theorem Delivers.unique
    {parser : ItchParser} {first second : List Message}
    (deliversFirst : Delivers parser stopTimestamp first)
    (deliversSecond : Delivers parser stopTimestamp second) :
    first = second := by
  obtain ⟨firstOutcome, firstFile, _, handsFirst⟩ := deliversFirst
  obtain ⟨secondOutcome, secondFile, _, handsSecond⟩ := deliversSecond
  have same := (handsFirst record []).symm.trans (handsSecond record [])
  rw [foldlM_record, foldlM_record] at same
  exact congrArg ParseExit.receiver (Except.ok.inj same)

theorem delivers_handedMessages (stopTimestamp : Option Timestamp) (bytes : List UInt8) :
    Delivers ⟨{ rest := bytes }⟩ stopTimestamp (handedMessages stopTimestamp bytes) := by
  obtain ⟨outcome, file', hands⟩ :=
    handsOver_handedMessages stopTimestamp (Nat.lt_succ_self bytes.length)
  exact ⟨outcome, file', hands ItchReplayEngine.onMessage, hands⟩

/-! ## Files that end inside a frame -/

/-- The file ends inside a frame of a handled type whose length is the one of its type,
no earlier frame stops the parser, and the bytes of the time that are there do not put
it after the stop time. -/
structure EndsInsideHandledFrame (stopTimestamp : Option Timestamp) (bytes : List UInt8) :
    Prop where
  reached : ∀ body ∈ (completeFrames bytes).1, readBody stopTimestamp body ≠ .stop
  cut : ∃ high low messageType payload handled,
    (completeFrames bytes).2 = high :: low :: messageType :: payload ∧
    MessageType.ofCode messageType = some handled ∧
    BigEndian.decode [high, low] = handled.length.toNat ∧
    payload.length + 1 < handled.length.toNat ∧
    ∀ stop, stopTimestamp = some stop → timestampField payload ≤ stop.toNat

theorem readCut_of_some
    {messageType : UInt8} {handled : MessageType}
    (kind : MessageType.ofCode messageType = some handled)
    (high low : UInt8) (payload : List UInt8) :
    readCut stopTimestamp (high :: low :: messageType :: payload) ≠ .stop ↔
      BigEndian.decode [high, low] = handled.length.toNat ∧
      payload.length + 1 < handled.length.toNat ∧
      ∀ stop, stopTimestamp = some stop → timestampField payload ≤ stop.toNat := by
  have inTime := (shouldStopBefore_decode handled payload stopTimestamp).not
  simp only [not_exists, not_and, not_lt] at inTime
  simp only [readCut, kind]
  rw [← inTime]
  split
  next readable => exact ⟨fun _ => readable, fun _ => by simp⟩
  next unreadable =>
    exact ⟨fun stays => absurd rfl stays, fun readable => absurd readable unreadable⟩

theorem readCut_ne_stop {last : List UInt8} :
    readCut stopTimestamp last ≠ .stop ↔
      ∃ high low messageType payload handled,
        last = high :: low :: messageType :: payload ∧
        MessageType.ofCode messageType = some handled ∧
        BigEndian.decode [high, low] = handled.length.toNat ∧
        payload.length + 1 < handled.length.toNat ∧
        ∀ stop, stopTimestamp = some stop → timestampField payload ≤ stop.toNat := by
  constructor
  · intro reads
    match last with
    | [] | [_] | [_, _] => exact absurd rfl reads
    | high :: low :: messageType :: payload =>
        cases kind : MessageType.ofCode messageType with
        | none => exact absurd (by simp only [readCut, kind]) reads
        | some handled =>
            exact ⟨high, low, messageType, payload, handled, rfl, kind,
              (readCut_of_some kind high low payload).mp reads⟩
  · rintro ⟨high, low, messageType, payload, handled, rfl, kind, readable⟩
    exact (readCut_of_some kind high low payload).mpr readable

theorem readCut_before (last : List UInt8) :
    (readCut stopTimestamp last).before [] = [] ↔ readCut stopTimestamp last = .stop := by
  have neverSkips : readCut stopTimestamp last ≠ .skip := by
    match last with
    | [] | [_] | [_, _] => exact Reading.noConfusion
    | high :: low :: messageType :: payload =>
        cases kind : MessageType.ofCode messageType with
        | none => simp only [readCut, kind, ne_eq, reduceCtorEq, not_false_eq_true]
        | some handled =>
            simp only [readCut, kind]
            split <;> exact Reading.noConfusion
  cases reading : readCut stopTimestamp last <;> simp_all [Reading.before]

theorem endsInsideHandledFrame_iff (bytes : List UInt8) :
    EndsInsideHandledFrame stopTimestamp bytes ↔
      (∀ body ∈ (completeFrames bytes).1, readBody stopTimestamp body ≠ .stop) ∧
        readCut stopTimestamp (completeFrames bytes).2 ≠ .stop := by
  rw [readCut_ne_stop]
  exact ⟨fun ends => ⟨ends.reached, ends.cut⟩, fun ends => ⟨ends.1, ends.2⟩⟩

/-- Messages after the last body are handed over when no body stops the parser. -/
theorem foldr_before
    (stopTimestamp : Option Timestamp) (bodies : List (List UInt8)) (later : List Message) :
    bodies.foldr (fun body later => (readBody stopTimestamp body).before later) later =
      messagesOf stopTimestamp bodies ++
        if ∀ body ∈ bodies, readBody stopTimestamp body ≠ .stop then later else [] := by
  induction bodies with
  | nil => simp [messagesOf]
  | cons body bodies inductionHypothesis =>
      unfold messagesOf at inductionHypothesis ⊢
      rw [List.foldr_cons, List.foldr_cons, inductionHypothesis]
      simp only [List.forall_mem_cons]
      cases readBody stopTimestamp body <;> simp [Reading.before]

theorem delivers_fileMessages_iff (stopTimestamp : Option Timestamp) (bytes : List UInt8) :
    Delivers ⟨{ rest := bytes }⟩ stopTimestamp (fileMessages stopTimestamp bytes) ↔
      ¬ EndsInsideHandledFrame stopTimestamp bytes := by
  have hands := delivers_handedMessages stopTimestamp bytes
  have split := foldr_before stopTimestamp (completeFrames bytes).1
    ((readCut stopTimestamp (completeFrames bytes).2).before [])
  rw [endsInsideHandledFrame_iff, not_and, not_not, ← readCut_before]
  constructor
  · intro delivers reached
    have same : handedMessages stopTimestamp bytes = fileMessages stopTimestamp bytes :=
      hands.unique delivers
    rw [handedMessages, split, if_pos reached] at same
    exact List.append_right_eq_self.mp same
  · intro noCut
    have same : handedMessages stopTimestamp bytes = fileMessages stopTimestamp bytes := by
      rw [handedMessages, split, fileMessages, List.append_right_eq_self]
      split
      next reached => exact noCut reached
      next => rfl
    rwa [← same]

/-- For a file of any bytes the parser ends, and it hands over exactly the messages of the
complete frames unless the file ends inside a frame of a handled type. -/
theorem complete_frames_only (stopTimestamp : Option Timestamp) (bytes : List UInt8) :
    (∃ messages, Delivers ⟨{ rest := bytes }⟩ stopTimestamp messages) ∧
    (Delivers ⟨{ rest := bytes }⟩ stopTimestamp (fileMessages stopTimestamp bytes) ↔
      ¬ EndsInsideHandledFrame stopTimestamp bytes) :=
  ⟨⟨_, delivers_handedMessages stopTimestamp bytes⟩,
    delivers_fileMessages_iff stopTimestamp bytes⟩

/-! ## A file that ends inside a frame

A directory message for symbol A, an order with reference number 256, and a frame
that deletes order 257 but lacks its last byte. -/

/-- The complete frames of the file. -/
def cutFrames : List Frame :=
  [.handled (.stockDirectory sampleDirectory) (by decide),
    .handled (.addOrder
      { stockLocate := 1, trackingNumber := 0, timestamp := 2, orderReferenceNumber := 256
        buySellIndicator := 66, shares := 5, stock := sampleDirectory.stock
        price := 3 }) (by decide)]

/-- A deletion whose last byte is missing. -/
def cutDelete : List UInt8 :=
  [0, 19, 68, 0, 1, 0, 0, 0, 0, 0, 0, 0, 3, 0, 0, 0, 0, 0, 0, 1]

/-- The bytes of the file. -/
def cutFile : List UInt8 := cutFrames.flatMap Frame.bytes ++ cutDelete

/-- A book for prices from 0 to 4, for symbol A. -/
def cutEngine : Except Fault ItchReplayEngine :=
  ItchReplayEngine.create [65]
    (OrderBook.fivePrices 2 OrderBook.sampleConfig.initialPoolSizeRange)

theorem completeFrames_cutFile :
    completeFrames cutFile = (cutFrames.map Frame.body, cutDelete) :=
  completeFrames_append (by decide) cutFrames

theorem fileMessages_cutFile :
    fileMessages none cutFile = cutFrames.filterMap Frame.message := by
  rw [fileMessages, completeFrames_cutFile, messagesOf_frames]
  rfl

theorem cutFile_ends : EndsInsideHandledFrame none cutFile where
  reached := by
    rw [completeFrames_cutFile]
    intro body member
    obtain ⟨frame, _, rfl⟩ := List.mem_map.mp member
    rw [readBody_body]
    cases frame.message <;> exact Reading.noConfusion
  cut := ⟨0, 19, 68, [0, 1, 0, 0, 0, 0, 0, 0, 0, 3, 0, 0, 0, 0, 0, 0, 1], .orderDelete, by
    rw [completeFrames_cutFile]
    rfl, by decide, by decide, by decide, by simp⟩

/-- The cut frame is handed over, as a message that deletes order 256. -/
theorem cut_frame_applied :
    ¬ Delivers ⟨{ rest := cutFile }⟩ none (fileMessages none cutFile) ∧
    (do
      let engine ← cutEngine
      let engine ← engine.onMessages (fileMessages none cutFile)
      .ok engine.ob.getNumOrders) = .ok 1 ∧
    (do
      let engine ← cutEngine
      let exit ← ItchParser.parse ⟨{ rest := cutFile }⟩ engine none
      .ok exit.receiver.ob.getNumOrders) = .ok 0 := by
  refine ⟨fun delivers => (delivers_fileMessages_iff none cutFile).mp delivers cutFile_ends,
    ?_, ?_⟩
  · rw [fileMessages_cutFile]
    decide +kernel
  · decide +kernel

/-! ## Encoded files -/

/-- A file of encoded frames is parsed to the messages of its frames, up to the first one
after the stop time, and every decoder consumes the length that is demanded of its
type, less the type byte. -/
theorem encoded_frames_delivered (stopTimestamp : Option Timestamp) (frames : List Frame) :
    Delivers ⟨{ rest := frames.flatMap Frame.bytes }⟩ stopTimestamp
      ((frames.filterMap Frame.message).takeWhile fun message =>
        !shouldStopBefore message stopTimestamp) ∧
    ∀ (handled : MessageType) (messageLength : UInt16) (bytes : List UInt8),
      unexpectedMessageLength messageLength handled.code = false →
      messageLength.toNat - 1 ≤ bytes.length →
      (handled.decode { rest := bytes }).2 = { rest := bytes.drop (messageLength.toNat - 1) } := by
  constructor
  · have hands := delivers_handedMessages stopTimestamp (frames.flatMap Frame.bytes)
    have complete := completeFrames_append (show firstFrame [] = none from rfl) frames
    rw [List.append_nil] at complete
    rw [handedMessages, complete] at hands
    rw [← messagesOf_frames]
    exact hands
  · intro handled messageLength bytes expected enough
    simp only [unexpectedMessageLength, MessageType.ofCode_code, bne_eq_false_iff_eq] at expected
    subst expected
    rw [fixedWidth_decode handled { rest := bytes }, InputStream.advance_of_le enough]

end Properties
end MatchingEngine
