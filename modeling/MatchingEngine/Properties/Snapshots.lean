import MatchingEngine.Library.Transport
import MatchingEngine.Properties.Parsing

/-!
# A snapshot in the middle of a replay

To decide that a message is later than the stop time the parser reads it, and it
keeps its place in the file between calls.  The message that ends a call is
therefore lost to the next one.
-/

namespace MatchingEngine
namespace Properties

open Replay
open Transports (map_ok map_then then_map)

/-! ## Taking a list up in the middle -/

section Resume

variable {α : Type*} {early inTime : α → Bool}

theorem takeWhile_eq_nil (items : List α) :
    items.takeWhile inTime = [] ↔ ∀ next ∈ items.head?, inTime next = false := by
  cases items with
  | nil => simp
  | cons item items =>
      rw [List.takeWhile_cons]
      cases isInTime : inTime item <;> simp [isInTime]

/-- Stop at the first item that is not early, drop it, and go on: this takes what one pass
takes exactly if the dropped item, and the one after it, would have ended that pass. -/
theorem takeWhile_resume_iff
    (weaker : ∀ item, early item = true → inTime item = true)
    (items : List α) :
    items.takeWhile early ++ (items.dropWhile early).tail.takeWhile inTime =
        items.takeWhile inTime ↔
      ∀ late rest, items.dropWhile early = late :: rest →
        inTime late = false ∧ ∀ next ∈ rest.head?, inTime next = false := by
  induction items with
  | nil => simp
  | cons item items inductionHypothesis =>
      rw [List.takeWhile_cons, List.takeWhile_cons, List.dropWhile_cons]
      cases isEarly : early item with
      | true =>
          simp only [weaker item isEarly, if_true, List.cons_append, List.cons.injEq, true_and]
          exact inductionHypothesis
      | false =>
          simp only [Bool.false_eq_true, if_false, List.nil_append, List.tail_cons,
            List.cons.injEq, and_imp]
          cases isInTime : inTime item with
          | true =>
              -- The second pass is one item short.
              refine iff_of_false (fun same => ?_) fun ends => ?_
              · have lengths := congrArg List.length same
                simp at lengths
              · exact Bool.noConfusion (isInTime.symm.trans (ends item items rfl rfl).1)
          | false =>
              simp only [Bool.false_eq_true, if_false]
              rw [takeWhile_eq_nil]
              constructor
              · rintro ends _ _ rfl rfl
                exact ⟨isInTime, ends⟩
              · exact fun ends => (ends item items rfl rfl).2

end Resume

/-! ## Two calls on one parser -/

/-- Parse up to a first stop time, and then on with the same parser. -/
def parseTwice
    {σ : Type} (onMessage : σ → Message → Except Fault σ)
    (first : Timestamp) (stopTimestamp : Option Timestamp)
    (file : InputStream) (receiver : σ) : Except Fault (ParseExit σ) := do
  let exit ← parseInto onMessage (some first) file receiver
  parseInto onMessage stopTimestamp exit.file exit.receiver

/-- The two calls leave the receiver as one call does. -/
def SameReceiver
    {σ : Type} (onMessage : σ → Message → Except Fault σ)
    (first : Timestamp) (stopTimestamp : Option Timestamp)
    (file : InputStream) (receiver : σ) : Prop :=
  (parseTwice onMessage first stopTimestamp file receiver).map ParseExit.receiver =
    (parseInto onMessage stopTimestamp file receiver).map ParseExit.receiver

/-- A snapshot at the first stop time changes neither what becomes of the engine nor the
messages that the parser hands over. -/
structure SnapshotHarmless
    (parser : ItchParser) (engine : ItchReplayEngine)
    (first : Timestamp) (stopTimestamp : Option Timestamp) : Prop where
  engine : SameReceiver ItchReplayEngine.onMessage first stopTimestamp parser.file engine
  messages : SameReceiver record first stopTimestamp parser.file []

/-- No message is later than the first stop time; or else the first such message, and the
one after it, are later than the second stop time as well. -/
def NothingToLose
    (first : Timestamp) (stopTimestamp : Option Timestamp) (messages : List Message) : Prop :=
  ∀ late rest,
    messages.dropWhile (fun message => !shouldStopBefore message (some first)) = late :: rest →
      shouldStopBefore late stopTimestamp = true ∧
        ∀ next ∈ rest.head?, shouldStopBefore next stopTimestamp = true

section Calls

variable {first : Timestamp} {stopTimestamp : Option Timestamp} {closing : List UInt8}
variable {frames : List Frame} {messages : List Message} {file : InputStream}
variable {σ : Type}

/-- A call on what an earlier call has left. -/
theorem receiver_of_leaves
    (closes : Closes closing)
    (leaves : Leaves closing file messages)
    (stopTimestamp : Option Timestamp)
    (onMessage : σ → Message → Except Fault σ) (receiver : σ) :
    (parseInto onMessage stopTimestamp file receiver).map ParseExit.receiver =
      (handedBefore stopTimestamp messages).foldlM onMessage receiver := by
  obtain ⟨file', reads⟩ : ∃ file', ReadsTo stopTimestamp (file.rest.length + 1) file
      (handedBefore stopTimestamp messages) file' := by
    rcases leaves with ⟨finished, rfl⟩ | ⟨frames, rfl, rfl⟩
    · exact ⟨_, readsTo_of_failed finished⟩
    · obtain ⟨file', reads, _⟩ := parseInto_frames closes stopTimestamp frames
      exact ⟨file', reads⟩
  rw [parseInto, reads onMessage receiver]
  cases (handedBefore stopTimestamp messages).foldlM onMessage receiver <;> rfl

theorem receiver_of_frames
    (closes : Closes closing) (stopTimestamp : Option Timestamp) (frames : List Frame)
    (onMessage : σ → Message → Except Fault σ) (receiver : σ) :
    (parseInto onMessage stopTimestamp { rest := frames.flatMap Frame.bytes ++ closing }
        receiver).map ParseExit.receiver =
      (handedBefore stopTimestamp (frames.filterMap Frame.message)).foldlM onMessage receiver :=
  receiver_of_leaves closes (Or.inr ⟨frames, rfl, rfl⟩) stopTimestamp onMessage receiver

theorem receiver_of_twice
    (closes : Closes closing) (first : Timestamp) (stopTimestamp : Option Timestamp)
    (frames : List Frame) (onMessage : σ → Message → Except Fault σ) (receiver : σ) :
    (parseTwice onMessage first stopTimestamp
        { rest := frames.flatMap Frame.bytes ++ closing } receiver).map ParseExit.receiver =
      (handedBefore (some first) (frames.filterMap Frame.message) ++
        handedBefore stopTimestamp
          (leftAfter (some first) (frames.filterMap Frame.message))).foldlM onMessage receiver := by
  obtain ⟨file', reads, leaves, _⟩ := parseInto_frames closes (some first) frames
  have earlier := reads onMessage receiver
  rw [List.foldlM_append, parseTwice, parseInto, earlier]
  cases (handedBefore (some first) (frames.filterMap Frame.message)).foldlM onMessage receiver with
  | error fault => rfl
  | ok received => exact receiver_of_leaves closes leaves stopTimestamp onMessage received

/-- A stop time that is not earlier stops before fewer messages. -/
theorem inTime_of_inTime
    (later : ∀ last, stopTimestamp = some last → first ≤ last)
    {message : Message}
    (early : (!shouldStopBefore message (some first)) = true) :
    (!shouldStopBefore message stopTimestamp) = true := by
  cases stopTimestamp with
  | none => rfl
  | some last =>
      simp only [shouldStopBefore, Bool.not_eq_true', decide_eq_false_iff_not] at early ⊢
      exact fun beyond => early (UInt64.lt_of_le_of_lt (later last rfl) beyond)

theorem nothingToLose_iff
    (later : ∀ last, stopTimestamp = some last → first ≤ last)
    (messages : List Message) :
    handedBefore (some first) messages ++
        handedBefore stopTimestamp (leftAfter (some first) messages) =
      handedBefore stopTimestamp messages ↔ NothingToLose first stopTimestamp messages := by
  refine (takeWhile_resume_iff (fun _ => inTime_of_inTime later) messages).trans ?_
  simp only [NothingToLose, Bool.not_eq_false']

end Calls

/-- For every file of frames and every engine, a snapshot is harmless exactly if there is
nothing to lose at its cut. -/
theorem snapshot_harmless_iff
    {closing : List UInt8} (closes : Closes closing) (frames : List Frame)
    (engine : ItchReplayEngine)
    {first : Timestamp} {stopTimestamp : Option Timestamp}
    (later : ∀ last, stopTimestamp = some last → first ≤ last) :
    SnapshotHarmless ⟨{ rest := frames.flatMap Frame.bytes ++ closing }⟩ engine first
        stopTimestamp ↔
      NothingToLose first stopTimestamp (frames.filterMap Frame.message) := by
  rw [← nothingToLose_iff later]
  constructor
  · rintro ⟨_, messages⟩
    rw [SameReceiver, receiver_of_twice closes, receiver_of_frames closes, foldlM_record,
      foldlM_record] at messages
    exact Except.ok.inj messages
  · intro same
    constructor
    · rw [SameReceiver, receiver_of_twice closes, receiver_of_frames closes, same]
    · rw [SameReceiver, receiver_of_twice closes, receiver_of_frames closes, same]

/-- A file of a directory message at time 1 and an order at time 2, with a snapshot at
time 2. -/
theorem snapshot_harmless_sample :
    ∃ engine, cutEngine = .ok engine ∧
      SnapshotHarmless ⟨{ rest := cutFrames.flatMap Frame.bytes ++ [0, 0] }⟩ engine 2 none := by
  refine ⟨_, eq_ok_of_isSome (by decide +kernel), ?_⟩
  refine (snapshot_harmless_iff (Or.inr rfl) cutFrames _ (by simp)).mpr ?_
  intro late rest found
  cases found

/-- With the snapshot at time 1, the order is lost. -/
theorem snapshot_loses_order :
    ∃ engine, cutEngine = .ok engine ∧
      ¬ SameReceiver ItchReplayEngine.onMessage 1 (some 2)
        { rest := cutFrames.flatMap Frame.bytes } engine ∧
      ((ItchParser.parse ⟨{ rest := cutFrames.flatMap Frame.bytes }⟩ engine (some 2)).map
        fun exit => exit.receiver.ob.getNumOrders) = .ok 1 ∧
      ((parseTwice ItchReplayEngine.onMessage 1 (some 2)
        { rest := cutFrames.flatMap Frame.bytes } engine).map
          fun exit => exit.receiver.ob.getNumOrders) = .ok 0 := by
  have single : ((ItchParser.parse ⟨{ rest := cutFrames.flatMap Frame.bytes }⟩
      (cutEngine.toOption.get (by decide +kernel)) (some 2)).map
        fun exit => exit.receiver.ob.getNumOrders) = .ok 1 := by
    decide +kernel
  have twice : ((parseTwice ItchReplayEngine.onMessage 1 (some 2)
      { rest := cutFrames.flatMap Frame.bytes }
      (cutEngine.toOption.get (by decide +kernel))).map
        fun exit => exit.receiver.ob.getNumOrders) = .ok 0 := by
    decide +kernel
  refine ⟨_, eq_ok_of_isSome (by decide +kernel), fun same => ?_, single, twice⟩
  have orders := congrArg (Except.map fun engine : ItchReplayEngine => engine.ob.getNumOrders) same
  rw [Transports.map_map, Transports.map_map, twice] at orders
  exact absurd (orders.trans single) (by decide)

end Properties
end MatchingEngine
