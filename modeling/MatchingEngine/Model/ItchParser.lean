import MatchingEngine.Model.ItchDecoding
import MatchingEngine.Model.ItchReplayEngine

/-!
# The parser

The parser reads length-prefixed frames from its file and hands the messages
to a replay engine, until the file ends or a message is later than the stop
time.  Its nine branches differ in the decoder only.
-/

namespace MatchingEngine
namespace Replay

/-- How a call of `parse` ends: it returns, or it throws `std::runtime_error`. -/
inductive ParseOutcome
  | returned
  | runtimeError (what : String)
  deriving DecidableEq

/-- The end of a call of `parse`, with the file and the receiver of the messages. -/
structure ParseExit (σ : Type) where
  outcome : ParseOutcome
  file : InputStream
  receiver : σ

/-- `should_stop_before`. -/
def shouldStopBefore (message : Message) (stopTimestamp : Option Timestamp) : Bool :=
  match stopTimestamp with
  | some stopTimestamp => message.timestamp > stopTimestamp
  | none => false

section Loop

variable {σ : Type} (onMessage : σ → Message → Except Fault σ) (stopTimestamp : Option Timestamp)

/-- The loop of `parse`, for any receiver of the messages. -/
def parseLoop : Nat → InputStream → σ → Except Fault (ParseExit σ)
  | 0, _, _ => .error .nonTermination
  | fuel + 1, file, receiver =>
      let (messageLength, file) := getMessageLength file
      if file.failed then .ok ⟨.returned, file, receiver⟩
      else if messageLength = 0 then .ok ⟨.returned, file, receiver⟩
      else
        let (messageType, file) := getMessageType file
        if file.failed then .ok ⟨.returned, file, receiver⟩
        else if unexpectedMessageLength messageLength messageType then
          .ok ⟨.runtimeError "Unexpected ITCH message length.", file, receiver⟩
        else
          match MessageType.ofCode messageType with
          | some handled =>
              let (message, file) := handled.decode file
              if shouldStopBefore message stopTimestamp then .ok ⟨.returned, file, receiver⟩
              else do
                let receiver ← onMessage receiver message
                if file.failed then .ok ⟨.returned, file, receiver⟩
                else parseLoop fuel file receiver
          | none =>
              let file := file.ignore (messageLength.toNat - 1)
              if file.failed then .ok ⟨.returned, file, receiver⟩
              else parseLoop fuel file receiver

/-- Every iteration but the last extracts a message length and a message type, so the
number of characters bounds their number. -/
def parseInto (file : InputStream) (receiver : σ) : Except Fault (ParseExit σ) :=
  parseLoop onMessage stopTimestamp (file.rest.length + 1) file receiver

end Loop

/-- A parser is its file. -/
structure ItchParser where
  file : InputStream

namespace ItchParser

/-- The constructor; the contents are missing when the file cannot be opened. -/
def create (contents : Option (List UInt8)) : Except String ItchParser :=
  match contents with
  | some contents => .ok ⟨{ rest := contents }⟩
  | none => .error "File could not be opened."

/-- Parse the file for a replay engine. -/
def parse
    (parser : ItchParser) (replayEngine : ItchReplayEngine)
    (stopTimestamp : Option Timestamp) : Except Fault (ParseExit ItchReplayEngine) :=
  parseInto ItchReplayEngine.onMessage stopTimestamp parser.file replayEngine

end ItchParser

end Replay
end MatchingEngine
