import MatchingEngine.Library.Decimal
import MatchingEngine.Model.Basic
import MatchingEngine.Model.ItchDecoding

/-!
# The stop time

The driver takes a stop time as text.  Formatted extractions skip white space
first, and fail on a stream that has met its end; a failed stream fails every
later extraction.
-/

namespace MatchingEngine
namespace Replay

namespace InputStream

/-- `std::isspace` in the classic locale. -/
def isSpace (character : UInt8) : Bool :=
  character = char ' ' || (9 ≤ character && character ≤ 13)

/-- What comes before every formatted extraction: white space is skipped, and there must
be a character left. -/
def sentry (input : InputStream) : InputStream :=
  if !input.good then { input with failbit := true }
  else
    let rest := input.rest.dropWhile isSpace
    if rest = [] then { rest, eofbit := true, failbit := true } else { input with rest }

/-- `input >> std::ws`, which does not fail at the end of the stream. -/
def skipSpaces (input : InputStream) : InputStream :=
  let rest := input.rest.dropWhile isSpace
  { input with rest, eofbit := input.eofbit || rest.isEmpty }

end InputStream

/-- `input >> character`. -/
def extractChar : Decoder UInt8 := fun input =>
  let input := input.sentry
  match input.rest with
  | [] => (0, input)
  | character :: rest => if input.failed then (0, input) else (character, { input with rest })

/-- The decimal digits of an `int`, after its sign.  Without digits, or for a value that is
no `int`, the extraction fails, and its value is not used. -/
def takeInt (negative : Bool) (unsigned : List UInt8) : Int × InputStream :=
  let digits := unsigned.takeWhile Decimal.isDigit
  let rest := unsigned.dropWhile Decimal.isDigit
  let value : Int := if negative then -Decimal.value digits else Decimal.value digits
  if digits = [] ∨ ¬ InInt32 value then
    (0, { rest, eofbit := rest.isEmpty, failbit := true })
  else (value, { rest, eofbit := rest.isEmpty })

/-- `input >> value` for an `int`. -/
def extractInt : Decoder Int := fun input =>
  let input := input.sentry
  match input.rest with
  | [] => (0, input)
  | character :: rest =>
      if input.failed then (0, input)
      else if character = char '-' then takeInt true rest
      else if character = char '+' then takeInt false rest
      else takeInt false (character :: rest)

/-- Read a time of day as nanoseconds since midnight. -/
def parseStopTime (stopTime : List UInt8) : Except String Timestamp :=
  let input : InputStream := { rest := stopTime }
  let (hours, input) := extractInt input
  let (firstColon, input) := extractChar input
  let (minutes, input) := extractInt input
  let (secondColon, input) := extractChar input
  let (seconds, input) := extractInt input
  if input.failed ∨ firstColon ≠ char ':' ∨ secondColon ≠ char ':' then
    .error "Invalid --stop-at time. Expected HH:MM:SS."
  else if !input.skipSpaces.eofbit then
    .error "Invalid --stop-at time. Expected HH:MM:SS."
  else if hours < 0 ∨ hours > 23 ∨ minutes < 0 ∨ minutes > 59 ∨ seconds < 0 ∨
      seconds > 59 then
    .error "Invalid --stop-at time value."
  else
    let nanosecondsPerSecond : Timestamp := 1000000000
    let totalSeconds : Timestamp := UInt64.ofInt hours * 3600 + UInt64.ofInt minutes * 60 +
      UInt64.ofInt seconds
    .ok (totalSeconds * nanosecondsPerSecond)

end Replay
end MatchingEngine
