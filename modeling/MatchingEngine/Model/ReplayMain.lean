import MatchingEngine.Model.ItchParser
import MatchingEngine.Model.StopTime
import MatchingEngine.Model.Summary

/-!
# The replay program

The program reads its arguments, replays a file and prints the summary.  What it
throws is caught and printed; the texts of the exceptions of the standard library
are those of `libstdc++`.
-/

namespace MatchingEngine

/-- The constructor of a configuration. -/
def OrderBookConfig.create
    (initialPoolSize : { size : Nat // InUInt64 size })
    (minPrice maxPrice : { price : Int // InInt64 price }) : Except String OrderBookConfig :=
  if unordered : minPrice.1 > maxPrice.1 then
    .error "Min price cannot be greater than max price."
  else
    .ok {
      initialPoolSize := initialPoolSize.1
      minPrice := minPrice.1
      maxPrice := maxPrice.1
      initialPoolSizeRange := initialPoolSize.2
      minPriceRange := minPrice.2
      maxPriceRange := maxPrice.2
      ordered := Int.not_lt.mp unordered }

namespace Replay

open InputStream (isSpace)

/-! ## Numbers in arguments -/

/-- The value of the digits at the start of a text, after their sign. -/
def takeDigits (negative : Bool) (rest : List UInt8) : Option Int :=
  let digits := rest.takeWhile Decimal.isDigit
  if digits = [] then none
  else some (if negative then -Decimal.value digits else Decimal.value digits)

/-- The number at the start of an argument, after white space.  What follows its digits is
ignored. -/
def takeNumber (argument : List UInt8) : Option Int :=
  match argument.dropWhile isSpace with
  | [] => none
  | character :: rest =>
      if character = char '-' then takeDigits true rest
      else if character = char '+' then takeDigits false rest
      else takeDigits false (character :: rest)

theorem inUInt64_toUInt64 (value : Int) : InUInt64 (toUInt64 value) := by
  unfold InUInt64 toUInt64
  omega

/-- `std::stoull`, for which a minus sign negates in 64 bits. -/
def stoull (argument : List UInt8) : Except String { value : Nat // InUInt64 value } :=
  match takeNumber argument with
  | none => .error "stoull"
  | some value =>
      if value.natAbs < 18446744073709551616 then .ok ⟨toUInt64 value, inUInt64_toUInt64 value⟩
      else .error "stoull"

/-- `std::stoll`. -/
def stoll (argument : List UInt8) : Except String { value : Int // InInt64 value } :=
  match takeNumber argument with
  | none => .error "stoll"
  | some value => if range : InInt64 value then .ok ⟨value, range⟩ else .error "stoll"

/-! ## The arguments -/

/-- What the arguments ask for. -/
structure ReplayRequest where
  filePath : List UInt8
  symbol : List UInt8
  obConfig : OrderBookConfig
  stop : Option (List UInt8 × Timestamp)

/-- The option for the stop time, if there is one. -/
def readOption (option : Option (List UInt8 × List UInt8)) :
    Except String (Option (List UInt8 × Timestamp)) :=
  match option with
  | none => .ok none
  | some (option, stopTimeLabel) =>
      if option ≠ text "--stop-at" then .error "Unknown option. Expected --stop-at."
      else do
        let stopTimestamp ← parseStopTime stopTimeLabel
        .ok (some (stopTimeLabel, stopTimestamp))

/-- The part of the `try` block that reads the arguments. -/
def readArguments
    (filePath symbol initialPoolSize minPrice maxPrice : List UInt8)
    (option : Option (List UInt8 × List UInt8)) : Except String ReplayRequest := do
  let initialPoolSize ← stoull initialPoolSize
  let minPrice ← stoll minPrice
  let maxPrice ← stoll maxPrice
  let stop ← readOption option
  let obConfig ← OrderBookConfig.create initialPoolSize minPrice maxPrice
  .ok { filePath, symbol, obConfig, stop }

/-! ## The program -/

/-- How the `try` block may end early: with an exception, or with a fault that cannot be
caught. -/
inductive Thrown
  | exception (what : String)
  | fault (fault : Fault)

/-- Of the faults only failed allocations are exceptions. -/
def Thrown.ofFault : Fault → Thrown
  | .badAlloc => .exception "std::bad_alloc"
  | .lengthError => .exception "vector::reserve"
  | uncaught => .fault uncaught

/-- The line of the stop time, as it was given. -/
def cutoffLine (stop : Option (List UInt8 × Timestamp)) : List UInt8 :=
  match stop with
  | some (stopTimeLabel, _) => Summary.line "Replay cutoff: " stopTimeLabel
  | none => []

/-- The part of the `try` block after the file has been parsed, which gives what it
prints. -/
def report (request : ReplayRequest) (exit : ParseExit ItchReplayEngine) :
    Except Thrown (List UInt8) :=
  match exit.outcome with
  | .runtimeError what => .error (.exception what)
  | .returned => do
      let summary ← (exit.receiver.printSummary 5).mapError Thrown.ofFault
      .ok (cutoffLine request.stop ++ summary ++ text "Replay completed successfully.\n")

/-- The part of the `try` block that replays the file. -/
def replayFile
    (files : List UInt8 → Option (List UInt8)) (request : ReplayRequest) :
    Except Thrown (List UInt8) := do
  let replayEngine ←
    (ItchReplayEngine.create request.symbol request.obConfig).mapError Thrown.ofFault
  let parser ← (ItchParser.create (files request.filePath)).mapError Thrown.exception
  let exit ←
    (parser.parse replayEngine (request.stop.map Prod.snd)).mapError Thrown.ofFault
  report request exit

/-- What a run of the program leaves: its exit status and what it printed. -/
structure ProgramExit where
  status : Nat
  out : List UInt8
  err : List UInt8

/-- `EXIT_SUCCESS` -/
def ProgramExit.success (out : List UInt8) : ProgramExit := { status := 0, out, err := [] }

/-- `EXIT_FAILURE` -/
def ProgramExit.failure (err : List UInt8) : ProgramExit := { status := 1, out := [], err }

/-- The text for a wrong number of arguments. -/
def usage : List UInt8 :=
  text "Usage:\n" ++
  text "  ItchReplay <itch_file> <symbol> <initial_pool_size> " ++
  text "<min_price> <max_price> [--stop-at HH:MM:SS]\n\n" ++
  text "Examples:\n" ++
  text "  ItchReplay data/full/03272019.NASDAQ_ITCH50.bin " ++
  text "AAPL 2000000 1 10000000\n\n" ++
  text "  ItchReplay data/full/03272019.NASDAQ_ITCH50.bin " ++
  text "AAPL 2000000 1 10000000 --stop-at 10:00:00\n"

/-- The `try` block with its handler. -/
def runCaught (block : Except Thrown (List UInt8)) : Except Fault ProgramExit :=
  match block with
  | .ok out => .ok (.success out)
  | .error (.exception what) => .ok (.failure (Summary.line "Replay failed: " (text what)))
  | .error (.fault fault) => .error fault

/-- The program, with the files that can be opened. -/
def main (files : List UInt8 → Option (List UInt8)) (argv : List (List UInt8)) :
    Except Fault ProgramExit :=
  let replay (filePath symbol initialPoolSize minPrice maxPrice : List UInt8)
      (option : Option (List UInt8 × List UInt8)) :=
    runCaught do
      let request ← (readArguments filePath symbol initialPoolSize minPrice maxPrice
        option).mapError Thrown.exception
      replayFile files request
  match argv with
  | [_, filePath, symbol, initialPoolSize, minPrice, maxPrice] =>
      replay filePath symbol initialPoolSize minPrice maxPrice none
  | [_, filePath, symbol, initialPoolSize, minPrice, maxPrice, option, stopTimeLabel] =>
      replay filePath symbol initialPoolSize minPrice maxPrice (some (option, stopTimeLabel))
  | _ => .ok (.failure usage)

end Replay
end MatchingEngine
