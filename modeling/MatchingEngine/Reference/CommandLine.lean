import MatchingEngine.Model.ReplayMain
import MatchingEngine.Reference.StopTime

/-!
# What a command line asks for

A command line has five or seven arguments.  A number is asked for by any argument
that starts with it; a stop time has to be a time of day.
-/

namespace MatchingEngine
namespace Replay

/-- An integer at the start of an argument: white space may stand before it, and anything
but a digit behind it. -/
def StartsWith (argument : List UInt8) (value : Int) : Prop :=
  ∃ before written after, argument = before ++ (written ++ after) ∧
    Blank before ∧ WritesInt written value ∧ NoDigitNext after

/-- The numbers of a configuration, the pool size up to its 64 bits. -/
structure AsksConfig
    (initialPoolSize minPrice maxPrice : List UInt8) (obConfig : OrderBookConfig) : Prop where
  initialPoolSize : ∃ size, StartsWith initialPoolSize size ∧
    size.natAbs < 18446744073709551616 ∧ obConfig.initialPoolSize = toUInt64 size
  minPrice : StartsWith minPrice obConfig.minPrice
  maxPrice : StartsWith maxPrice obConfig.maxPrice

/-- The arguments ask for a replay of the whole file, or up to a stop time. -/
inductive Asks : List (List UInt8) → ReplayRequest → Prop
  | whole
      {program filePath symbol initialPoolSize minPrice maxPrice : List UInt8}
      {obConfig : OrderBookConfig}
      (config : AsksConfig initialPoolSize minPrice maxPrice obConfig) :
      Asks [program, filePath, symbol, initialPoolSize, minPrice, maxPrice]
        { filePath, symbol, obConfig, stop := none }
  | upTo
      {program filePath symbol initialPoolSize minPrice maxPrice stopTimeLabel : List UInt8}
      {obConfig : OrderBookConfig} {stopTimestamp : Timestamp}
      (config : AsksConfig initialPoolSize minPrice maxPrice obConfig)
      (time : IsTimeOfDay stopTimeLabel stopTimestamp) :
      Asks [program, filePath, symbol, initialPoolSize, minPrice, maxPrice, text "--stop-at",
          stopTimeLabel]
        { filePath, symbol, obConfig, stop := some (stopTimeLabel, stopTimestamp) }

end Replay
end MatchingEngine
