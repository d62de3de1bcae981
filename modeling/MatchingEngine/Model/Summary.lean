import MatchingEngine.Library.Binary64
import MatchingEngine.Library.Decimal
import MatchingEngine.Model.ItchReplayEngine

/-!
# The summary of a replay

The engine prints its counters and the top of its book.  Prices are printed as
dollars with four decimals, from a `double` that is rounded twice: once when the
price is converted, and once when it is divided.
-/

namespace MatchingEngine
namespace Replay

/-- The characters of a literal. -/
def text (literal : String) : List UInt8 := literal.toList.map char

/-- A `double` under `std::fixed` and `std::setprecision(4)`. -/
def printFixed (number : ℚ) : List UInt8 :=
  let units := (Binary64.nearest (|number| * 10000)).toNat
  (if number < 0 then text "-" else []) ++
    Decimal.write (units / 10000) ++ text "." ++ Decimal.writeDigits 4 units

/-- `static_cast<double>(price) / 10'000`, as it is printed. -/
def printPrice (price : MatchingEngine.Price) : List UInt8 :=
  printFixed (Binary64.round (Binary64.round price / 10000))

/-- The figures of a summary. -/
structure Summary where
  symbol : List UInt8
  targetStockLocate : Option StockLocate
  addsApplied : Nat
  executionsApplied : Nat
  cancelsApplied : Nat
  deletesApplied : Nat
  replacesApplied : Nat
  failedApplications : Nat
  numOrders : Nat
  numLevelsBids : Nat
  numLevelsAsks : Nat
  bestBid : Option (MatchingEngine.Price × Volume)
  bestAsk : Option (MatchingEngine.Price × Volume)
  topAskLevels : List (MatchingEngine.Price × Volume)
  topBidLevels : List (MatchingEngine.Price × Volume)

namespace Summary

/-- A label and a value on a line. -/
def line (label : String) (value : List UInt8) : List UInt8 :=
  text label ++ value ++ text "\n"

/-- The line of the locate code. -/
def locateLine (targetStockLocate : Option StockLocate) : List UInt8 :=
  match targetStockLocate with
  | some stockLocate => line "Stock Locate: " (Decimal.write stockLocate.toNat)
  | none => text "Stock Locate: not found\n"

section Prices

variable (showPrice : MatchingEngine.Price → List UInt8)

/-- The shares at a price. -/
def showLevel (level : MatchingEngine.Price × Volume) : List UInt8 :=
  showPrice level.1 ++ text " x " ++ Decimal.write level.2

/-- The line of a best price. -/
def bestLine (label : String) (best : Option (MatchingEngine.Price × Volume)) : List UInt8 :=
  match best with
  | some level => line label (showLevel showPrice level)
  | none => text label ++ text "none\n"

/-- The lines of the levels at the top of a side. -/
def levelLines (levels : List (MatchingEngine.Price × Volume)) : List UInt8 :=
  levels.flatMap fun level => showLevel showPrice level ++ text "\n"

/-- What a summary says about the messages. -/
def printMessages (summary : Summary) : List UInt8 :=
  text "\nApplied target-symbol messages:\n" ++
  line "Adds:        " (Decimal.write summary.addsApplied) ++
  line "Executions:  " (Decimal.write summary.executionsApplied) ++
  line "Cancels:     " (Decimal.write summary.cancelsApplied) ++
  line "Deletes:     " (Decimal.write summary.deletesApplied) ++
  line "Replaces:    " (Decimal.write summary.replacesApplied) ++
  line "Failures:    " (Decimal.write summary.failedApplications)

/-- What a summary says about the size of the book. -/
def printSizes (summary : Summary) : List UInt8 :=
  text "\nFinal reconstructed visible book:\n" ++
  line "Active orders:      " (Decimal.write summary.numOrders) ++
  line "Active bid levels:  " (Decimal.write summary.numLevelsBids) ++
  line "Active ask levels:  " (Decimal.write summary.numLevelsAsks)

/-- What a summary says about the top of the book. -/
def printTop (summary : Summary) (depth : Nat) : List UInt8 :=
  text "\nTop of book:\n" ++
  bestLine showPrice "Best Bid: " summary.bestBid ++
  bestLine showPrice "Best Ask: " summary.bestAsk ++
  text "\nTop " ++ Decimal.write depth ++ text " ask levels:\n" ++
  levelLines showPrice summary.topAskLevels ++
  text "\nTop " ++ Decimal.write depth ++ text " bid levels:\n" ++
  levelLines showPrice summary.topBidLevels

/-- The text of a summary, for the way in which prices are shown. -/
def print (summary : Summary) (depth : Nat) : List UInt8 :=
  text "\nITCH Replay Summary\n" ++
  text "-------------------\n" ++
  line "Symbol: " summary.symbol ++
  locateLine summary.targetStockLocate ++
  printMessages summary ++ printSizes summary ++ printTop showPrice summary depth

end Prices

end Summary

namespace ItchReplayEngine

/-- The shares at a best price, if there is one. -/
def bestLevel (ob : OrderBook) (side : Side) (best : Option MatchingEngine.Price) :
    Except Fault (Option (MatchingEngine.Price × Volume)) :=
  match best with
  | some price => do
      let shares ← ob.getNumSharesAtLevel price side
      .ok (some (price, shares))
  | none => .ok none

/-- The figures that `print_summary` asks for. -/
def summary (engine : ItchReplayEngine) (depth : Nat) : Except Fault Summary := do
  let bestBid ← bestLevel engine.ob .buy engine.ob.getBestBidPrice
  let bestAsk ← bestLevel engine.ob .sell engine.ob.getBestAskPrice
  let topAskLevels ← engine.ob.getTopAskLevels depth
  let topBidLevels ← engine.ob.getTopBidLevels depth
  .ok {
    symbol := engine.symbol
    targetStockLocate := engine.targetStockLocate
    addsApplied := engine.addsApplied
    executionsApplied := engine.executionsApplied
    cancelsApplied := engine.cancelsApplied
    deletesApplied := engine.deletesApplied
    replacesApplied := engine.replacesApplied
    failedApplications := engine.failedApplications
    numOrders := engine.ob.getNumOrders
    numLevelsBids := engine.ob.getNumLevelsBids
    numLevelsAsks := engine.ob.getNumLevelsAsks
    bestBid, bestAsk, topAskLevels, topBidLevels }

/-- `print_summary`. -/
def printSummary (engine : ItchReplayEngine) (depth : Nat) : Except Fault (List UInt8) := do
  let summary ← engine.summary depth
  .ok (summary.print printPrice depth)

end ItchReplayEngine

end Replay
end MatchingEngine
