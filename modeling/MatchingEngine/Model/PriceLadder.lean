import MatchingEngine.Model.PriceLevel

/-!
# Price ladders

One side of the book: an array with a price level for every price of the
configured range, and the cached best price.  Bids are scanned downwards, asks
upwards.
-/

namespace MatchingEngine

/-- Size of a price level in bytes. -/
def sizeofPriceLevel : Nat := 40

/-- `max_size()` of a vector of price levels. -/
def maxLevels : Nat := 9223372036854775807 / sizeofPriceLevel

/-- The members of a ladder. -/
structure PriceLadder where
  minPrice : Price
  maxPrice : Price
  side : Side
  levels : List PriceLevel
  bestPrice : Option Price
  deriving DecidableEq

namespace PriceLadder

/-- The constructor.  The level count is computed in `std::int64_t`, where an
overflow is undefined, and `reserve` throws for a count above `max_size()`. -/
def create (minPrice maxPrice : Price) (side : Side) : Except Fault PriceLadder :=
  if ¬ minPrice ≤ maxPrice then .error .assertionFailed
  else if ¬ InInt64 (maxPrice - minPrice) then .error .signedOverflow
  else if ¬ InInt64 (maxPrice - minPrice + 1) then .error .signedOverflow
  else
    let levelCount := toUInt64 (maxPrice - minPrice + 1)
    if maxLevels < levelCount then .error .lengthError
    else .ok
      { minPrice, maxPrice, side
        levels := (List.range levelCount).map fun (i : Nat) =>
          { price := toInt64 (minPrice + i) }
        bestPrice := none }

/-- Index of the level of a price. -/
def getLevelAtPrice (ladder : PriceLadder) (price : Price) : Except Fault Nat :=
  if ¬ (price ≤ ladder.maxPrice ∧ price ≥ ladder.minPrice) then .error .assertionFailed
  else
    let index := toUInt64 (toInt64 (price - ladder.minPrice))
    if index < ladder.levels.length then .ok index else .error .outOfBounds

/-- The level at an index. -/
def level (ladder : PriceLadder) (index : Nat) : Except Fault PriceLevel :=
  match ladder.levels[index]? with
  | some level => .ok level
  | none => .error .outOfBounds

/-- Replace the level at an index. -/
def setLevel (ladder : PriceLadder) (index : Nat) (level : PriceLevel) : PriceLadder :=
  { ladder with levels := ladder.levels.set index level }

/-- Price of the level at an index. -/
def priceAt (ladder : PriceLadder) (index : Nat) : Price :=
  toInt64 (toInt64 index + ladder.minPrice)

/-- Levels with orders, counted in `std::size_t`. -/
def getNumNonEmptyLevels (ladder : PriceLadder) : Nat :=
  toUInt64 (ladder.levels.countP fun level => !level.empty)

/-- Set the cached best price. -/
def setBestPrice (ladder : PriceLadder) (price : Price) : Except Fault PriceLadder :=
  if ¬ (price ≤ ladder.maxPrice ∧ price ≥ ladder.minPrice) then .error .assertionFailed
  else .ok { ladder with bestPrice := some price }

/-- First non-empty level at or below an index; the scan ends at index 0. -/
def scanDown (ladder : PriceLadder) : Nat → Except Fault (Option Nat)
  | 0 => do
      let level ← ladder.level 0
      .ok (if !level.empty then some 0 else none)
  | i + 1 => do
      let level ← ladder.level (i + 1)
      if !level.empty then .ok (some (i + 1)) else ladder.scanDown i

/-- First non-empty level among the `count` levels from an index on. -/
def scanUp (ladder : PriceLadder) : Nat → Nat → Except Fault (Option Nat)
  | 0, _ => .ok none
  | count + 1, i => do
      let level ← ladder.level i
      if !level.empty then .ok (some i) else ladder.scanUp count (i + 1)

/-- Set the cached best price to the first price with orders, from a price on. -/
def updateBestPriceFromGiven (ladder : PriceLadder) (startingPrice : Price) :
    Except Fault PriceLadder :=
  if ¬ (startingPrice ≤ ladder.maxPrice ∧ startingPrice ≥ ladder.minPrice) then
    .error .assertionFailed
  else do
    let startingIndex := toUInt64 (toInt64 (startingPrice - ladder.minPrice))
    let found ←
      match ladder.side with
      | .buy => ladder.scanDown startingIndex
      | .sell => ladder.scanUp (ladder.levels.length - startingIndex) startingIndex
    .ok { ladder with bestPrice := found.map ladder.priceAt }

/-- The sum of a liquidity scan.  Ghost: `wrapped` says whether an addition has
left `std::uint64_t`. -/
structure Liquidity where
  available : Volume := 0
  wrapped : Bool := false
  deriving DecidableEq

/-- `availableLiquidity += level.get_total_volume()`. -/
def Liquidity.add (liquidity : Liquidity) (level : PriceLevel) : Liquidity :=
  { available := toUInt64 (liquidity.available + level.getTotalVolume)
    wrapped := liquidity.wrapped ||
      !decide (InUInt64 (liquidity.available + level.getTotalVolume)) }

/-- The answer of a liquidity scan, with the ghost of its sum. -/
structure LiquidityScan where
  sufficient : Bool
  wrapped : Bool
  deriving DecidableEq

/-- The loop body of both scans: add a non-empty level and compare.  The
continuation is the rest of the loop. -/
def scanLevel
    (level : PriceLevel) (requiredLiquidity : Quantity) (liquidity : Liquidity)
    (continuation : Liquidity → Except Fault LiquidityScan) :
    Except Fault LiquidityScan :=
  if level.empty then continuation liquidity
  else if toUInt64 requiredLiquidity ≤ (liquidity.add level).available then
    .ok ⟨true, (liquidity.add level).wrapped⟩
  else continuation (liquidity.add level)

/-- The scan of a bid ladder, from an index down to the threshold index.  Below
index 0 the `std::size_t` index wraps around and leaves the array. -/
def scanLiquidityDown
    (ladder : PriceLadder) (thresholdIndex : Nat) (requiredLiquidity : Quantity) :
    Nat → Liquidity → Except Fault LiquidityScan
  | 0, liquidity => do
      let level ← ladder.level 0
      scanLevel level requiredLiquidity liquidity fun liquidity =>
        if 0 = thresholdIndex then .ok ⟨false, liquidity.wrapped⟩
        else .error .outOfBounds
  | i + 1, liquidity => do
      let level ← ladder.level (i + 1)
      scanLevel level requiredLiquidity liquidity fun liquidity =>
        if i + 1 = thresholdIndex then .ok ⟨false, liquidity.wrapped⟩
        else ladder.scanLiquidityDown thresholdIndex requiredLiquidity i liquidity

/-- The scan of an ask ladder over the `count` levels from an index on. -/
def scanLiquidityUp
    (ladder : PriceLadder) (requiredLiquidity : Quantity) :
    Nat → Nat → Liquidity → Except Fault LiquidityScan
  | 0, _, liquidity => .ok ⟨false, liquidity.wrapped⟩
  | count + 1, i, liquidity => do
      let level ← ladder.level i
      scanLevel level requiredLiquidity liquidity fun liquidity =>
        ladder.scanLiquidityUp requiredLiquidity count (i + 1) liquidity

/-- Whether the levels up to a threshold price have so many shares. -/
def hasSufficientMarketableLiquidity
    (ladder : PriceLadder) (thresholdPrice : Price) (requiredLiquidity : Quantity) :
    Except Fault LiquidityScan :=
  if ¬ 0 < requiredLiquidity then .error .assertionFailed
  else if ¬ (thresholdPrice ≤ ladder.maxPrice ∧ thresholdPrice ≥ ladder.minPrice) then
    .error .assertionFailed
  else
    match ladder.bestPrice with
    | none => .ok ⟨false, false⟩
    | some bestPrice =>
        if (ladder.side = .buy ∧ bestPrice < thresholdPrice) ∨
            (ladder.side = .sell ∧ bestPrice > thresholdPrice) then
          .ok ⟨false, false⟩
        else
          let thresholdIndex := toUInt64 (toInt64 (thresholdPrice - ladder.minPrice))
          let bestIndex := toUInt64 (toInt64 (bestPrice - ladder.minPrice))
          match ladder.side with
          | .buy =>
              ladder.scanLiquidityDown thresholdIndex requiredLiquidity bestIndex {}
          | .sell =>
              ladder.scanLiquidityUp requiredLiquidity
                (thresholdIndex + 1 - bestIndex) bestIndex {}

/-- There is no cached best price. -/
def empty (ladder : PriceLadder) : Bool := ladder.bestPrice.isNone

/-- An entry of the depth list: the price and the cached volume of a level. -/
def depthEntry (ladder : PriceLadder) (index : Nat) (level : PriceLevel) : Price × Volume :=
  (ladder.priceAt index, level.getTotalVolume)

/-- The loop of `get_top_levels` on a bid ladder, from an index downwards. -/
def topLevelsDown (ladder : PriceLadder) (depth : Nat) :
    Nat → List (Price × Volume) → Except Fault (List (Price × Volume))
  | 0, result => do
      let level ← ladder.level 0
      .ok (if level.empty then result else result ++ [ladder.depthEntry 0 level])
  | i + 1, result => do
      let level ← ladder.level (i + 1)
      if level.empty then ladder.topLevelsDown depth i result
      else
        let result := result ++ [ladder.depthEntry (i + 1) level]
        if result.length = depth then .ok result else ladder.topLevelsDown depth i result

/-- The loop of `get_top_levels` on an ask ladder, over the `count` levels from an
index on. -/
def topLevelsUp (ladder : PriceLadder) (depth : Nat) :
    Nat → Nat → List (Price × Volume) → Except Fault (List (Price × Volume))
  | 0, _, result => .ok result
  | count + 1, i, result =>
      if result.length < depth then do
        let level ← ladder.level i
        ladder.topLevelsUp depth count (i + 1)
          (if level.empty then result else result ++ [ladder.depthEntry i level])
      else .ok result

/-- The best levels with orders, so many of them. -/
def getTopLevels (ladder : PriceLadder) (depth : Nat) :
    Except Fault (List (Price × Volume)) :=
  match ladder.bestPrice with
  | none => .ok []
  | some bestPrice =>
      if depth = 0 then .ok []
      else
        let bestIndex := toUInt64 (toInt64 (bestPrice - ladder.minPrice))
        match ladder.side with
        | .buy => ladder.topLevelsDown depth bestIndex []
        | .sell => ladder.topLevelsUp depth (ladder.levels.length - bestIndex) bestIndex []

section Prune

variable {σ : Type}

/-- The loop of `prune_day_orders` over the `count` levels from an index on. -/
def pruneLevels
    (fuel : Nat)
    (onPrunedOrder : BlockAddress → σ → Heap → Except Fault (σ × Heap)) :
    Nat → Nat → DayOrderPruneResult → PriceLadder → σ → Heap →
      Except Fault (DayOrderPruneResult × PriceLadder × σ × Heap)
  | 0, _, dayResult, ladder, state, heap => .ok (dayResult, ladder, state, heap)
  | count + 1, i, dayResult, ladder, state, heap => do
      let level ← ladder.level i
      if !level.empty then do
        let (levelStats, level, state, heap) ←
          level.pruneDayOrders ⟨ladder.side, i⟩ fuel onPrunedOrder state heap
        let dayResult : DayOrderPruneResult :=
          { ordersPruned := toUInt64 (dayResult.ordersPruned + levelStats.ordersPruned)
            sharesErased := toUInt64 (dayResult.sharesErased + levelStats.quantityPruned)
            priceLevelsErased :=
              if level.empty then toUInt32 (dayResult.priceLevelsErased + 1)
              else dayResult.priceLevelsErased }
        pruneLevels fuel onPrunedOrder count (i + 1) dayResult (ladder.setLevel i level)
          state heap
      else pruneLevels fuel onPrunedOrder count (i + 1) dayResult ladder state heap

/-- Prune every level, then refresh the best price if its level was emptied. -/
def pruneDayOrders
    (ladder : PriceLadder) (fuel : Nat)
    (onPrunedOrder : BlockAddress → σ → Heap → Except Fault (σ × Heap))
    (dayResult : DayOrderPruneResult) (state : σ) (heap : Heap) :
    Except Fault (DayOrderPruneResult × PriceLadder × σ × Heap) := do
  let (dayResult, ladder, state, heap) ←
    pruneLevels fuel onPrunedOrder ladder.levels.length 0 dayResult ladder state heap
  match ladder.bestPrice with
  | none => .ok (dayResult, ladder, state, heap)
  | some bestPrice => do
      let index ← ladder.getLevelAtPrice bestPrice
      let currentBestPriceLevel ← ladder.level index
      if currentBestPriceLevel.empty then do
        let ladder ← ladder.updateBestPriceFromGiven bestPrice
        .ok (dayResult, ladder, state, heap)
      else .ok (dayResult, ladder, state, heap)

end Prune

end PriceLadder

end MatchingEngine
