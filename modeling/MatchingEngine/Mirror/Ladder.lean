import MatchingEngine.Mirror.Basic
import MatchingEngine.Refinement.BestInRange
import MatchingEngine.Refinement.Snapshot

/-!
# Ladders in the mirror

A downward scan of a ladder is an upward scan of its mirror image: the scans
visit mirrored indices and leave the array at opposite ends.  It is enough to show
this for the bids, since mirroring twice changes nothing.
-/

namespace MatchingEngine
namespace PriceRange

open Transports
open Refinement (Shape InRange Bounded indexOf entryAt eq_buy_or_sell found_of_scanDown)

variable {range : PriceRange} {ladder : PriceLadder}

/-- A ladder of the range, with its best price in it. -/
structure Framed (range : PriceRange) (ladder : PriceLadder) : Prop
    extends Bounded ladder where
  minPrice : ladder.minPrice = range.minPrice
  maxPrice : ladder.maxPrice = range.maxPrice

/-! ## Prices and indices -/

theorem inRange_mirrorPrice
    (minPrice : ladder.minPrice = range.minPrice)
    (maxPrice : ladder.maxPrice = range.maxPrice)
    (price : Price) :
    InRange (range.mirrorLadder ladder) (range.mirrorPrice price) ↔ InRange ladder price := by
  unfold InRange mirrorPrice mirrorLadder
  rw [minPrice, maxPrice]
  constructor <;> rintro ⟨lower, upper⟩ <;> constructor <;> lia

namespace Framed

theorem length_eq (framed : Framed range ladder) : ladder.levels.length = range.count := by
  have length := framed.length
  rw [framed.minPrice, framed.maxPrice] at length
  unfold count
  omega

theorem mirror (framed : Framed range ladder) : Framed range (range.mirrorLadder ladder) where
  ordered := framed.ordered
  minPriceRange := framed.minPriceRange
  maxPriceRange := framed.maxPriceRange
  few := by
    simp only [mirrorLadder, List.length_reverse, List.length_map]
    exact framed.few
  length := by
    simp only [mirrorLadder, List.length_reverse, List.length_map]
    exact framed.length
  minPrice := framed.minPrice
  maxPrice := framed.maxPrice
  best price isBest := by
    obtain ⟨original, isOriginal, rfl⟩ := Option.map_eq_some_iff.mp isBest
    exact (inRange_mirrorPrice framed.minPrice framed.maxPrice original).mpr
      (framed.best original isOriginal)

theorem setLevel (framed : Framed range ladder) (index : Nat) (level : PriceLevel) :
    Framed range (ladder.setLevel index level) :=
  { framed.toBounded.setLevel index level with
    minPrice := framed.minPrice
    maxPrice := framed.maxPrice }

theorem withBest
    (framed : Framed range ladder)
    {best : Option Price}
    (inRange : ∀ price, best = some price → InRange ladder price) :
    Framed range { ladder with bestPrice := best } :=
  { framed with best := inRange }

/-- The index of a mirrored price. -/
theorem indexOf_mirrorPrice
    (framed : Framed range ladder)
    {price : Price}
    (inRange : InRange ladder price) :
    indexOf (range.mirrorLadder ladder) (range.mirrorPrice price) =
      range.mirrorIndex (indexOf ladder price) := by
  have inside := framed.toShape.indexOf_lt inRange
  rw [framed.length_eq] at inside
  rw [range.mirrorIndex_of_lt inside]
  obtain ⟨lower, upper⟩ := inRange
  rw [framed.minPrice] at lower
  rw [framed.maxPrice] at upper
  unfold indexOf mirrorPrice count
  simp only [mirrorLadder, framed.minPrice]
  lia

theorem priceAt_mirrorIndex
    (framed : Framed range ladder)
    {index : Nat}
    (inside : index < range.count) :
    (range.mirrorLadder ladder).priceAt (range.mirrorIndex index) =
      range.mirrorPrice (ladder.priceAt index) := by
  rw [framed.toShape.priceAt_eq (by rwa [framed.length_eq]),
    framed.mirror.toShape.priceAt_eq (by rwa [framed.mirror.length_eq, mirrorIndex_lt]),
    range.mirrorIndex_of_lt inside]
  unfold mirrorPrice
  simp only [mirrorLadder, framed.minPrice]
  unfold count at inside ⊢
  lia

theorem map_priceAt_mirrorIndex
    (framed : Framed range ladder)
    {found : Option Nat}
    (inside : ∀ index, found = some index → index < range.count) :
    (found.map range.mirrorIndex).map (range.mirrorLadder ladder).priceAt =
      (found.map ladder.priceAt).map range.mirrorPrice := by
  cases found with
  | none => simp only [Option.map_none]
  | some index =>
      simp only [Option.map_some]
      rw [framed.priceAt_mirrorIndex (inside index rfl)]

theorem getLevelAtPrice_mirrorLadder (framed : Framed range ladder) (price : Price) :
    (range.mirrorLadder ladder).getLevelAtPrice (range.mirrorPrice price) =
      (ladder.getLevelAtPrice price).map range.mirrorIndex := by
  have agree := inRange_mirrorPrice framed.minPrice framed.maxPrice price
  by_cases inRange : InRange ladder price
  · rw [framed.toShape.getLevelAtPrice inRange,
      framed.mirror.toShape.getLevelAtPrice (agree.mpr inRange), map_ok,
      framed.indexOf_mirrorPrice inRange]
  · unfold PriceLadder.getLevelAtPrice
    rw [if_pos fun inside => inRange (agree.mp inside.symm),
      if_pos fun inside => inRange inside.symm, map_error]

/-! ## Levels -/

theorem getElem?_mirrorLadder (framed : Framed range ladder) (index : Nat) :
    (range.mirrorLadder ladder).levels[range.mirrorIndex index]? =
      ladder.levels[index]?.map range.mirrorLevel := by
  have length := framed.length_eq
  have length' := framed.mirror.length_eq
  by_cases inside : index < range.count
  · rw [range.mirrorIndex_of_lt inside, mirrorLadder,
      List.getElem?_reverse (by rw [List.length_map]; omega), List.length_map,
      List.getElem?_map, length, show range.count - 1 - (range.count - 1 - index) = index by omega]
  · rw [mirrorIndex, if_neg inside, List.getElem?_eq_none (by omega),
      List.getElem?_eq_none (by omega), Option.map_none]

theorem level_mirrorLadder (framed : Framed range ladder) (index : Nat) :
    (range.mirrorLadder ladder).level (range.mirrorIndex index) =
      (ladder.level index).map range.mirrorLevel := by
  unfold PriceLadder.level
  rw [framed.getElem?_mirrorLadder]
  cases ladder.levels[index]? <;> rfl

theorem setLevel_mirrorLadder
    (framed : Framed range ladder) (index : Nat) (level : PriceLevel) :
    (range.mirrorLadder ladder).setLevel (range.mirrorIndex index) (range.mirrorLevel level) =
      range.mirrorLadder (ladder.setLevel index level) := by
  have levels : (range.mirrorLadder ladder).levels.set (range.mirrorIndex index)
      (range.mirrorLevel level) =
        (range.mirrorLadder (ladder.setLevel index level)).levels := by
    apply List.ext_getElem?
    intro other
    rw [← range.mirrorIndex_mirrorIndex other,
      (framed.setLevel index level).getElem?_mirrorLadder, PriceLadder.setLevel,
      List.getElem?_set, List.getElem?_set, framed.getElem?_mirrorLadder,
      framed.mirror.length_eq, framed.length_eq]
    simp only [mirrorIndex_inj, mirrorIndex_lt]
    split
    · split <;> rfl
    · rfl
  exact congrArg (fun levels => { range.mirrorLadder ladder with levels }) levels

theorem getNumNonEmptyLevels_mirrorLadder (range : PriceRange) (ladder : PriceLadder) :
    (range.mirrorLadder ladder).getNumNonEmptyLevels = ladder.getNumNonEmptyLevels := by
  unfold PriceLadder.getNumNonEmptyLevels mirrorLadder
  rw [List.countP_reverse, List.countP_map]
  rfl

end Framed

/-! ## Scans -/

namespace Framed

/-- The upward scan of the mirrored ladder. -/
theorem scanUp_mirrorLadder
    (framed : Framed range ladder)
    {index : Nat}
    (inside : index < range.count) :
    (range.mirrorLadder ladder).scanUp (index + 1) (range.mirrorIndex index) =
      (ladder.scanDown index).map (Option.map range.mirrorIndex) := by
  induction index with
  | zero =>
      refine sequence (framed.level_mirrorLadder 0) fun level => ?_
      change (if (!level.empty) = true then _ else _) = _
      split <;> rfl
  | succ index inductionHypothesis =>
      have next : range.mirrorIndex (index + 1) + 1 = range.mirrorIndex index := by
        rw [range.mirrorIndex_of_lt inside, range.mirrorIndex_of_lt (by omega)]
        omega
      refine sequence (framed.level_mirrorLadder (index + 1)) fun level => ?_
      rw [ite_map, next, inductionHypothesis (by omega)]
      rfl

/-- Refreshing the best bid in the mirror. -/
theorem updateBestPriceFromGiven_of_bids
    (framed : Framed range ladder)
    (side : ladder.side = .buy)
    (price : Price) :
    (range.mirrorLadder ladder).updateBestPriceFromGiven (range.mirrorPrice price) =
      (ladder.updateBestPriceFromGiven price).map range.mirrorLadder := by
  have agree := inRange_mirrorPrice framed.minPrice framed.maxPrice price
  by_cases inRange : InRange ladder price
  · have inside := framed.toShape.indexOf_lt inRange
    rw [framed.length_eq] at inside
    have side' : (range.mirrorLadder ladder).side = .sell := by
      rw [mirrorLadder, side]
      rfl
    have visited : range.count - range.mirrorIndex (indexOf ladder price) =
        indexOf ladder price + 1 := by
      rw [range.mirrorIndex_of_lt inside]
      omega
    rw [Refinement.updateBestPriceFromGiven_of_sell framed.mirror.toShape (agree.mpr inRange) side',
      Refinement.updateBestPriceFromGiven_of_buy framed.toShape inRange side,
      framed.indexOf_mirrorPrice inRange, framed.mirror.length_eq, visited,
      framed.scanUp_mirrorLadder inside, map_then, then_map]
    cases scan : ladder.scanDown (indexOf ladder price) with
    | error fault => rw [error_bind, error_bind]
    | ok found =>
        have visited : ∀ index, found = some index → index < range.count := by
          rintro index rfl
          exact (found_of_scanDown scan).1.trans_lt inside
        have best := framed.map_priceAt_mirrorIndex visited
        rw [ok_bind, ok_bind, best, map_ok]
        simp only [mirrorLadder]
  · unfold PriceLadder.updateBestPriceFromGiven
    rw [if_pos fun inside => inRange (agree.mp inside.symm),
      if_pos fun inside => inRange inside.symm, map_error]

theorem updateBestPriceFromGiven_mirrorLadder (framed : Framed range ladder) (price : Price) :
    (range.mirrorLadder ladder).updateBestPriceFromGiven (range.mirrorPrice price) =
      (ladder.updateBestPriceFromGiven price).map range.mirrorLadder := by
  cases side : ladder.side with
  | buy => exact framed.updateBestPriceFromGiven_of_bids side price
  | sell =>
      refine eq_map_of_eq_map range.mirrorLadder_mirrorLadder ?_
      have mirrored := framed.mirror.updateBestPriceFromGiven_of_bids
        (by rw [mirrorLadder, side]; rfl) (range.mirrorPrice price)
      rwa [mirrorLadder_mirrorLadder, mirrorPrice_mirrorPrice] at mirrored

theorem setBestPrice_mirrorLadder (framed : Framed range ladder) (price : Price) :
    (range.mirrorLadder ladder).setBestPrice (range.mirrorPrice price) =
      (ladder.setBestPrice price).map range.mirrorLadder := by
  have agree := inRange_mirrorPrice framed.minPrice framed.maxPrice price
  unfold PriceLadder.setBestPrice
  rw [ite_map]
  refine if_congr (not_congr ⟨fun inside => (agree.mp inside.symm).symm,
    fun inside => (agree.mpr inside.symm).symm⟩) rfl rfl

/-! ## Liquidity -/

theorem scanLiquidityUp_mirrorLadder
    (framed : Framed range ladder)
    (requiredLiquidity : Quantity)
    {thresholdIndex index : Nat}
    (inside : index < range.count)
    (reaches : thresholdIndex ≤ index)
    (liquidity : PriceLadder.Liquidity) :
    (range.mirrorLadder ladder).scanLiquidityUp requiredLiquidity (index + 1 - thresholdIndex)
        (range.mirrorIndex index) liquidity =
      ladder.scanLiquidityDown thresholdIndex requiredLiquidity index liquidity := by
  induction index generalizing liquidity with
  | zero =>
      obtain rfl : thresholdIndex = 0 := Nat.le_zero.mp reaches
      rw [show 0 + 1 - 0 = 0 + 1 from rfl, PriceLadder.scanLiquidityUp,
        framed.level_mirrorLadder, map_then]
      rfl
  | succ index inductionHypothesis =>
      have next : range.mirrorIndex (index + 1) + 1 = range.mirrorIndex index := by
        rw [range.mirrorIndex_of_lt inside, range.mirrorIndex_of_lt (by omega)]
        omega
      rw [show index + 1 + 1 - thresholdIndex = index + 1 - thresholdIndex + 1 by omega,
        PriceLadder.scanLiquidityUp, framed.level_mirrorLadder, map_then, next]
      refine bind_congr fun level => ?_
      have goesOn : (fun liquidity => (range.mirrorLadder ladder).scanLiquidityUp
          requiredLiquidity (index + 1 - thresholdIndex) (range.mirrorIndex index) liquidity) =
            fun liquidity => if index + 1 = thresholdIndex then .ok ⟨false, liquidity.wrapped⟩
              else ladder.scanLiquidityDown thresholdIndex requiredLiquidity index liquidity := by
        funext liquidity
        by_cases last : index + 1 = thresholdIndex
        · rw [if_pos last, last, Nat.sub_self, PriceLadder.scanLiquidityUp]
        · rw [if_neg last, inductionHypothesis (by omega) (by omega)]
      rw [goesOn]
      rfl

/-- Whether the bids have enough liquidity, in the mirror. -/
theorem hasSufficientMarketableLiquidity_of_bids
    (framed : Framed range ladder)
    (side : ladder.side = .buy)
    (thresholdPrice : Price) (requiredLiquidity : Quantity) :
    (range.mirrorLadder ladder).hasSufficientMarketableLiquidity
        (range.mirrorPrice thresholdPrice) requiredLiquidity =
      ladder.hasSufficientMarketableLiquidity thresholdPrice requiredLiquidity := by
  have agree := inRange_mirrorPrice framed.minPrice framed.maxPrice thresholdPrice
  have side' : (range.mirrorLadder ladder).side = .sell := by
    rw [mirrorLadder, side]
    rfl
  unfold PriceLadder.hasSufficientMarketableLiquidity
  refine if_congr Iff.rfl rfl ?_
  by_cases inRange : InRange ladder thresholdPrice
  · rw [if_neg (not_not.mpr (agree.mpr inRange).symm), if_neg (not_not.mpr inRange.symm)]
    cases isBest : ladder.bestPrice with
    | none => rw [mirrorLadder, isBest, Option.map_none]
    | some bestPrice =>
        have bestInRange := framed.best bestPrice isBest
        have isBest' : (range.mirrorLadder ladder).bestPrice =
            some (range.mirrorPrice bestPrice) := by
          rw [mirrorLadder, isBest, Option.map_some]
        simp only [isBest', side', side, reduceCtorEq, false_and, true_and, false_or, or_false]
        have worse : range.mirrorPrice bestPrice > range.mirrorPrice thresholdPrice ↔
            bestPrice < thresholdPrice := by
          unfold mirrorPrice
          lia
        by_cases tooLow : bestPrice < thresholdPrice
        · rw [if_pos (worse.mpr tooLow), if_pos tooLow]
        have bestInside := framed.toShape.indexOf_lt bestInRange
        rw [framed.length_eq] at bestInside
        have reaches : indexOf ladder thresholdPrice ≤ indexOf ladder bestPrice := by
          unfold indexOf
          lia
        have visited : range.mirrorIndex (indexOf ladder thresholdPrice) + 1 -
            range.mirrorIndex (indexOf ladder bestPrice) =
              indexOf ladder bestPrice + 1 - indexOf ladder thresholdPrice := by
          rw [range.mirrorIndex_of_lt bestInside, range.mirrorIndex_of_lt (by omega)]
          omega
        rw [if_neg fun better => tooLow (worse.mp better), if_neg tooLow,
          framed.mirror.toShape.index_eq (agree.mpr inRange), framed.toShape.index_eq inRange,
          framed.mirror.toShape.index_eq ((inRange_mirrorPrice framed.minPrice framed.maxPrice
            bestPrice).mpr bestInRange), framed.toShape.index_eq bestInRange,
          framed.indexOf_mirrorPrice inRange, framed.indexOf_mirrorPrice bestInRange, visited]
        exact framed.scanLiquidityUp_mirrorLadder requiredLiquidity bestInside reaches {}
  · rw [if_pos fun inside => inRange (agree.mp inside.symm),
      if_pos fun inside => inRange inside.symm]

theorem hasSufficientMarketableLiquidity_mirrorLadder
    (framed : Framed range ladder)
    (thresholdPrice : Price) (requiredLiquidity : Quantity) :
    (range.mirrorLadder ladder).hasSufficientMarketableLiquidity
        (range.mirrorPrice thresholdPrice) requiredLiquidity =
      ladder.hasSufficientMarketableLiquidity thresholdPrice requiredLiquidity := by
  cases side : ladder.side with
  | buy => exact framed.hasSufficientMarketableLiquidity_of_bids side ..
  | sell =>
      have mirrored := framed.mirror.hasSufficientMarketableLiquidity_of_bids
        (by rw [mirrorLadder, side]; rfl) (range.mirrorPrice thresholdPrice) requiredLiquidity
      rw [mirrorLadder_mirrorLadder, mirrorPrice_mirrorPrice] at mirrored
      exact mirrored.symm

/-! ## Depth lists -/

theorem entryAt_mirrorIndex
    (framed : Framed range ladder)
    {index : Nat}
    (inside : index < range.count) :
    entryAt (range.mirrorLadder ladder) (range.mirrorIndex index) =
      (entryAt ladder index).map fun entry => (range.mirrorPrice entry.1, entry.2) := by
  unfold entryAt
  rw [framed.getElem?_mirrorLadder]
  cases ladder.levels[index]? with
  | none => rfl
  | some level =>
      simp only [Option.map_some, PriceLadder.depthEntry, framed.priceAt_mirrorIndex inside]
      change (if level.empty = true then _ else _) = _
      split <;> rfl

/-- The indices from a mirrored one to the end are those from the original one down. -/
theorem range'_mirrorIndex (range : PriceRange) {index : Nat} (inside : index < range.count) :
    List.range' (range.mirrorIndex index) (index + 1) =
      (List.range (index + 1)).reverse.map range.mirrorIndex := by
  refine List.ext_getElem (by simp) fun step stepInside _ => ?_
  rw [List.length_range'] at stepInside
  rw [List.getElem_range', List.getElem_map, List.getElem_reverse, List.getElem_range,
    List.length_range, range.mirrorIndex_of_lt inside, range.mirrorIndex_of_lt (by omega)]
  omega

theorem filterMap_entryAt_mirrorIndex
    (framed : Framed range ladder)
    {index : Nat}
    (inside : index < ladder.levels.length) :
    (List.range' (range.mirrorIndex index) (index + 1)).filterMap
        (entryAt (range.mirrorLadder ladder)) =
      ((List.range (index + 1)).reverse.filterMap (entryAt ladder)).map fun entry =>
        (range.mirrorPrice entry.1, entry.2) := by
  rw [framed.length_eq] at inside
  rw [range'_mirrorIndex range inside, List.filterMap_map, List.map_filterMap]
  refine List.filterMap_congr fun visited member => framed.entryAt_mirrorIndex ?_
  have before := List.mem_range.mp (List.mem_reverse.mp member)
  omega

/-- The depth list of the bids in the mirror. -/
theorem getTopLevels_of_bids
    (framed : Framed range ladder)
    (side : ladder.side = .buy)
    (depth : Nat) :
    (range.mirrorLadder ladder).getTopLevels depth =
      (ladder.getTopLevels depth).map range.mirrorDepth := by
  have side' : (range.mirrorLadder ladder).side = .sell := by
    rw [mirrorLadder, side]
    rfl
  unfold PriceLadder.getTopLevels
  cases isBest : ladder.bestPrice with
  | none => 
      rw [mirrorLadder, isBest, Option.map_none]
      rfl
  | some bestPrice =>
      have isBest' : (range.mirrorLadder ladder).bestPrice =
          some (range.mirrorPrice bestPrice) := by
        rw [mirrorLadder, isBest, Option.map_some]
      have inRange := framed.best bestPrice isBest
      have inside := framed.toShape.indexOf_lt inRange
      simp only [isBest', side', side]
      by_cases none : depth = 0
      · rw [if_pos none, if_pos none]
        rfl
      have visited : range.mirrorIndex (indexOf ladder bestPrice) + (indexOf ladder bestPrice + 1) =
          range.count := by
        rw [framed.length_eq] at inside
        rw [range.mirrorIndex_of_lt inside]
        omega
      rw [if_neg none, if_neg none, framed.toShape.index_eq inRange,
        framed.mirror.toShape.index_eq ((inRange_mirrorPrice framed.minPrice framed.maxPrice
          bestPrice).mpr inRange), framed.indexOf_mirrorPrice inRange, framed.mirror.length_eq,
        ← visited, Nat.add_sub_cancel_left,
        Refinement.topLevelsDown_eq inside (Nat.pos_of_ne_zero none),
        Refinement.topLevelsUp_eq (visited.trans framed.mirror.length_eq.symm).le (Nat.zero_le _),
        map_ok, List.nil_append, List.nil_append, mirrorDepth, List.map_take,
        framed.filterMap_entryAt_mirrorIndex inside]

theorem getTopLevels_mirrorLadder (framed : Framed range ladder) (depth : Nat) :
    (range.mirrorLadder ladder).getTopLevels depth =
      (ladder.getTopLevels depth).map range.mirrorDepth := by
  cases side : ladder.side with
  | buy => exact framed.getTopLevels_of_bids side depth
  | sell =>
      refine eq_map_of_eq_map range.mirrorDepth_mirrorDepth ?_
      have mirrored := framed.mirror.getTopLevels_of_bids (by rw [mirrorLadder, side]; rfl) depth
      rwa [mirrorLadder_mirrorLadder] at mirrored

end Framed

/-! ## Every call keeps the frame -/

theorem ladderInvariant_framed (range : PriceRange) :
    Refinement.LadderInvariant (Framed range) where
  setLevel index level framed := framed.setLevel index level
  setBestPrice framed raised := by
    have bounded := framed.toBounded.setBestPrice raised
    obtain ⟨_, rfl⟩ := PriceLadder.setBestPrice_ok raised
    exact ⟨bounded, framed.minPrice, framed.maxPrice⟩
  updateBestPriceFromGiven framed refreshed := by
    have bounded := framed.toBounded.updateBestPriceFromGiven refreshed
    obtain ⟨_, best, rfl⟩ := PriceLadder.updateBestPriceFromGiven_ok refreshed
    exact ⟨bounded, framed.minPrice, framed.maxPrice⟩

namespace Framed

theorem setBestPrice (framed : Framed range ladder) (price : Price) :
    Transports range.mirrorLadder (Framed range) (ladder.setBestPrice price)
      ((range.mirrorLadder ladder).setBestPrice (range.mirrorPrice price)) where
  equal := framed.setBestPrice_mirrorLadder price
  holds _ raised := (ladderInvariant_framed range).setBestPrice framed raised

theorem updateBestPriceFromGiven (framed : Framed range ladder) (price : Price) :
    Transports range.mirrorLadder (Framed range) (ladder.updateBestPriceFromGiven price)
      ((range.mirrorLadder ladder).updateBestPriceFromGiven (range.mirrorPrice price)) where
  equal := framed.updateBestPriceFromGiven_mirrorLadder price
  holds _ refreshed := (ladderInvariant_framed range).updateBestPriceFromGiven framed refreshed

end Framed

end PriceRange

namespace OrderBook

open Refinement

variable {book : OrderBook} {matchingSide : Side} {takes takes' : Price → Bool}

/-! ## Limits that accept the same prices -/

/-- Two limits that accept the same prices of the range match alike. -/
theorem matchingLoop_congr
    {range : PriceRange}
    (alike : ∀ price, range.minPrice ≤ price → price ≤ range.maxPrice →
      takes price = takes' price)
    (framed : OnLadders (range.Framed) book)
    (fuel : Nat) (remainingShares : Quantity) (subResult : SubmissionResult) :
    matchingLoop matchingSide takes fuel book remainingShares subResult =
      matchingLoop matchingSide takes' fuel book remainingShares subResult := by
  induction fuel generalizing book remainingShares subResult with
  | zero => rfl
  | succ fuel inductionHypothesis =>
      rw [matchingLoop, matchingLoop]
      cases best : (book.ladder matchingSide).bestPrice with
      | none => rfl
      | some bestPrice =>
          have ladder := framed.ladder matchingSide
          obtain ⟨lower, upper⟩ := ladder.best bestPrice best
          have same : takes bestPrice = takes' bestPrice :=
            alike bestPrice (ladder.minPrice ▸ lower) (ladder.maxPrice ▸ upper)
          simp only [same]
          split
          · rfl
          split
          · rfl
          apply bind_congr
          intro index
          apply bind_congr
          intro matchingLevel
          apply bind_congr
          intro front
          apply bind_congr
          intro takingOrder
          split
          · rfl
          -- Only the branch that goes on consults the limit again.
          cases retired : book.retireMaker ⟨matchingSide, index⟩ matchingLevel bestPrice
              takingOrder.id with
          | error fault => rfl
          | ok next =>
              exact inductionHypothesis
                ((range.ladderInvariant_framed).retireMaker framed retired) _ _

end OrderBook
end MatchingEngine
