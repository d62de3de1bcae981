import MatchingEngine.Library.Transport
import MatchingEngine.Refinement.BestInRange

/-!
# The best prices after a session end

When its loop over the levels has ended, `prune_day_orders` refreshes the best price
if its level has been emptied.  What comes out depends on the range of the ladder, on
the old best price and on which levels are empty, and on nothing else.
-/

namespace MatchingEngine
namespace Refinement

open Transports

variable {ladder ladder' left right : PriceLadder}

/-! ## Ladders with the same empty levels -/

/-- What a refresh looks at. -/
structure RefreshesLike (left right : PriceLadder) : Prop where
  minPrice : left.minPrice = right.minPrice
  maxPrice : left.maxPrice = right.maxPrice
  side : left.side = right.side
  bestPrice : left.bestPrice = right.bestPrice
  empty : left.levels.map PriceLevel.empty = right.levels.map PriceLevel.empty

namespace RefreshesLike

variable (like : RefreshesLike left right)

include like

theorem length_eq : left.levels.length = right.levels.length := by
  simpa using congrArg List.length like.empty

/-- What follows a look at a level depends only on whether it is empty. -/
theorem level_then {γ : Type} (index : Nat) (proceed : Bool → Except Fault γ) :
    (left.level index >>= fun level => proceed level.empty) =
      right.level index >>= fun level => proceed level.empty := by
  have sameLevel : (left.level index).map PriceLevel.empty =
      (right.level index).map PriceLevel.empty := by
    have same := congrArg (fun empties : List Bool => empties[index]?) like.empty
    simp only [List.getElem?_map] at same
    unfold PriceLadder.level
    cases leftFound : left.levels[index]? <;> cases rightFound : right.levels[index]? <;>
      simp_all
  calc
    (left.level index >>= fun level => proceed level.empty) =
        (left.level index).map PriceLevel.empty >>= proceed := (map_then ..).symm
    _ = (right.level index).map PriceLevel.empty >>= proceed := by rw [sameLevel]
    _ = right.level index >>= fun level => proceed level.empty := map_then ..

theorem scanDown_eq (index : Nat) : left.scanDown index = right.scanDown index := by
  induction index with
  | zero => exact like.level_then 0 fun empty => .ok (if !empty then some 0 else none)
  | succ index inductionHypothesis =>
      unfold PriceLadder.scanDown
      rw [inductionHypothesis]
      exact like.level_then (index + 1) fun empty =>
        if !empty then .ok (some (index + 1)) else right.scanDown index

theorem scanUp_eq (count index : Nat) : left.scanUp count index = right.scanUp count index := by
  induction count generalizing index with
  | zero => rfl
  | succ count inductionHypothesis =>
      unfold PriceLadder.scanUp
      rw [inductionHypothesis]
      exact like.level_then index fun empty =>
        if !empty then .ok (some index) else right.scanUp count (index + 1)

theorem getLevelAtPrice_eq (price : Price) :
    left.getLevelAtPrice price = right.getLevelAtPrice price := by
  unfold PriceLadder.getLevelAtPrice
  rw [like.minPrice, like.maxPrice, like.length_eq]

/-- A refresh of both gives one best price. -/
theorem updateBestPriceFromGiven_eq (price : Price) :
    left.updateBestPriceFromGiven price = (right.updateBestPriceFromGiven price).map
      fun refreshed => { left with bestPrice := refreshed.bestPrice } := by
  have samePriceAt : left.priceAt = right.priceAt := by
    funext index
    unfold PriceLadder.priceAt
    rw [like.minPrice]
  unfold PriceLadder.updateBestPriceFromGiven
  rw [ite_map, like.minPrice, like.maxPrice, like.side, like.length_eq, samePriceAt]
  refine if_congr Iff.rfl rfl ?_
  cases right.side with
  | buy =>
      simp only [like.scanDown_eq, then_map]
      rfl
  | sell =>
      simp only [like.scanUp_eq, then_map]
      rfl

theorem refreshBest_eq :
    refreshBest left = (refreshBest right).map
      fun refreshed => { left with bestPrice := refreshed.bestPrice } := by
  have same : { left with bestPrice := right.bestPrice } = left := by
    rw [← like.bestPrice]
  unfold refreshBest
  rw [like.bestPrice]
  cases isBest : right.bestPrice with
  | none => rw [map_ok, same]
  | some bestPrice =>
      simp only [like.getLevelAtPrice_eq, then_map]
      refine bind_congr fun index => ?_
      simp only [ite_map, map_ok, same, ← like.updateBestPriceFromGiven_eq]
      exact like.level_then index fun empty =>
        if empty then left.updateBestPriceFromGiven bestPrice else .ok left

/-- Ladders that a refresh cannot tell apart have one best price after it. -/
theorem bestPrice_eq
    {left' right' : PriceLadder}
    (refreshedLeft : refreshBest left = .ok left')
    (refreshedRight : refreshBest right = .ok right') :
    left'.bestPrice = right'.bestPrice := by
  have equal := like.refreshBest_eq
  rw [refreshedLeft, refreshedRight, map_ok] at equal
  rw [Except.ok.inj equal]

end RefreshesLike

/-! ## Session ends -/

variable {book book' : OrderBook} {spec : Reference.Book} {side : Side}

/-- The best price that pruning a side leaves. -/
theorem Carries.refreshBest_pruneSide
    (carries : Carries book spec)
    {result result' : DayOrderPruneResult}
    (pruned : book.pruneSide side result = .ok (result', book')) :
    refreshBest { book'.ladder side with bestPrice := (book.ladder side).bestPrice } =
      .ok (book'.ladder side) := by
  obtain ⟨addr, free, linked⟩ := carries.linked
  rcases OrderBook.pruneSide_ok pruned with
    ⟨noBest, _, rfl⟩ | ⟨_, levels, _, _, prunedLadder, rfl⟩
  · have noBest : (book'.ladder side).bestPrice = none := Option.isNone_iff_eq_none.mp noBest
    have same : { book'.ladder side with bestPrice := none } = book'.ladder side := by
      rw [← noBest]
    rw [noBest, same]
    unfold refreshBest
    rw [noBest]
  · obtain ⟨emptied, loop, refreshed⟩ := pruneDayOrders_ok prunedLadder
    obtain ⟨_, _, _, _, expected, sameBest, _⟩ := linked.pruneSide side result
    cases expected.symm.trans loop
    obtain ⟨best, rfl⟩ := eq_withBest_of_refreshBest refreshed
    rw [ladder_setLadder, Function.update_self, ← sameBest]
    exact refreshed

/-- The best prices that a session end leaves. -/
theorem Carries.refreshBest_onSessionEnd
    (carries : Carries book spec)
    {result : DayOrderPruneResult}
    (ended : book.onSessionEnd = .ok (result, book'))
    (side : Side) :
    refreshBest { book'.ladder side with bestPrice := (book.ladder side).bestPrice } =
      .ok (book'.ladder side) := by
  obtain ⟨⟨bidResult, middle⟩, bids, asks⟩ := bind_eq_ok ended
  have carries₁ : ∃ spec₁, Carries middle spec₁ := by
    rcases carries.pruneSide bids with ⟨_, rfl⟩ | carries₁
    · exact ⟨spec, carries⟩
    · exact ⟨_, carries₁⟩
  obtain ⟨spec₁, carries₁⟩ := carries₁
  cases side with
  | buy =>
      rw [ladder_pruneSide asks (by decide)]
      exact carries.refreshBest_pruneSide bids
  | sell =>
      rw [← ladder_pruneSide bids (by decide)]
      exact carries₁.refreshBest_pruneSide asks

end Refinement
end MatchingEngine
