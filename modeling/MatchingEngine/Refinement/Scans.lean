import MatchingEngine.Refinement.Inversion
import MatchingEngine.Refinement.Ladder

/-!
# Scans for the best price

A scan returns from every ladder whose lists are queues, and what it finds is the
price of a level that does not count zero, so some order rests there.  Nothing here
needs the counters to be exact.
-/

namespace MatchingEngine
namespace Refinement

open Reference (Order)

/-! ## What a scan finds -/

section Found

variable {ladder : PriceLadder}

/-- A level of the ladder that does not count zero. -/
def Counts (ladder : PriceLadder) (index : Nat) : Prop :=
  ∃ level, ladder.level index = .ok level ∧ level.empty = false

/-- A scan finds an index that it visits, of a level that does not count zero. -/
theorem found_of_scanDown
    {index found : Nat}
    (scan : ladder.scanDown index = .ok (some found)) :
    found ≤ index ∧ Counts ladder found := by
  induction index with
  | zero =>
      obtain ⟨level, access, scan⟩ := bind_eq_ok scan
      split at scan <;> cases scan
      next occupied => exact ⟨Nat.le_refl 0, level, access, by simpa using occupied⟩
  | succ index inductionHypothesis =>
      obtain ⟨level, access, scan⟩ := bind_eq_ok scan
      split at scan
      next occupied =>
        cases scan
        exact ⟨Nat.le_refl _, level, access, by simpa using occupied⟩
      next =>
        obtain ⟨below, counts⟩ := inductionHypothesis scan
        exact ⟨below.trans (Nat.le_succ index), counts⟩

theorem found_of_scanUp
    {count index found : Nat}
    (scan : ladder.scanUp count index = .ok (some found)) :
    found < index + count ∧ Counts ladder found := by
  induction count generalizing index with
  | zero => cases scan
  | succ count inductionHypothesis =>
      obtain ⟨level, access, scan⟩ := bind_eq_ok scan
      split at scan
      next occupied =>
        cases scan
        exact ⟨by omega, level, access, by simpa using occupied⟩
      next =>
        obtain ⟨above, counts⟩ := inductionHypothesis scan
        exact ⟨by omega, counts⟩

/-- The sides one by one, for a side that the goal mentions in a record. -/
theorem eq_buy_or_sell (side : Side) : side = .buy ∨ side = .sell := by
  cases side <;> simp

theorem updateBestPriceFromGiven_of_buy
    (shape : Shape ladder)
    {price : Price}
    (inRange : InRange ladder price)
    (side : ladder.side = .buy) :
    ladder.updateBestPriceFromGiven price = (do
      let found ← ladder.scanDown (indexOf ladder price)
      .ok { ladder with bestPrice := found.map ladder.priceAt }) := by
  unfold PriceLadder.updateBestPriceFromGiven
  rw [if_neg (not_not.mpr inRange.symm), shape.index_eq inRange, side]

theorem updateBestPriceFromGiven_of_sell
    (shape : Shape ladder)
    {price : Price}
    (inRange : InRange ladder price)
    (side : ladder.side = .sell) :
    ladder.updateBestPriceFromGiven price = (do
      let found ← ladder.scanUp (ladder.levels.length - indexOf ladder price)
        (indexOf ladder price)
      .ok { ladder with bestPrice := found.map ladder.priceAt }) := by
  unfold PriceLadder.updateBestPriceFromGiven
  rw [if_neg (not_not.mpr inRange.symm), shape.index_eq inRange, side]

/-- A refresh stores the price of a level that does not count zero, or none. -/
theorem Shape.eq_of_updated
    (shape : Shape ladder)
    {price : Price} {ladder' : PriceLadder}
    (refreshed : ladder.updateBestPriceFromGiven price = .ok ladder') :
    ∃ found : Option Nat, ladder' = { ladder with bestPrice := found.map ladder.priceAt } ∧
      ∀ index, found = some index → index < ladder.levels.length ∧ Counts ladder index := by
  have inRange : InRange ladder price := (PriceLadder.updateBestPriceFromGiven_ok refreshed).1
  have inside := shape.indexOf_lt inRange
  rcases eq_buy_or_sell ladder.side with side | side
  · rw [updateBestPriceFromGiven_of_buy shape inRange side] at refreshed
    obtain ⟨found, scan, refreshed⟩ := bind_eq_ok refreshed
    refine ⟨found, (Except.ok.inj refreshed).symm, ?_⟩
    rintro index rfl
    obtain ⟨below, counts⟩ := found_of_scanDown scan
    exact ⟨below.trans_lt inside, counts⟩
  · rw [updateBestPriceFromGiven_of_sell shape inRange side] at refreshed
    obtain ⟨found, scan, refreshed⟩ := bind_eq_ok refreshed
    refine ⟨found, (Except.ok.inj refreshed).symm, ?_⟩
    rintro index rfl
    obtain ⟨above, counts⟩ := found_of_scanUp scan
    exact ⟨by omega, counts⟩

end Found

namespace LadderLinks

variable {heap : Heap} {addr : OrderID → BlockAddress} {ladder : PriceLadder} {side : Side}
variable {orders : List Order}

/-! ## Scans return -/

theorem scanDown_returns
    (links : LadderLinks heap addr ladder side orders)
    {index : Nat}
    (inside : index < ladder.levels.length) :
    ∃ found, ladder.scanDown index = .ok found := by
  induction index with
  | zero =>
      obtain ⟨level, access, _⟩ := links.level_at inside
      exact ⟨_, by rw [PriceLadder.scanDown, access, ok_bind]⟩
  | succ index inductionHypothesis =>
      obtain ⟨level, access, _⟩ := links.level_at inside
      obtain ⟨found, scan⟩ := inductionHypothesis (by omega)
      rw [PriceLadder.scanDown, access, ok_bind]
      split
      · exact ⟨_, rfl⟩
      · exact ⟨found, scan⟩

theorem scanUp_returns
    (links : LadderLinks heap addr ladder side orders)
    {count index : Nat}
    (covered : index + count = ladder.levels.length) :
    ∃ found, ladder.scanUp count index = .ok found := by
  induction count generalizing index with
  | zero => exact ⟨none, rfl⟩
  | succ count inductionHypothesis =>
      obtain ⟨level, access, _⟩ := links.level_at (show index < ladder.levels.length by omega)
      obtain ⟨found, scan⟩ := inductionHypothesis (show index + 1 + count = _ by omega)
      rw [PriceLadder.scanUp, access, ok_bind]
      split
      · exact ⟨_, rfl⟩
      · exact ⟨found, scan⟩

/-- The best price can be refreshed from any price of the range, whatever comes out. -/
theorem updateBestPriceFromGiven
    (links : LadderLinks heap addr ladder side orders)
    {price : Price}
    (inRange : InRange ladder price) :
    ∃ best, ladder.updateBestPriceFromGiven price = .ok { ladder with bestPrice := best } := by
  have inside := links.toShape.indexOf_lt inRange
  rcases eq_buy_or_sell ladder.side with side | side
  · obtain ⟨found, scan⟩ := links.scanDown_returns inside
    rw [updateBestPriceFromGiven_of_buy links.toShape inRange side, scan, ok_bind]
    exact ⟨_, rfl⟩
  · obtain ⟨found, scan⟩ := links.scanUp_returns
      (show indexOf ladder price + (ladder.levels.length - indexOf ladder price) =
        ladder.levels.length from Nat.add_sub_cancel' inside.le)
    rw [updateBestPriceFromGiven_of_sell links.toShape inRange side, scan, ok_bind]
    exact ⟨_, rfl⟩

/-- A conditional refresh of the best price changes nothing else. -/
theorem refresh
    (links : LadderLinks heap addr ladder side orders)
    {price : Price}
    (inRange : InRange ladder price)
    (vacant : Prop) [Decidable vacant] :
    ∃ best, (if vacant then ladder.updateBestPriceFromGiven price else .ok ladder) =
      .ok { ladder with bestPrice := best } := by
  by_cases gone : vacant
  · rw [if_pos gone]
    exact links.updateBestPriceFromGiven inRange
  · exact ⟨ladder.bestPrice, if_neg gone⟩

/-- A level that the ladder finds for a price is the one of that price. -/
theorem inRange_of_level
    (links : LadderLinks heap addr ladder side orders)
    {price : Price} {index : Nat}
    (found : ladder.getLevelAtPrice price = .ok index) :
    InRange ladder price ∧ index = indexOf ladder price := by
  have inRange : InRange ladder price := by
    unfold PriceLadder.getLevelAtPrice at found
    split at found
    · cases found
    next inside => exact (not_not.mp inside).symm
  exact ⟨inRange, Except.ok.inj (found.symm.trans (links.toShape.getLevelAtPrice inRange))⟩

/-! ## Some order rests at a refreshed best price -/

theorem rests_of_counts
    (links : LadderLinks heap addr ladder side orders)
    {index : Nat}
    (counts : Counts ladder index) :
    queueAt side (ladder.minPrice + index) orders ≠ [] := by
  obtain ⟨level, access, occupied⟩ := counts
  have present : ladder.levels[index]? = some level := by
    unfold PriceLadder.level at access
    split at access
    next found => exact found.trans (congrArg some (Except.ok.inj access))
    next => cases access
  exact (links.lists index level present).2.ne_nil occupied

theorem rests_of_updated
    (links : LadderLinks heap addr ladder side orders)
    {price best : Price} {ladder' : PriceLadder}
    (refreshed : ladder.updateBestPriceFromGiven price = .ok ladder')
    (isBest : ladder'.bestPrice = some best) :
    queueAt side best orders ≠ [] := by
  obtain ⟨found, rfl, visited⟩ := links.toShape.eq_of_updated refreshed
  obtain ⟨index, isFound, rfl⟩ := Option.map_eq_some_iff.mp isBest
  obtain ⟨inside, counts⟩ := visited index isFound
  rw [links.toShape.priceAt_eq inside]
  exact links.rests_of_counts counts

/-- The best price after a conditional refresh, if some order rests at the old one
whenever it is kept. -/
theorem rests_of_refresh
    (links : LadderLinks heap addr ladder side orders)
    {price : Price} {best : Option Price} {vacant : Prop} [Decidable vacant]
    (refreshed : (if vacant then ladder.updateBestPriceFromGiven price else .ok ladder) =
      .ok { ladder with bestPrice := best })
    (kept : ¬ vacant → ∀ old, ladder.bestPrice = some old → queueAt side old orders ≠ []) :
    ∀ new, best = some new → queueAt side new orders ≠ [] := by
  intro new isBest
  split at refreshed
  next gone => exact links.rests_of_updated refreshed isBest
  next occupied =>
    have same : ladder.bestPrice = best :=
      congrArg PriceLadder.bestPrice (Except.ok.inj refreshed)
    exact kept occupied new (same.trans isBest)

/-- The best price after the session end has refreshed it. -/
theorem rests_of_refreshBest
    (links : LadderLinks heap addr ladder side orders)
    {ladder' : PriceLadder}
    (refreshed : refreshBest ladder = .ok ladder')
    {price : Price}
    (isBest : ladder'.bestPrice = some price) :
    queueAt side price orders ≠ [] := by
  unfold refreshBest at refreshed
  split at refreshed
  next noBest =>
    obtain rfl := Except.ok.inj refreshed
    cases noBest.symm.trans isBest
  next old wasBest =>
  obtain ⟨index, found, refreshed⟩ := bind_eq_ok refreshed
  obtain ⟨level, access, refreshed⟩ := bind_eq_ok refreshed
  split at refreshed
  next => exact links.rests_of_updated refreshed isBest
  next occupied =>
    obtain rfl := Except.ok.inj refreshed
    obtain rfl := Option.some.inj (wasBest.symm.trans isBest)
    obtain ⟨inRange, rfl⟩ := links.inRange_of_level found
    have rests := links.rests_of_counts ⟨level, access, by simpa using occupied⟩
    rwa [Shape.indexOf_price inRange] at rests

end LadderLinks

end Refinement
end MatchingEngine
