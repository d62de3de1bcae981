import MatchingEngine.Refinement.LadderInvariant
import MatchingEngine.Refinement.Run

/-!
# Cached best prices stay in the range

A best price is raised to the price of an order, which the ladder checks, and
refreshed to the price of a level that a scan has found.  Hence it is a price of the
ladder in every reachable book, however many orders the levels hold.
-/

namespace MatchingEngine
namespace Refinement

open OrderBook (UnboundedRun)

variable {ladder : PriceLadder}

/-! ## Ladders -/

/-- A ladder with its best price in its range. -/
structure Bounded (ladder : PriceLadder) : Prop extends Shape ladder where
  best : ∀ price, ladder.bestPrice = some price → InRange ladder price

namespace Bounded

theorem setLevel (bounded : Bounded ladder) (index : Nat) (level : PriceLevel) :
    Bounded (ladder.setLevel index level) where
  ordered := bounded.ordered
  minPriceRange := bounded.minPriceRange
  maxPriceRange := bounded.maxPriceRange
  few := by
    rw [PriceLadder.setLevel, List.length_set]
    exact bounded.few
  length := by
    simp only [PriceLadder.setLevel, List.length_set]
    exact bounded.length
  best := bounded.best

theorem withBest
    (bounded : Bounded ladder)
    {best : Option Price}
    (inRange : ∀ price, best = some price → InRange ladder price) :
    Bounded { ladder with bestPrice := best } :=
  { bounded with best := inRange }

/-- Refreshing the best price keeps it in the range. -/
theorem updateBestPriceFromGiven
    (bounded : Bounded ladder)
    {price : Price} {ladder' : PriceLadder}
    (refreshed : ladder.updateBestPriceFromGiven price = .ok ladder') :
    Bounded ladder' := by
  obtain ⟨found, rfl, visited⟩ := bounded.toShape.eq_of_updated refreshed
  refine bounded.withBest fun best isBest => ?_
  obtain ⟨index, found, rfl⟩ := Option.map_eq_some_iff.mp isBest
  obtain ⟨inside, _⟩ := visited index found
  rw [bounded.toShape.priceAt_eq inside]
  exact bounded.toShape.inRange_of_lt inside

theorem setBestPrice
    (bounded : Bounded ladder)
    {price : Price} {ladder' : PriceLadder}
    (raised : ladder.setBestPrice price = .ok ladder') :
    Bounded ladder' := by
  obtain ⟨inRange, rfl⟩ := PriceLadder.setBestPrice_ok raised
  refine bounded.withBest fun best isBest => ?_
  obtain rfl := Option.some.inj isBest
  exact inRange

end Bounded

theorem ladderInvariant_bounded : LadderInvariant Bounded where
  setLevel index level bounded := bounded.setLevel index level
  setBestPrice bounded raised := bounded.setBestPrice raised
  updateBestPriceFromGiven bounded refreshed := bounded.updateBestPriceFromGiven refreshed

/-! ## Runs -/

theorem bounded_of_starts {book : OrderBook} (starts : book.Starts) : OnLadders Bounded book := by
  have refines := (Sane.of_starts starts).1.refines
  obtain ⟨addr, free, core⟩ := refines.core
  have bounded : ∀ side, Bounded (book.ladder side) := fun side =>
    { (core.links side).toShape with
      best := fun price isBest => by
        rw [refines.best] at isBest
        obtain ⟨noBids, noAsks⟩ := (Sane.of_starts starts).2
        cases side <;> simp [Reference.Book.orders, noBids, noAsks, bestOf] at isBest }
  exact ⟨bounded .buy, bounded .sell⟩

/-- The best prices of a reachable book are prices of its ladders. -/
theorem bounded_of_run
    {allowed : OrderBook → Operation → Prop} {book : OrderBook}
    {events : List (Event OrderBook Operation Output)}
    (run : UnboundedRun allowed events book) :
    OnLadders Bounded book :=
  run.invariant (OnLadders Bounded) (fun _ starts => bounded_of_starts starts)
    fun _ _ _ _ bounded returns => ladderInvariant_bounded.execute bounded returns.2

end Refinement
end MatchingEngine
