import MatchingEngine.Properties.Levels
import MatchingEngine.Refinement.Snapshot

/-!
# Depth queries are exact

The levels of a side that hold orders have one list, from the best price to the
worst, with the shares that rest at each price.  Every depth query returns the
first entries of it.
-/

namespace MatchingEngine
namespace Properties

open OrderBook (BookRun PublicCalls sampleSession sampleRun_public)
open Reference (Order Ledger priority)
open Refinement

variable {events : List (Event OrderBook Operation Output)} {book : OrderBook}

/-- One price is strictly better than another for a side. -/
def Better : Side → Price → Price → Prop
  | .buy, better, worse => worse < better
  | .sell, better, worse => better < worse

/-- A list has the prices at which orders of a side rest, best first, with the shares that
rest there. -/
structure ListsLevels
    (book : OrderBook) (side : Side) (entries : List (Price × Volume)) : Prop where
  prices : ∀ price, price ∈ entries.map Prod.fst ↔ price ∈ occupiedPrices book side
  sorted : (entries.map Prod.fst).Pairwise (Better side)
  volumes : ∀ entry ∈ entries, ∀ (index : Nat) (level : PriceLevel),
    (book.ladder side).levels[index]? = some level → level.price = entry.1 →
      (entry.2 : Int) = ((book.levelOrders side index).map RestingOrder.quantity).sum

/-- What the queries about a side return. -/
structure QueriesExact
    (book : OrderBook) (side : Side)
    (topLevels : Nat → Except Fault (List (Price × Volume)))
    (numLevels : Nat) (bestPrice : Option Price)
    (entries : List (Price × Volume)) : Prop
    extends ListsLevels book side entries where
  count : numLevels = entries.length
  best : bestPrice = (entries.map Prod.fst).head?
  query : ∀ depth, topLevels depth = .ok (entries.take (min depth numLevels))
  extend : ∀ depth shorter longer, topLevels depth = .ok shorter →
    topLevels (depth + 1) = .ok longer → shorter <+: longer

/-! ## The levels of a side -/

/-- The occupied prices of a side with the shares at each. -/
def levelEntries (book : OrderBook) (side : Side) : List (Price × Volume) :=
  ((ledgerOfBook book.view).occupied book.view.minPrice book.view.maxPrice side).map
    fun price => (price, ((ledgerOfBook book.view).volume side price).toNat)

theorem prices_levelEntries (book : OrderBook) (side : Side) :
    (levelEntries book side).map Prod.fst =
      (ledgerOfBook book.view).occupied book.view.minPrice book.view.maxPrice side := by
  rw [levelEntries, List.map_map]
  exact List.map_id _

theorem sorted_levelEntries (book : OrderBook) (side : Side) :
    ((levelEntries book side).map Prod.fst).Pairwise (Better side) := by
  rw [prices_levelEntries]
  refine ((pricesOf_sorted _ _ side).filter _).imp fun better => ?_
  cases side with
  | buy => exact Int.neg_lt_neg_iff.mp better
  | sell => exact better

theorem listsLevels_levelEntries
    (refines : Refines book book.view)
    (roomy : RoomyBook book.view)
    (side : Side) :
    ListsLevels book side (levelEntries book side) where
  prices price := by
    rw [prices_levelEntries, mem_occupied (refines.valid.inRange side),
      mem_occupiedPrices refines]
  sorted := sorted_levelEntries book side
  volumes := by
    intro entry member index level found samePrice
    obtain ⟨price, _, rfl⟩ := List.mem_map.mp member
    obtain ⟨addr, free, core⟩ := refines.core
    obtain ⟨levelPrice, levelHolds⟩ := (core.holds side).levels index level found
    have bounds := volume_bounds ((core.holds side).sound.queueAt side price)
    rw [← totalVolume_exact refines roomy found,
      levelHolds.toTallies.total_exact ((core.holds side).sound.queueAt side _)
        (roomy side _), ← levelPrice, samePrice, volume_ledgerOfBook core.distinct]
    exact Int.toNat_of_nonneg (by omega)

/-- `get_num_non_empty_levels` counts the occupied prices. -/
theorem length_levelEntries
    (refines : Refines book book.view)
    (roomy : RoomyBook book.view)
    (side : Side) :
    (book.ladder side).getNumNonEmptyLevels = (levelEntries book side).length := by
  obtain ⟨addr, free, core⟩ := refines.core
  have holds := core.holds side
  have few := holds.few
  have length := holds.length
  rw [core.minPrice side, core.maxPrice side] at length
  have count : (book.view.maxPrice - book.view.minPrice + 1).toNat =
    (book.ladder side).levels.length := by lia
  have occupied : (book.ladder side).levels.map (fun level => !level.empty) =
      (List.range (book.ladder side).levels.length).map fun (i : Nat) =>
        decide ((ledgerOfBook book.view).queue side (book.view.minPrice + i) ≠ []) := by
    refine List.ext_getElem (by simp) fun index inArray _ => ?_
    rw [List.length_map] at inArray
    obtain ⟨_, levelHolds⟩ := holds.levels index _ (List.getElem?_eq_getElem inArray)
    rw [List.getElem_map, List.getElem_map, List.getElem_range,
      LadderHolds.empty_eq (roomy side) levelHolds, core.minPrice side, queue_ledgerOfBook]
    simp
  have total : (book.ladder side).levels.countP (fun level => !level.empty) =
      (levelEntries book side).length := by
    have counted := congrArg (List.countP id) occupied
    simp only [List.countP_map, Function.comp_def, id] at counted
    rw [counted, levelEntries, List.length_map, Ledger.occupied, ← List.countP_eq_length_filter]
    cases side with
    | buy =>
        rw [Ledger.pricesOf, List.countP_map, List.countP_reverse, count]
        rfl
    | sell =>
        rw [Ledger.pricesOf, List.countP_map, count]
        rfl
  rw [PriceLadder.getNumNonEmptyLevels, total]
  refine toUInt64_natCast (lt_of_le_of_lt (total ▸ List.countP_le_length) ?_)
  unfold maxLevels sizeofPriceLevel at few
  omega

theorem queriesExact
    (refines : Refines book book.view)
    (roomy : RoomyBook book.view)
    (side : Side) :
    QueriesExact book side (book.ladder side).getTopLevels
      (book.ladder side).getNumNonEmptyLevels (book.ladder side).bestPrice
      (levelEntries book side) where
  toListsLevels := listsLevels_levelEntries refines roomy side
  count := length_levelEntries refines roomy side
  best := by
    rw [prices_levelEntries, head?_occupied (refines.valid.sorted side)
      (refines.valid.inRange side)]
    exact refines.best side
  query depth := by
    rw [refines.getTopLevels_eq roomy, length_levelEntries refines roomy side, ← List.take_take,
      List.take_length, Ledger.depth, List.map_take]
    rfl
  extend depth shorter longer isShorter isLonger := by
    rw [refines.getTopLevels_eq roomy, Ledger.depth, List.map_take] at isShorter isLonger
    rw [← Except.ok.inj isShorter, ← Except.ok.inj isLonger]
    exact List.take_prefix_take_left (Nat.le_succ depth)

/-- In every reachable book, the depth queries list the occupied levels of their side. -/
theorem depth_exact (run : BookRun PublicCalls events book) :
    (∃ bids, QueriesExact book .buy book.getTopBidLevels book.getNumLevelsBids
      book.getBestBidPrice bids) ∧
    ∃ asks, QueriesExact book .sell book.getTopAskLevels book.getNumLevelsAsks
      book.getBestAskPrice asks := by
  obtain ⟨refines, roomy⟩ := Sane.of_run safeCalls_publicCalls run
  exact ⟨⟨_, queriesExact refines roomy .buy⟩, ⟨_, queriesExact refines roomy .sell⟩⟩

theorem depth_exact_sample :
    (∃ bids, QueriesExact sampleSession.2 .buy sampleSession.2.getTopBidLevels
      sampleSession.2.getNumLevelsBids sampleSession.2.getBestBidPrice bids) ∧
    ∃ asks, QueriesExact sampleSession.2 .sell sampleSession.2.getTopAskLevels
      sampleSession.2.getNumLevelsAsks sampleSession.2.getBestAskPrice asks :=
  depth_exact sampleRun_public

end Properties
end MatchingEngine
