import MatchingEngine.Properties.Depth
import MatchingEngine.Properties.Replay
import MatchingEngine.Refinement.Summary

/-!
# The printed summary is that of the ledger

Whatever feed of small messages the engine is handed, the text of its summary is
that of a ledger which takes in the same messages, with every price in exact dollars.
-/

namespace MatchingEngine
namespace Properties

open Refinement
open Reference (Ledger LedgerReplay Order orderPriority writePrice)
open Replay (ItchReplayEngine Message Summary printPrice)

variable {obConfig : OrderBookConfig} {engine : ItchReplayEngine} {state : LedgerReplay}
variable {spec : Reference.Book}

/-! ## The figures -/

/-- The orders of a ledger, level by level, are those of the book. -/
theorem ordersOf_ledgerOfBook
    {side : Side}
    (sorted : KeyedList.Ordered (orderPriority side) (spec.orders side))
    (inRange : ∀ order ∈ spec.orders side,
      spec.minPrice ≤ order.price ∧ order.price ≤ spec.maxPrice) :
    (ledgerOfBook spec).ordersOf spec.minPrice spec.maxPrice side =
      (spec.orders side).map Order.id := by
  have keyed := sorted.flatMap_bucket
    ((Ledger.pricesOf spec.minPrice spec.maxPrice side).map (Reference.priority side))
    (List.pairwise_map.mpr (pricesOf_sorted _ _ side))
    fun order member => List.mem_map_of_mem (Ledger.mem_pricesOf.mpr (inRange order member))
  calc (ledgerOfBook spec).ordersOf spec.minPrice spec.maxPrice side
      = ((Ledger.pricesOf spec.minPrice spec.maxPrice side).flatMap fun price =>
          queueAt side price (spec.orders side)).map Order.id := by
        rw [List.map_flatMap]
        rfl
    _ = (spec.orders side).map Order.id := by
        rw [List.flatMap_map] at keyed
        exact congrArg (List.map Order.id) keyed

theorem numOrders_eq
    (tracks : Tracks obConfig engine state spec)
    (refines : Refines engine.ob spec) :
    engine.ob.getNumOrders =
      (state.ledger.ordersOf obConfig.minPrice obConfig.maxPrice .buy).length +
        (state.ledger.ordersOf obConfig.minPrice obConfig.maxPrice .sell).length := by
  have listed : ∀ side,
      (state.ledger.ordersOf obConfig.minPrice obConfig.maxPrice side).length =
        (spec.orders side).length := by
    intro side
    rw [← tracks.ledger, ← tracks.minPrice, ← tracks.maxPrice,
      ordersOf_ledgerOfBook (refines.valid.sorted side) (refines.valid.inRange side),
      List.length_map]
  rw [refines.carries.getNumOrders_eq, List.length_append, listed, listed]
  rfl

theorem numLevels_eq
    (tracks : Tracks obConfig engine state spec)
    (refines : Refines engine.ob spec)
    (roomy : RoomyBook spec)
    (side : Side) :
    (engine.ob.ladder side).getNumNonEmptyLevels =
      (state.ledger.occupied obConfig.minPrice obConfig.maxPrice side).length := by
  have view := refines.view_eq
  subst view
  rw [length_levelEntries refines roomy side, levelEntries, List.length_map, tracks.ledger,
    tracks.minPrice, tracks.maxPrice]

theorem bestLevel_eq
    (tracks : Tracks obConfig engine state spec)
    (refines : Refines engine.ob spec)
    (roomy : RoomyBook spec)
    (side : Side) :
    ItchReplayEngine.bestLevel engine.ob side
        (state.ledger.occupied obConfig.minPrice obConfig.maxPrice side).head? =
      .ok (state.ledger.bestLevel obConfig.minPrice obConfig.maxPrice side) := by
  rw [Ledger.bestLevel, Ledger.depth]
  cases occupied : state.ledger.occupied obConfig.minPrice obConfig.maxPrice side with
  | nil => rfl
  | cons best others =>
      have member : best ∈ Ledger.pricesOf obConfig.minPrice obConfig.maxPrice side :=
        List.mem_of_mem_filter (occupied ▸ List.mem_cons_self)
      have inRange := Ledger.mem_pricesOf.mp member
      rw [← tracks.minPrice, ← tracks.maxPrice] at inRange
      obtain ⟨level, found, _, total⟩ := levelAt_of_inRange refines roomy side inRange
      have shares : engine.ob.getNumSharesAtLevel best side =
          .ok (state.ledger.volume side best).toNat := by
        rw [OrderBook.getNumSharesAtLevel, found, ok_bind, PriceLevel.getTotalVolume, total,
          ← tracks.ledger, volume_ledgerOfBook refines.carries.distinct]
        rfl
      simp only [List.head?_cons, ItchReplayEngine.bestLevel, shares, ok_bind, List.take_succ_cons,
        List.map_cons]

/-- The figures of the engine are those of its ledger. -/
theorem summary_eq
    (tracks : Tracks obConfig engine state spec)
    (refines : Refines engine.ob spec)
    (capacity : state.ledger.WithinCapacity)
    (depth : Nat) :
    engine.summary depth =
      .ok (state.summary obConfig.minPrice obConfig.maxPrice depth) := by
  have roomy := tracks.roomy capacity
  have top := topOfBook_of_refines tracks refines capacity
  have bids : engine.ob.getNumLevelsBids = _ := numLevels_eq tracks refines roomy .buy
  have asks : engine.ob.getNumLevelsAsks = _ := numLevels_eq tracks refines roomy .sell
  have applied := tracks.applied
  rw [ItchReplayEngine.summary, top.bestBid, top.bestAsk, bestLevel_eq tracks refines roomy,
    bestLevel_eq tracks refines roomy, top.topAsks, top.topBids, numOrders_eq tracks refines,
    bids, asks, tracks.symbol, tracks.target, tracks.failed]
  simp only [ok_bind, LedgerReplay.summary, ← applied, counterOf]

/-! ## The text -/

/-- The levels that a summary shows. -/
def levelsShown (summary : Summary) : List (Price × Volume) :=
  summary.bestBid.toList ++ summary.bestAsk.toList ++ summary.topAskLevels ++
    summary.topBidLevels

section Ways

variable {firstWay secondWay : Price → List UInt8}

theorem bestLine_congr
    {best : Option (Price × Volume)} {label : String}
    (agree : ∀ level ∈ best.toList,
      Summary.showLevel firstWay level = Summary.showLevel secondWay level) :
    Summary.bestLine firstWay label best = Summary.bestLine secondWay label best := by
  cases best with
  | none => rfl
  | some level =>
      simp only [Summary.bestLine, agree level (Option.mem_toList.mpr rfl)]

theorem levelLines_congr
    {levels : List (Price × Volume)}
    (agree : ∀ level ∈ levels,
      Summary.showLevel firstWay level = Summary.showLevel secondWay level) :
    Summary.levelLines firstWay levels = Summary.levelLines secondWay levels :=
  List.flatMap_congr fun level member => by rw [agree level member]

/-- Two ways to show prices give one text when they agree on the levels that are shown. -/
theorem print_congr
    {summary : Summary}
    (agree : ∀ level ∈ levelsShown summary, firstWay level.1 = secondWay level.1)
    (depth : Nat) :
    summary.print firstWay depth = summary.print secondWay depth := by
  have shown : ∀ level ∈ levelsShown summary,
      Summary.showLevel firstWay level = Summary.showLevel secondWay level := by
    intro level member
    rw [Summary.showLevel, Summary.showLevel, agree level member]
  simp only [levelsShown, List.forall_mem_append] at shown
  obtain ⟨⟨⟨bestBid, bestAsk⟩, topAskLevels⟩, topBidLevels⟩ := shown
  rw [Summary.print, Summary.print, Summary.printTop, Summary.printTop, bestLine_congr bestBid,
    bestLine_congr bestAsk, levelLines_congr topAskLevels, levelLines_congr topBidLevels]

end Ways

/-- Every level of a ledger of a feed is at a price of 32 bits. -/
theorem price_of_mem_depth
    {ledger : Ledger} {side : Side} {minPrice maxPrice : Price} {depth : Nat}
    {level : Price × Volume}
    (fit : ledger.PricesFit)
    (member : level ∈ ledger.depth minPrice maxPrice side depth) :
    InUInt32 level.1 := by
  obtain ⟨price, inOccupied, rfl⟩ := List.mem_map.mp member
  have occupied := List.of_mem_filter (List.mem_of_mem_take inOccupied)
  exact fit side price (of_decide_eq_true occupied)

theorem price_of_mem_levelsShown
    (fit : state.ledger.PricesFit)
    {minPrice maxPrice : Price} {depth : Nat}
    {level : Price × Volume}
    (member : level ∈ levelsShown (state.summary minPrice maxPrice depth)) :
    InUInt32 level.1 := by
  simp only [levelsShown, LedgerReplay.summary, Ledger.bestLevel, List.mem_append,
    Option.mem_toList] at member
  rcases member with ((bestBid | bestAsk) | topAsk) | topBid
  · exact price_of_mem_depth fit (List.mem_of_mem_head? bestBid)
  · exact price_of_mem_depth fit (List.mem_of_mem_head? bestAsk)
  · exact price_of_mem_depth fit topAsk
  · exact price_of_mem_depth fit topBid

/-- The text of the engine is that of the summary of its ledger, in exact dollars. -/
theorem printSummary_eq
    (tracks : Tracks obConfig engine state spec)
    (refines : Refines engine.ob spec)
    (capacity : state.ledger.WithinCapacity)
    (fit : state.ledger.PricesFit)
    (depth : Nat) :
    engine.printSummary depth =
      .ok ((state.summary obConfig.minPrice obConfig.maxPrice depth).print writePrice depth) := by
  rw [ItchReplayEngine.printSummary, summary_eq tracks refines capacity, ok_bind]
  refine congrArg Except.ok (print_congr (fun level member => ?_) depth)
  have bits := price_of_mem_levelsShown fit member
  apply printPrice_eq
  rw [abs_of_nonneg bits.1]
  exact bits.2.trans (by norm_num)

/-- For any feed of messages with less than `2 ^ 31` shares during which no queue has
`2 ^ 32` orders, the engine prints what a ledger of the feed says, digit by digit, unless
the pool of the book is exhausted. -/
theorem summary_exact
    {symbol : List UInt8}
    (created : ItchReplayEngine.create symbol obConfig = .ok engine)
    (messages : List Message)
    (small : ∀ message ∈ messages, SmallMessage message)
    (capacity : ∀ earlier, earlier <+: messages →
      (LedgerReplay.replay (shownBy obConfig) symbol earlier).ledger.WithinCapacity)
    (depth : Nat) :
    Exhausts engine messages ∨
    ∃ last, engine.onMessages messages = .ok last ∧
      last.printSummary depth =
        .ok (((LedgerReplay.replay (shownBy obConfig) symbol messages).summary
          obConfig.minPrice obConfig.maxPrice depth).print writePrice depth) := by
  obtain ⟨spec, tracks, refines⟩ := Tracks.of_create created
  refine (tracks.onMessages messages (.of_small small _ _)).imp_right ?_
  rintro ⟨last, lastSpec, reached, lastTracks, lastRefines⟩
  exact ⟨last, reached, printSummary_eq lastTracks (lastRefines small refines capacity)
    (capacity messages (List.prefix_refl messages))
    (LedgerReplay.pricesFit_replay (shownBy obConfig) symbol messages) depth⟩

theorem summary_exact_sample :
    ∃ last, sampleEngine.onMessages sampleFeed = .ok last ∧
      last.printSummary 5 =
        .ok (((LedgerReplay.replay (shownBy OrderBook.sampleConfig) [65] sampleFeed).summary
          OrderBook.sampleConfig.minPrice OrderBook.sampleConfig.maxPrice 5).print
            writePrice 5) :=
  (summary_exact create_sampleEngine sampleFeed sampleFeed_small
    (LedgerReplay.withinCapacity_of_few _ _ (by decide)) 5).resolve_left sampleFeed_returns

end Properties
end MatchingEngine
