import MatchingEngine.Refinement.Crowd
import MatchingEngine.Refinement.Snapshot

/-!
# The replay engine refines a ledger

Whatever feed the engine is handed, as long as the share counts of its messages are
quantities, the target, the counters and the orders of the engine are those of
a ledger that takes in the same messages.  While no level has more orders than its
counter can count, what the book shows at its top is what the ledger says.
-/

namespace MatchingEngine
namespace Properties

open Refinement
open Reference (Ledger LedgerReplay Tally FeedChange)
open Replay (ItchReplayEngine Message sampleDirectory)

variable {obConfig : OrderBookConfig} {engine : ItchReplayEngine} {state : LedgerReplay}
variable {spec : Reference.Book}

/-! ## The ledger and the top of the book -/

/-- The engine holds what a ledger of its feed holds, its counters and volumes up to
their widths. -/
structure Recorded
    (obConfig : OrderBookConfig) (engine : ItchReplayEngine) (state : LedgerReplay) :
    Prop where
  target : engine.targetStockLocate = state.target
  ledger : readLedger engine.ob = state.ledger
  volumes : ∀ side price, obConfig.minPrice ≤ price ∧ price ≤ obConfig.maxPrice →
    levelVolume engine.ob side price = some (toUInt64 (state.ledger.volume side price))
  applied : ∀ tally, counterOf engine tally = toUInt64 (state.applied tally)
  failed : engine.failedApplications = toUInt64 state.failed

/-- Best prices, volumes and depth lists of a book are those of a ledger. -/
structure TopOfBook
    (obConfig : OrderBookConfig) (book : OrderBook) (ledger : Ledger) : Prop where
  bestBid : book.getBestBidPrice =
    (ledger.occupied obConfig.minPrice obConfig.maxPrice .buy).head?
  bestAsk : book.getBestAskPrice =
    (ledger.occupied obConfig.minPrice obConfig.maxPrice .sell).head?
  volumes : ∀ side price, obConfig.minPrice ≤ price ∧ price ≤ obConfig.maxPrice →
    levelVolume book side price = some (ledger.volume side price).toNat
  topBids : ∀ depth, book.getTopBidLevels depth =
    .ok (ledger.depth obConfig.minPrice obConfig.maxPrice .buy depth)
  topAsks : ∀ depth, book.getTopAskLevels depth =
    .ok (ledger.depth obConfig.minPrice obConfig.maxPrice .sell depth)

theorem recorded_of_tracks (tracks : Tracks obConfig engine state spec) :
    Recorded obConfig engine state where
  target := tracks.target
  ledger := tracks.orderly.carries.readLedger_eq.trans tracks.ledger
  volumes side price inRange := by
    rw [← tracks.minPrice, ← tracks.maxPrice] at inRange
    rw [tracks.orderly.carries.levelVolume_eq side inRange, tracks.ledger]
  applied := tracks.applied
  failed := tracks.failed

theorem topOfBook_of_refines
    (tracks : Tracks obConfig engine state spec)
    (refines : Refines engine.ob spec)
    (capacity : state.ledger.WithinCapacity) :
    TopOfBook obConfig engine.ob state.ledger := by
  have roomy := tracks.roomy capacity
  have best : ∀ side, (engine.ob.ladder side).bestPrice =
      (state.ledger.occupied obConfig.minPrice obConfig.maxPrice side).head? := by
    intro side
    rw [← tracks.ledger, ← tracks.minPrice, ← tracks.maxPrice,
      head?_occupied (refines.valid.sorted side) (refines.valid.inRange side)]
    exact refines.best side
  have depths : ∀ side depth, (engine.ob.ladder side).getTopLevels depth =
      .ok (state.ledger.depth obConfig.minPrice obConfig.maxPrice side depth) := by
    intro side depth
    rw [← tracks.ledger, ← tracks.minPrice, ← tracks.maxPrice]
    exact refines.getTopLevels_eq roomy side depth
  refine ⟨best .buy, best .sell, fun side price inRange => ?_, depths .buy, depths .sell⟩
  rw [(recorded_of_tracks tracks).volumes side price inRange, ← tracks.ledger,
    volume_ledgerOfBook refines.carries.distinct]
  have bounds := volume_bounds ((show Sound (spec.orders side) from
    tracks.orderly.sound side).queueAt side price)
  have few := roomy side price
  unfold toUInt64
  congr 1
  omega

/-- For any feed of messages with less than `2 ^ 31` shares, the engine ends with what a
ledger of the feed holds, unless the pool of the book is exhausted.  While no queue has
`2 ^ 32` orders, best prices, volumes and depth lists are those of the ledger. -/
theorem replay_refines_ledger
    {symbol : List UInt8}
    (created : ItchReplayEngine.create symbol obConfig = .ok engine)
    (messages : List Message)
    (small : ∀ message ∈ messages, SmallMessage message) :
    Exhausts engine messages ∨
    ∃ last, engine.onMessages messages = .ok last ∧
      Recorded obConfig last (LedgerReplay.replay (shownBy obConfig) symbol messages) ∧
      ((∀ earlier, earlier <+: messages →
          (LedgerReplay.replay (shownBy obConfig) symbol earlier).ledger.WithinCapacity) →
        TopOfBook obConfig last.ob
          (LedgerReplay.replay (shownBy obConfig) symbol messages).ledger) := by
  obtain ⟨spec, tracks, refines⟩ := Tracks.of_create created
  refine (tracks.onMessages messages (.of_small small _ _)).imp_right ?_
  rintro ⟨last, lastSpec, reached, lastTracks, lastRefines⟩
  refine ⟨last, reached, recorded_of_tracks lastTracks, fun capacity => ?_⟩
  exact topOfBook_of_refines lastTracks (lastRefines small refines capacity)
    (capacity messages (List.prefix_refl messages))

/-! ## A short feed

The symbol is A.  An order is executed in part and replaced, another one is canceled, a
third is out of range and a message is about another stock. -/

/-- An order of the symbol. -/
def sampleAdd (orderReferenceNumber : Replay.OrderReferenceNumber) (buySellIndicator : UInt8)
    (shares : Replay.Shares) (price : Replay.Price) : Message :=
  .addOrder
    { stockLocate := 1, trackingNumber := 0, timestamp := 2, orderReferenceNumber
      buySellIndicator, shares, stock := sampleDirectory.stock, price }

/-- A feed for symbol A, with a deletion of another stock. -/
def sampleFeed : List Message :=
  [.stockDirectory sampleDirectory,
    sampleAdd 7 66 5 3,
    sampleAdd 8 83 4 2,
    sampleAdd 9 83 4 5,
    .orderExecuted
      { stockLocate := 1, trackingNumber := 0, timestamp := 3, orderReferenceNumber := 7
        executedShares := 2, matchNumber := 1 },
    .orderCancel
      { stockLocate := 1, trackingNumber := 0, timestamp := 4, orderReferenceNumber := 8
        cancelledShares := 4 },
    .orderDelete
      { stockLocate := 2, trackingNumber := 0, timestamp := 5, orderReferenceNumber := 7 },
    .orderReplace
      { stockLocate := 1, trackingNumber := 0, timestamp := 6
        originalOrderReferenceNumber := 7, newOrderReferenceNumber := 10, shares := 6
        price := 0 }]

/-- A new engine for symbol A. -/
def sampleEngine : ItchReplayEngine :=
  (ItchReplayEngine.create [65] OrderBook.sampleConfig).toOption.get (by decide +kernel)

theorem create_sampleEngine :
    ItchReplayEngine.create [65] OrderBook.sampleConfig = .ok sampleEngine := rfl

theorem sampleFeed_small : ∀ message ∈ sampleFeed, SmallMessage message := by
  simp [sampleFeed, SmallMessage, sampleAdd, Reference.changeOf, sharesOf]

theorem sampleFeed_returns : ¬ Exhausts sampleEngine sampleFeed := by
  intro exhausts
  have returns : (sampleEngine.onMessages sampleFeed).toOption.isSome = true := by
    decide +kernel
  rw [exhausts.onMessages] at returns
  cases returns

theorem replay_refines_ledger_sample :
    ∃ last, sampleEngine.onMessages sampleFeed = .ok last ∧
      Recorded OrderBook.sampleConfig last
        (LedgerReplay.replay (shownBy OrderBook.sampleConfig) [65] sampleFeed) := by
  obtain ⟨last, reached, recorded, _⟩ :=
    (replay_refines_ledger create_sampleEngine sampleFeed sampleFeed_small).resolve_left
      sampleFeed_returns
  exact ⟨last, reached, recorded⟩

/-! ## A level that counts zero -/

/-- A feed with so many bids at one price. -/
def crowdFeed (count : Nat) : List Message :=
  .stockDirectory sampleDirectory ::
    (List.range count).map fun index => sampleAdd (.ofNat index) 66 1 0

theorem crowdFeed_succ (count : Nat) :
    crowdFeed (count + 1) = crowdFeed count ++ [sampleAdd (.ofNat count) 66 1 0] := by
  simp [crowdFeed, List.range_succ]

theorem crowdFeed_small (count : Nat) : ∀ message ∈ crowdFeed count, SmallMessage message := by
  simp [crowdFeed, SmallMessage, sampleAdd, Reference.changeOf, sharesOf]

/-- One more order for a crowd. -/
theorem add_to_crowd
    {count : Nat}
    (crowded : Crowded .gtc count engine.ob)
    (target : engine.targetStockLocate = some 1)
    (small : count < 4294967296) :
    ∃ next, engine.onMessage (sampleAdd (.ofNat count) 66 1 0) = .ok next ∧
      Crowded .gtc (count + 1) next.ob ∧ next.targetStockLocate = some 1 := by
  obtain ⟨next, rested, crowded'⟩ := crowded.restOrder small
  have accepted : ¬ ((1 : Int) = 0 ∨ count ∈ engine.ob.idToOrderMap ∨
      (0 : Int) < engine.ob.minPrice ∨ (0 : Int) > engine.ob.maxPrice) := by
    rw [crowded.refines.mem_idMap, contains_crowd, crowded.refines.minPrice,
      crowded.refines.maxPrice]
    simp [crowd]
  have added : callOf (.add count .buy 0 1) engine.ob = .ok (true, next) := by
    rw [callOf, show toInt32 1 = 1 from rfl, OrderBook.replayAddVisibleOrder, if_neg accepted]
    exact congrArg (· >>= _) rested
  have reference : (UInt64.ofNat count).toNat = count :=
    UInt64.toNat_ofNat_of_lt' (small.trans (by decide))
  have asks : Reference.changeOf (sampleAdd (.ofNat count) 66 1 0) =
      some (.adds, .add count .buy 0 1) := by
    rw [sampleAdd, Reference.changeOf, reference]
    rfl
  have onTarget : (!engine.isTargetStock (sampleAdd (.ofNat count) 66 1 0).stockLocate) =
      false := by
    rw [ItchReplayEngine.isTargetStock, target]
    rfl
  refine ⟨{ engine with ob := next }.countAdd, ?_, crowded', target⟩
  rw [onMessage_eq asks, ItchReplayEngine.applyToBook]
  simp only [onTarget, Bool.false_eq_true, if_false, added, ok_bind, if_true]
  rfl

/-- The engine takes in the whole crowd. -/
theorem exists_crowd_engine (count : Nat) (small : count ≤ 4294967296) :
    ∃ engine last, ItchReplayEngine.create [65] crowdConfig = .ok engine ∧
      engine.onMessages (crowdFeed count) = .ok last ∧ Crowded .gtc count last.ob := by
  obtain ⟨book, created, crowded⟩ := exists_crowded .gtc
  refine ⟨{ symbol := [65], targetStockLocate := none, ob := book }, ?_⟩
  suffices reached : ∃ last : ItchReplayEngine,
      ItchReplayEngine.onMessages { symbol := [65], targetStockLocate := none, ob := book }
        (crowdFeed count) = .ok last ∧ Crowded .gtc count last.ob ∧
      last.targetStockLocate = some 1 by
    obtain ⟨last, returned, crowded', _⟩ := reached
    exact ⟨last, by rw [ItchReplayEngine.create, created, ok_bind], returned, crowded'⟩
  induction count with
  | zero => exact ⟨_, rfl, crowded, rfl⟩
  | succ count inductionHypothesis =>
      obtain ⟨before, reached, crowdedBefore, target⟩ := inductionHypothesis (by omega)
      obtain ⟨last, returned, crowded', target'⟩ :=
        add_to_crowd crowdedBefore target (by omega)
      refine ⟨last, ?_, crowded', target'⟩
      rw [crowdFeed_succ, onMessages_append, reached, ok_bind, ItchReplayEngine.onMessages,
        List.foldlM_cons, returned]
      rfl

/-- The depth list of the bids passes over a level whose counter is back at zero. -/
theorem unlisted_crowd
    {book : OrderBook}
    (crowded : Crowded .gtc 4294967296 book) :
    book.getTopBidLevels 1 = .ok [] := by
  obtain ⟨addr, free, linked⟩ := crowded.refines.carries.linked
  have links := linked.links .buy
  have isBest : (book.ladder .buy).bestPrice = some 0 :=
    (crowded.refines.best .buy).trans (bestOf_crowd (by decide))
  have inRange : InRange (book.ladder .buy) 0 := crowded.refines.carries.inRange .buy
    ⟨le_refl (0 : Int), show (0 : Int) ≤ 4 by decide⟩
  have bottom : (book.ladder .buy).minPrice = 0 := linked.minPrice .buy
  have index : indexOf (book.ladder .buy) 0 = 0 := by
    rw [indexOf, bottom]
    rfl
  have inside := links.toShape.indexOf_lt inRange
  rw [index] at inside
  have uncounted : Uncounted (queueAt .buy ((book.ladder .buy).minPrice + (0 : Nat))
      ((crowd .gtc 4294967296).orders .buy)) := by
    rw [bottom, Nat.cast_zero, Int.add_zero, queueAt_crowd, Uncounted, length_crowd]
  have noEntry := entryAt_of_uncounted links inside uncounted
  change (book.ladder .buy).getTopLevels 1 = .ok []
  simp only [PriceLadder.getTopLevels, isBest, Nat.one_ne_zero, if_false,
    links.toShape.index_eq inRange, index, links.side_eq]
  rw [topLevelsDown_eq inside Nat.zero_lt_one]
  simp [noEntry]

/-- A level whose counter has wrapped around to zero is missing from the depth lists. -/
theorem wrapped_level_unlisted :
    ∃ engine last, ItchReplayEngine.create [65] crowdConfig = .ok engine ∧
      (∀ message ∈ crowdFeed 4294967296, SmallMessage message) ∧
      engine.onMessages (crowdFeed 4294967296) = .ok last ∧
      last.ob.getTopBidLevels 1 ≠
        .ok ((LedgerReplay.replay (shownBy crowdConfig) [65] (crowdFeed 4294967296)).ledger.depth
          crowdConfig.minPrice crowdConfig.maxPrice .buy 1) := by
  obtain ⟨engine, last, created, returned, crowded⟩ := exists_crowd_engine 4294967296 le_rfl
  refine ⟨engine, last, created, crowdFeed_small _, returned, ?_⟩
  obtain ⟨spec, tracks, _⟩ := Tracks.of_create created
  rcases tracks.onMessages _ (.of_small (crowdFeed_small 4294967296) _ _) with
    exhausts | ⟨last', spec', returned', tracks', _⟩
  · cases exhausts.onMessages.symm.trans returned
  obtain rfl := Except.ok.inj (returned'.symm.trans returned)
  obtain rfl : crowd .gtc 4294967296 = spec' :=
    crowded.refines.carries.view_eq.symm.trans tracks'.orderly.carries.view_eq
  have listed : last'.ob.getTopBidLevels 1 = .ok [] := unlisted_crowd crowded
  rw [listed, LedgerReplay.replay, ← tracks'.ledger]
  have first := head?_occupied (crowded.refines.valid.sorted .buy)
    (crowded.refines.valid.inRange .buy)
  rw [bestOf_crowd (by decide), show (crowd .gtc 4294967296).minPrice = crowdConfig.minPrice from
    rfl, show (crowd .gtc 4294967296).maxPrice = crowdConfig.maxPrice from rfl] at first
  obtain ⟨rest, occupied⟩ := List.head?_eq_some_iff.mp first
  rw [Ledger.depth, occupied, List.take_succ_cons, List.map_cons]
  exact fun equal => List.cons_ne_nil _ _ (Except.ok.inj equal).symm

end Properties
end MatchingEngine
