import MatchingEngine.Properties.Parsing
import MatchingEngine.Properties.Replication
import MatchingEngine.Refinement.Announcements

/-!
# From one book to another, through a file

What the calls of a run return can be written as a file of the feed.  The file,
parsed and replayed, rebuilds what can be seen of the book of the run.
-/

namespace MatchingEngine
namespace Properties

open OrderBook (BookRun PublicCalls fivePrices run_of_session sampleCalls sampleConfig)
open Refinement
open Replay

variable {book : OrderBook} {events : List (Event OrderBook Operation Output)}
variable {symbol : List UInt8} {obConfig : OrderBookConfig} {engine : ItchReplayEngine}

/-- Whatever else a feed says, the book of an engine goes where the calls lead that the feed
announces about the stock of the engine, faults included. -/
theorem feed_performs_announced (engine : ItchReplayEngine) (messages : List Message) :
    (engine.onMessages messages).map ItchReplayEngine.ob =
      (engine.ob.perform
        (announced engine.symbol engine.targetStockLocate messages)).map Prod.snd := by
  rcases onMessages_announced engine messages with
    ⟨fault, refused, failed⟩ | ⟨events, last, reached, returned, _⟩
  · rw [refused, failed]
    rfl
  · rw [reached, returned]
    rfl

/-- The file that announces calls about a stock: its directory message, and one message
for each call. -/
def published
    (directory : StockDirectoryMessage) (timestamp : Timestamp) (calls : List Operation)
    (directoryTime : directory.timestamp.toNat < 2 ^ 48) (time : timestamp.toNat < 2 ^ 48) :
    List Frame :=
  .handled (.stockDirectory directory) directoryTime ::
    calls.map fun call => .handled (announcementOf directory timestamp call)
      (by rwa [timestamp_announcementOf])

theorem entersFitting_feedOf
    (fits : ∀ event ∈ events, EntersFitting event.input) :
    ∀ call ∈ feedOf events, EntersFitting call := by
  intro call member
  obtain ⟨event, inEvents, reported⟩ := List.mem_flatMap.mp member
  exact entersFitting_reports event.before.view (fits event inEvents) event.output call reported

/-- Every run at prices of 32 bits has a file that announces what its calls returned. -/
theorem published_feed_exists
    (run : BookRun PublicCalls events book)
    (minPrice : 0 ≤ book.minPrice)
    (maxPrice : book.maxPrice < 2 ^ 32)
    (fits : ∀ event ∈ events, EntersFitting event.input)
    {directory : StockDirectoryMessage} {timestamp : Timestamp}
    (matching : ItchReplayEngine.matchesSymbol directory.stock symbol = true)
    (directoryTime : directory.timestamp.toNat < 2 ^ 48)
    (time : timestamp.toNat < 2 ^ 48) :
    announced symbol none ((published directory timestamp (feedOf events) directoryTime
      time).filterMap Frame.message) = feedOf events := by
  obtain ⟨rebuilds, _⟩ := rebuilds_feedOf run
  have empty : FitsFeed book.view.emptied.visible :=
    ⟨fun _ ⟨_, inNone, _⟩ => absurd inNone List.not_mem_nil, minPrice, maxPrice⟩
  have announceable := empty.announceable_of_accepted (entersFitting_feedOf fits)
    rebuilds.positive rebuilds.accepted
  have messages : (published directory timestamp (feedOf events) directoryTime time).filterMap
      Frame.message = .stockDirectory directory ::
        (feedOf events).map (announcementOf directory timestamp) := by
    have later : ((feedOf events).map fun call =>
        Frame.handled (announcementOf directory timestamp call)
          (by rwa [timestamp_announcementOf])).filterMap Frame.message =
        (feedOf events).map (announcementOf directory timestamp) := by
      rw [List.filterMap_map]
      exact congrFun List.filterMap_eq_map' _
    exact congrArg (List.cons _) later
  rw [messages]
  exact announced_announcements matching timestamp announceable

/-! ## The sample calls on prices from 0 to 4

The file has a frame of an unknown type and an order of another stock besides. -/

/-- The sample calls on a book whose prices are not negative. -/
def fivePricesSession : List (Event OrderBook Operation Output) × OrderBook :=
  (OrderBook.session (fivePrices 2 sampleConfig.initialPoolSizeRange)
    sampleCalls).toOption.get (by decide +kernel)

theorem fivePricesRun : BookRun PublicCalls fivePricesSession.1 fivePricesSession.2 :=
  run_of_session (fivePrices 2 sampleConfig.initialPoolSizeRange) sampleCalls rfl
    (by decide +kernel) (by decide +kernel)

theorem fivePricesRun_fits : ∀ event ∈ fivePricesSession.1, EntersFitting event.input := by
  have inputs : fivePricesSession.1.map Event.input = sampleCalls := rfl
  rw [← List.forall_mem_map (P := EntersFitting), inputs]
  simp [sampleCalls, EntersFitting]

theorem published_feed_exists_sample :
    announced [65] none ((published sampleDirectory 2 (feedOf fivePricesSession.1)
      (by decide) (by decide)).filterMap Frame.message) = feedOf fivePricesSession.1 :=
  published_feed_exists fivePricesRun (by decide +kernel) (by decide +kernel)
    fivePricesRun_fits (by decide) (by decide) (by decide)

/-- The published file, with a frame of an unknown type and an order of another stock. -/
def fivePricesFile : List Frame :=
  .unknown 0 [] (by decide) (by decide) ::
    published sampleDirectory 2 (feedOf fivePricesSession.1) (by decide) (by decide) ++
    [.handled (.orderDelete
      { stockLocate := 2, trackingNumber := 0, timestamp := 3, orderReferenceNumber := 1 })
      (by decide)]

/-- A new engine for the same prices. -/
def fivePricesEngine : ItchReplayEngine :=
  (ItchReplayEngine.create [65]
    (fivePrices 2 sampleConfig.initialPoolSizeRange)).toOption.get (by decide +kernel)

end Properties
end MatchingEngine
