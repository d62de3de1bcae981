import MatchingEngine.Properties.Replay
import MatchingEngine.Reference.Clipping

/-!
# The replay book is the in-range part of the visible book

A feed that is valid for a ledger of all prices leaves the book of the engine with the
part of that ledger that is in its range.  That ends with a replacement that takes an
order into the range or out of it: the engine refuses it and leaves the book
as it is.
-/

namespace MatchingEngine
namespace Properties

open Refinement
open Reference (Ledger LedgerReplay)
open Reference.Ledger (everywhere)
open Replay (ItchReplayEngine Message sampleDirectory)

variable {obConfig : OrderBookConfig} {engine : ItchReplayEngine}
variable {symbol : List UInt8}

/-- The visible part of a ledger refuses a crossing replacement whatever its shares. -/
theorem fits_of_crosses
    {shows : Price → Bool} {ledger : Ledger} {change : Reference.FeedChange}
    (crosses : ledger.Crosses shows change) :
    (ledger.clip shows).Fits shows change := by
  cases change with
  | add | take | delete => exact crosses.elim
  | replace originalId newId price shares =>
      obtain ⟨entry, found, different⟩ := crosses
      cases shown : shows entry.price with
      | true => exact Or.inr (Or.inr (Or.inr (by simpa [shown] using different)))
      | false => exact Or.inr (Or.inl (Ledger.live_clip_of_hidden found shown))

/-- The messages of a feed that are about its symbol have fewer than `2 ^ 31` shares. -/
def SmallOnTarget (symbol : List UInt8) (messages : List Message) : Prop :=
  ∀ earlier message, earlier ++ [message] <+: messages →
    (LedgerReplay.replay everywhere symbol earlier).target = some message.stockLocate →
      SmallMessage message

/-- What fits the ledger of all prices fits the part of it in the range. -/
theorem fitsAlong_of_smallOnTarget
    {messages earlier : List Message}
    (small : SmallOnTarget symbol messages)
    (valid : LedgerReplay.Valid symbol messages)
    (isPrefix : earlier <+: messages)
    (inside : LedgerReplay.Inside (shownBy obConfig) symbol earlier) :
    FitsAlong (shownBy obConfig) { symbol } earlier := by
  intro before message reachesMessage tally change asks onTarget
  have beforeEarlier : before <+: earlier := (List.prefix_append _ _).trans reachesMessage
  have clips := LedgerReplay.clips_replay (valid.of_prefix (beforeEarlier.trans isPrefix))
    fun first other firstPrefix => inside first other (firstPrefix.trans beforeEarlier)
  have isSmall := small before message (reachesMessage.trans isPrefix)
    (clips.target.symm.trans onTarget)
  exact isSmall.fits _ _ tally change asks onTarget

/-- After each message of a feed that is valid for a ledger of all prices, and as long as no
replacement crosses the border of the range, the book holds the part of that ledger in its
range; a replacement that crosses the border next is refused. -/
theorem replay_clips_feed
    (created : ItchReplayEngine.create symbol obConfig = .ok engine)
    {messages : List Message}
    (small : SmallOnTarget symbol messages)
    (valid : LedgerReplay.Valid symbol messages)
    {earlier : List Message}
    (isPrefix : earlier <+: messages)
    (inside : LedgerReplay.Inside (shownBy obConfig) symbol earlier) :
    Exhausts engine earlier ∨
    ∃ reached, engine.onMessages earlier = .ok reached ∧
      readLedger reached.ob =
        (LedgerReplay.replay everywhere symbol earlier).ledger.clip (shownBy obConfig) ∧
      ∀ message,
        LedgerReplay.CrossesAt (shownBy obConfig) (LedgerReplay.replay everywhere symbol earlier)
          message →
        reached.onMessage message = .ok reached.countFailure := by
  obtain ⟨spec, tracks, _⟩ := Tracks.of_create created
  have clips := LedgerReplay.clips_replay (valid.of_prefix isPrefix) inside
  refine (tracks.onMessages earlier
    (fitsAlong_of_smallOnTarget small valid isPrefix inside)).imp_right ?_
  rintro ⟨reached, spec', returned, tracks', _⟩
  refine ⟨reached, returned, (recorded_of_tracks tracks').ledger.trans clips.ledger, ?_⟩
  rintro message ⟨tally, change, asks, onTarget, crosses⟩
  refine tracks'.onMessage_of_refused asks (clips.target.trans onTarget) ?_ ?_
  · exact clips.ledger ▸ fits_of_crosses crosses
  · exact clips.ledger ▸ Ledger.apply_clip_of_crosses crosses

theorem sampleFeed_smallOnTarget : SmallOnTarget [65] sampleFeed :=
  fun _ message isPrefix _ => sampleFeed_small message (isPrefix.subset (by simp))

theorem sampleFeed_valid : LedgerReplay.Valid [65] sampleFeed := by
  decide +kernel

theorem sampleFeed_inside :
    LedgerReplay.Inside (shownBy OrderBook.sampleConfig) [65] sampleFeed :=
  LedgerReplay.inside_of_forall_take (by decide +kernel)

theorem replay_clips_feed_sample :
    ∃ reached, sampleEngine.onMessages sampleFeed = .ok reached ∧
      readLedger reached.ob = (LedgerReplay.replay everywhere [65] sampleFeed).ledger.clip
        (shownBy OrderBook.sampleConfig) := by
  obtain ⟨reached, returned, clipped, _⟩ :=
    (replay_clips_feed create_sampleEngine sampleFeed_smallOnTarget sampleFeed_valid
      (List.prefix_refl sampleFeed) sampleFeed_inside).resolve_left sampleFeed_returns
  exact ⟨reached, returned, clipped⟩

/-! ## Replacements that cross the border -/

/-- The replacement of order 7. -/
def sampleReplace (shares : Replay.Shares) (price : Replay.Price) : Message :=
  .orderReplace
    { stockLocate := 1, trackingNumber := 0, timestamp := 3
      originalOrderReferenceNumber := 7, newOrderReferenceNumber := 8, shares, price }

/-- A bid leaves the range. -/
def leavingFeed : List Message :=
  [.stockDirectory sampleDirectory, sampleAdd 7 66 5 3, sampleReplace 5 9]

/-- A bid enters the range. -/
def enteringFeed : List Message :=
  [.stockDirectory sampleDirectory, sampleAdd 7 66 5 9, sampleReplace 5 3]

/-- The book keeps an order that has left its range, and lacks one that has entered it. -/
theorem crossing_replaces_missed :
    (∀ message ∈ leavingFeed ++ enteringFeed, SmallMessage message) ∧
    LedgerReplay.Valid [65] leavingFeed ∧ LedgerReplay.Valid [65] enteringFeed ∧
    (∃ last, sampleEngine.onMessages leavingFeed = .ok last ∧
      (readLedger last.ob).live 7 = some ⟨.buy, 3, 5⟩ ∧
      ((LedgerReplay.replay everywhere [65] leavingFeed).ledger.clip
        (shownBy OrderBook.sampleConfig)).live 7 = none) ∧
    ∃ last, sampleEngine.onMessages enteringFeed = .ok last ∧
      (readLedger last.ob).live 8 = none ∧
      ((LedgerReplay.replay everywhere [65] enteringFeed).ledger.clip
        (shownBy OrderBook.sampleConfig)).live 8 = some ⟨.buy, 3, 5⟩ := by
  refine ⟨?_, by decide +kernel, by decide +kernel, ?_, ?_⟩
  · simp [leavingFeed, enteringFeed, SmallMessage, sampleAdd, sampleReplace, Reference.changeOf,
      sharesOf]
  · exact ⟨(sampleEngine.onMessages leavingFeed).toOption.get (by decide +kernel), rfl,
      by decide +kernel, by decide +kernel⟩
  · exact ⟨(sampleEngine.onMessages enteringFeed).toOption.get (by decide +kernel), rfl,
      by decide +kernel, by decide +kernel⟩

end Properties
end MatchingEngine
