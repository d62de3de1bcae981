import MatchingEngine.Properties.Replay

/-!
# Shares and quantities

The shares of a message are an unsigned number, the quantities of the book are signed.
As long as the shares of every change that passes the guards of the book fit both a quantity
and the volume of their level, an order rests with the shares of its message and
loses the shares that are executed or canceled.
-/

namespace MatchingEngine
namespace Properties

open Refinement
open Reference (Ledger LedgerReplay FeedChange changeOf)
open Replay (ItchReplayEngine Message sampleDirectory)
open Replay.ItchReplayEngine (EngineRun Starts Handles)

variable {obConfig : OrderBookConfig} {engine next : ItchReplayEngine} {state : LedgerReplay}
variable {spec : Reference.Book}

/-- The shares of a message for the symbol survive, or the book refuses the message whatever
its shares. -/
def SharesSurvive (engine : ItchReplayEngine) (message : Message) : Prop :=
  ∀ tally change, changeOf message = some (tally, change) →
    engine.isTargetStock message.stockLocate = true →
      (readLedger engine.ob).Survives (Ledger.within engine.ob.minPrice engine.ob.maxPrice) change

/-- The volume of a level has been raised by an amount. -/
def Raised (before after : OrderBook) (side : Side) (price : Price) (amount : Int) : Prop :=
  ∃ volume volume', levelVolume before side price = some volume ∧
    levelVolume after side price = some volume' ∧ (volume' : Int) = volume + amount

/-- No order of a book has more shares than before. -/
def NoneGrows (before after : OrderBook) : Prop :=
  ∀ id entry, (readLedger after).live id = some entry →
    ∃ earlier, (readLedger before).live id = some earlier ∧
      entry.openQuantity ≤ earlier.openQuantity

/-- What a change does to the quantities of a book.  The volume that a replacement raises is
that without the original order. -/
def Honest (before after : OrderBook) : FeedChange → Prop
  | .add id side price shares => 0 < shares →
      after = before ∨
      (readLedger after).live id = some ⟨side, price, shares⟩ ∧
        Raised before after side price shares
  | .take id shares => NoneGrows before after ∧
      ∀ entry, (readLedger before).live id = some entry →
        after = before ∨
        1 ≤ shares ∧ shares ≤ entry.openQuantity ∧
          (readLedger after).live id =
            if shares = entry.openQuantity then none
            else some { entry with openQuantity := entry.openQuantity - shares }
  | .delete _ => True
  | .replace originalId newId price shares => 0 < shares →
      after = before ∨
      ∃ entry, (readLedger before).live originalId = some entry ∧
        (readLedger after).live newId = some ⟨entry.side, price, shares⟩ ∧
        Raised before after entry.side price
          (shares - if entry.price = price then entry.openQuantity else 0)

theorem NoneGrows.refl (book : OrderBook) : NoneGrows book book :=
  fun _ entry found => ⟨entry, found, le_rfl⟩

/-- A change that is refused. -/
theorem honest_refl (book : OrderBook) (change : FeedChange) : Honest book book change := by
  cases change with
  | add | replace => exact fun _ => Or.inl rfl
  | take => exact ⟨.refl book, fun _ _ => Or.inl rfl⟩
  | delete => trivial

/-- An engine that the ledger of its feed describes, down to the volumes. -/
structure Faithful (engine : ItchReplayEngine) : Prop where
  tracks : ∃ obConfig state spec, Tracks obConfig engine state spec
  light : (readLedger engine.ob).Light

theorem Faithful.of_starts (starts : Starts engine) : Faithful engine := by
  obtain ⟨symbol, obConfig, created⟩ := starts
  obtain ⟨spec, tracks, _⟩ := Tracks.of_create created
  refine ⟨⟨_, _, _, tracks⟩, fun side price => ?_⟩
  rw [(recorded_of_tracks tracks).ledger]
  exact (by decide : (0 : Int) < 18446744073709551616)

/-- The volume of a level of the range, in a book whose volumes have not wrapped. -/
theorem levelVolume_of_light
    (tracks : Tracks obConfig engine state spec)
    (light : (readLedger engine.ob).Light)
    (side : Side) {price : Price}
    (inRange : Ledger.within obConfig.minPrice obConfig.maxPrice price = true) :
    ∃ volume, levelVolume engine.ob side price = some volume ∧
      (volume : Int) = state.ledger.volume side price := by
  have recorded := recorded_of_tracks tracks
  have wellFormed := tracks.orderly.wellFormed
  rw [tracks.ledger] at wellFormed
  rw [recorded.ledger] at light
  have nonneg := wellFormed.volume_nonneg side price
  have bound := light side price
  exact ⟨_, recorded.volumes side price (Ledger.within_eq_true.mp inRange),
    toUInt64_of_inUInt64 ⟨nonneg, bound⟩⟩

/-- A volume is raised by what the ledger adds to it. -/
theorem raised_of_volume
    {state' : LedgerReplay} {spec' : Reference.Book}
    (tracks : Tracks obConfig engine state spec)
    (tracks' : Tracks obConfig next state' spec')
    (light : (readLedger engine.ob).Light)
    (light' : (readLedger next.ob).Light)
    {side : Side} {price : Price} {amount : Int}
    (inRange : Ledger.within obConfig.minPrice obConfig.maxPrice price = true)
    (raised : state'.ledger.volume side price = state.ledger.volume side price + amount) :
    Raised engine.ob next.ob side price amount := by
  obtain ⟨volume, atBefore, exact⟩ := levelVolume_of_light tracks light side inRange
  obtain ⟨volume', atAfter, exact'⟩ := levelVolume_of_light tracks' light' side inRange
  exact ⟨volume, volume', atBefore, atAfter, by rw [exact', raised, exact]⟩

/-- Where the entry of one order has changed and no more shares are open on it, no order
has more shares than before. -/
theorem noneGrows_of_update
    {before after : Ledger} {id : OrderID} {entry : Reference.Entry}
    {stored : Option Reference.Entry}
    (found : before.live id = some entry)
    (updated : after.live = Function.update before.live id stored)
    (fewer : ∀ kept ∈ stored, kept.openQuantity ≤ entry.openQuantity) :
    ∀ other kept, after.live other = some kept →
      ∃ earlier, before.live other = some earlier ∧ kept.openQuantity ≤ earlier.openQuantity := by
  intro other kept present
  rw [updated] at present
  by_cases same : other = id
  · subst same
    rw [Function.update_self] at present
    exact ⟨entry, found, fewer kept present⟩
  · rw [Function.update_of_ne same] at present
    exact ⟨kept, present, le_rfl⟩

/-- A change that the ledger takes in. -/
theorem honest_of_applied
    {state' : LedgerReplay} {spec' : Reference.Book} {change : FeedChange}
    (tracks : Tracks obConfig engine state spec)
    (tracks' : Tracks obConfig next state' spec')
    (light : (readLedger engine.ob).Light)
    (light' : (readLedger next.ob).Light)
    (applied : state.ledger.apply (shownBy obConfig) change = some state'.ledger) :
    Honest engine.ob next.ob change := by
  have wellFormed := tracks.orderly.wellFormed
  rw [tracks.ledger] at wellFormed
  have raised : ∀ side price amount, shownBy obConfig price = true →
      state'.ledger.volume side price = state.ledger.volume side price + amount →
      Raised engine.ob next.ob side price amount :=
    fun _ _ _ inRange => raised_of_volume tracks tracks' light light' inRange
  unfold Honest NoneGrows
  rw [(recorded_of_tracks tracks).ledger, (recorded_of_tracks tracks').ledger]
  have applies := Ledger.applies_of_apply applied
  generalize isNext : state'.ledger = ledger' at applies
  cases applies with
  | add _ fresh shown =>
      refine fun _ => Or.inr ⟨?_, raised _ _ _ shown ?_⟩
      · rw [Ledger.live_insert, Function.update_self]
      · rw [isNext, Ledger.volume_insert (wellFormed.absent fresh), if_pos ⟨rfl, rfl⟩]
  | @takeAll id shares entry found positive all =>
      have updated := Ledger.live_erase state.ledger id entry
      refine ⟨noneGrows_of_update found updated (by simp), fun before present => Or.inr ?_⟩
      obtain rfl := Option.some.inj (found.symm.trans present)
      rw [updated, Function.update_self, if_pos all]
      exact ⟨positive, all.le, rfl⟩
  | @takeSome id shares entry found positive less =>
      have updated := Ledger.live_reduce state.ledger id entry shares
      refine ⟨noneGrows_of_update found updated ?_, fun before present => Or.inr ?_⟩
      · rintro kept ⟨⟩
        exact Int.sub_le_self _ positive.le
      · obtain rfl := Option.some.inj (found.symm.trans present)
        rw [updated, Function.update_self, if_neg less.ne]
        exact ⟨positive, less.le, rfl⟩
  | delete => trivial
  | @replace originalId newId price shares entry found _ fresh shown =>
      have absent : ∀ side price,
          newId ∉ (state.ledger.erase originalId entry).queue side price :=
        Ledger.not_mem_queue_erase (wellFormed.absent fresh)
      refine fun _ => Or.inr ⟨entry, found, ?_, raised entry.side price _ shown ?_⟩
      · rw [Ledger.live_insert, Function.update_self]
      · rw [isNext, Ledger.volume_insert absent, if_pos ⟨rfl, rfl⟩,
          Ledger.volume_erase wellFormed found]
        simp only [true_and, eq_comm (a := price)]
        lia

/-- A message whose shares survive does to the quantities what it says. -/
theorem honest_of_handled
    (faithful : Faithful engine)
    {message : Message}
    (survive : SharesSurvive engine message)
    (handled : engine.onMessage message = .ok next) :
    Faithful next ∧
      ∀ tally change, changeOf message = some (tally, change) →
        engine.isTargetStock message.stockLocate = true → Honest engine.ob next.ob change := by
  obtain ⟨⟨obConfig, state, spec, tracks⟩, light⟩ := faithful
  have recorded := recorded_of_tracks tracks
  have wellFormed := tracks.orderly.wellFormed
  have survives : ∀ tally change, changeOf message = some (tally, change) →
      state.target = some message.stockLocate →
        state.ledger.Survives (shownBy obConfig) change := by
    intro tally change asks onTarget
    have survives := survive tally change asks (by simp [tracks.isTargetStock_eq, onTarget])
    rwa [recorded.ledger, tracks.orderly.carries.minPrice, tracks.orderly.carries.maxPrice,
      tracks.minPrice, tracks.maxPrice] at survives
  rw [tracks.ledger] at wellFormed
  rcases tracks.onMessage fun tally change asks onTarget =>
      (survives tally change asks onTarget).fits with
    ⟨_, exhausted⟩ | ⟨next', spec', returned, tracks', _⟩
  · cases exhausted.symm.trans handled
  obtain rfl := Except.ok.inj (returned.symm.trans handled)
  have ledger' := (recorded_of_tracks tracks').ledger
  by_cases applies : ∃ tally change, changeOf message = some (tally, change) ∧
      state.target = some message.stockLocate
  · obtain ⟨tally, change, asks, onTarget⟩ := applies
    have attempted := LedgerReplay.handle_of_asks asks (shownBy obConfig) state
    rw [if_pos onTarget, LedgerReplay.attempt] at attempted
    cases applied : state.ledger.apply (shownBy obConfig) change with
    | none =>
        have refused := tracks.onMessage_of_refused asks onTarget
          (survives tally change asks onTarget).fits applied
        obtain rfl := Except.ok.inj (returned.symm.trans refused)
        refine ⟨⟨⟨_, _, _, tracks'⟩, light⟩, fun _ _ _ _ => honest_refl engine.ob _⟩
    | some ledger =>
        rw [applied] at attempted
        have after : (state.handle (shownBy obConfig) message).ledger = ledger := by
          rw [attempted]
        have light' : (readLedger next'.ob).Light := by
          rw [ledger', after]
          rw [recorded.ledger] at light
          exact light.apply wellFormed (survives tally change asks onTarget) applied
        refine ⟨⟨⟨_, _, _, tracks'⟩, light'⟩, fun otherTally other asksOther _ => ?_⟩
        obtain ⟨rfl, rfl⟩ := Prod.mk.inj (Option.some.inj (asks.symm.trans asksOther))
        exact honest_of_applied tracks tracks' light light' (after.symm ▸ applied)
  · have same := LedgerReplay.ledger_handle_of_idle (shownBy obConfig)
      fun tally change asks onTarget => applies ⟨tally, change, asks, onTarget⟩
    refine ⟨⟨⟨_, _, _, tracks'⟩, ?_⟩, fun tally change asks onTarget => ?_⟩
    · rw [ledger', same, ← recorded.ledger]
      exact light
    · rw [tracks.isTargetStock_eq, decide_eq_true_eq] at onTarget
      exact absurd ⟨tally, change, asks, onTarget⟩ applies

/-- In every run over messages whose shares survive, every message does to the quantities what
it says, and every order has at least one share. -/
theorem replay_quantities_survive
    {events : List (Event ItchReplayEngine Message Unit)}
    (run : EngineRun SharesSurvive events engine) :
    (∀ event ∈ events, ∀ tally change, changeOf event.input = some (tally, change) →
      event.before.isTargetStock event.input.stockLocate = true →
        Honest event.before.ob event.after.ob change) ∧
    ∀ id entry, (readLedger engine.ob).live id = some entry → 0 < entry.openQuantity := by
  have steps : Faithful engine ∧
      ∀ event ∈ events, ∀ tally change, changeOf event.input = some (tally, change) →
        event.before.isTargetStock event.input.stockLocate = true →
          Honest event.before.ob event.after.ob change := by
    induction run with
    | start isInitial =>
        exact ⟨.of_starts isInitial, fun event none => absurd none List.not_mem_nil⟩
    | step _ taken inductionHypothesis =>
        obtain ⟨faithful, earlier⟩ := inductionHypothesis
        obtain ⟨faithful', honest⟩ := honest_of_handled faithful taken.1 taken.2
        refine ⟨faithful', fun event member => ?_⟩
        rcases List.mem_append.mp member with before | last
        · exact earlier event before
        · obtain rfl := List.mem_singleton.mp last
          exact honest
  obtain ⟨⟨⟨obConfig, state, spec, tracks⟩, _⟩, honest⟩ := steps
  refine ⟨honest, fun id entry found => ?_⟩
  rw [(recorded_of_tracks tracks).ledger, ← tracks.ledger] at found
  exact tracks.orderly.wellFormed.positive id entry found

/-- The sample engine after its directory message. -/
def followingEngine : ItchReplayEngine :=
  { sampleEngine with targetStockLocate := some 1 }

/-- The sample engine after its first order. -/
def addedEngine : ItchReplayEngine :=
  (followingEngine.onMessage (sampleAdd 7 66 5 3)).toOption.get (by decide +kernel)

theorem run_to_followingEngine :
    EngineRun SharesSurvive
      [⟨sampleEngine, .stockDirectory sampleDirectory, (), followingEngine⟩]
      followingEngine := by
  refine Run.step (.start ⟨_, _, create_sampleEngine⟩) ⟨?_, rfl⟩
  rintro tally change asks
  cases asks

theorem run_to_addedEngine :
    EngineRun SharesSurvive
      [⟨sampleEngine, .stockDirectory sampleDirectory, (), followingEngine⟩,
        ⟨followingEngine, sampleAdd 7 66 5 3, (), addedEngine⟩] addedEngine := by
  refine Run.step run_to_followingEngine ⟨?_, eq_ok_of_isSome _⟩
  rintro tally change asks _
  cases asks
  exact Or.inl ⟨by decide, by decide +kernel⟩

theorem replay_quantities_survive_sample :
    Honest followingEngine.ob addedEngine.ob (.add 7 .buy 3 5) :=
  (replay_quantities_survive run_to_addedEngine).1
    ⟨followingEngine, sampleAdd 7 66 5 3, (), addedEngine⟩ (by simp) .adds _ rfl
    (by decide +kernel)

/-! ## Shares that are no quantities -/

/-- An execution of the order 7. -/
def sampleExecution (executedShares : Replay.Shares) : Message :=
  .orderExecuted
    { stockLocate := 1, trackingNumber := 0, timestamp := 3, orderReferenceNumber := 7
      executedShares, matchNumber := 1 }

/-- An order of `2 ^ 32 - 1` shares rests with minus one share, and the execution of as many
shares adds a share to an order. -/
theorem huge_shares_misread :
    (∃ events, EngineRun SharesSurvive events followingEngine) ∧
    (∃ events, EngineRun SharesSurvive events addedEngine) ∧
    (∃ last, followingEngine.onMessage (sampleAdd 7 66 4294967295 3) = .ok last ∧
      (readLedger last.ob).live 7 = some ⟨.buy, 3, -1⟩ ∧
      ¬ Honest followingEngine.ob last.ob (.add 7 .buy 3 4294967295)) ∧
    ∃ last, addedEngine.onMessage (sampleExecution 4294967295) = .ok last ∧
      (readLedger last.ob).live 7 = some ⟨.buy, 3, 6⟩ ∧
      ¬ Honest addedEngine.ob last.ob (.take 7 4294967295) := by
  refine ⟨⟨_, run_to_followingEngine⟩, ⟨_, run_to_addedEngine⟩,
    ⟨_, eq_ok_of_isSome (by decide +kernel), by decide +kernel, ?_⟩,
    ⟨_, eq_ok_of_isSome (by decide +kernel), by decide +kernel, ?_⟩⟩
  · intro honest
    rcases honest (by decide) with unchanged | ⟨found, _⟩
    · have sameLive := congrArg (fun book => (readLedger book).live 7) unchanged
      revert sameLive
      decide +kernel
    · revert found
      decide +kernel
  · intro honest
    obtain ⟨earlier, found, grown⟩ := honest.1 7 ⟨.buy, 3, 6⟩ (by decide +kernel)
    have resting : (readLedger addedEngine.ob).live 7 = some ⟨.buy, 3, 5⟩ := by
      decide +kernel
    obtain rfl := Option.some.inj (resting.symm.trans found)
    exact absurd grown (by decide)

end Properties
end MatchingEngine
