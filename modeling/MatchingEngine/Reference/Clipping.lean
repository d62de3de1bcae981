import MatchingEngine.Reference.Ledger

/-!
# Ledgers that show a part of another ledger

A ledger that shows only some of the prices stays the visible part of the ledger
that shows all of them, as long as no replacement takes an order from a shown
price to a hidden one or back: of such a replacement it sees too little.
-/

namespace MatchingEngine
namespace Reference

open Replay (Message)

namespace Ledger

/-- The part of a ledger at the prices that are shown. -/
def clip (shows : Price → Bool) (ledger : Ledger) : Ledger where
  live id := (ledger.live id).filter fun entry => shows entry.price
  queue side price := if shows price then ledger.queue side price else []

/-- The ledger that takes in every price. -/
def everywhere : Price → Bool := fun _ => true

/-- A replacement that takes an order from a shown price to a hidden one or back. -/
def Crosses (shows : Price → Bool) (ledger : Ledger) : FeedChange → Prop
  | .replace originalId _ price _ =>
      ∃ entry, ledger.live originalId = some entry ∧ shows entry.price ≠ shows price
  | .add .. | .take .. | .delete _ => False

instance (shows : Price → Bool) (ledger : Ledger) (change : FeedChange) :
    Decidable (ledger.Crosses shows change) :=
  match change with
  | .replace originalId _ price _ =>
      decidable_of_iff
        (∃ entry ∈ (ledger.live originalId).toList, shows entry.price ≠ shows price)
        (by simp [Crosses])
  | .add .. | .take .. | .delete _ => .isFalse id

variable {shows : Price → Bool} {ledger : Ledger} {id : OrderID} {entry : Entry}

theorem live_clip (shows : Price → Bool) (ledger : Ledger) (id : OrderID) :
    (ledger.clip shows).live id = (ledger.live id).filter fun entry => shows entry.price := rfl

theorem queue_clip (shows : Price → Bool) (ledger : Ledger) (side : Side) (price : Price) :
    (ledger.clip shows).queue side price =
      if shows price then ledger.queue side price else [] := rfl

theorem live_clip_of_shown (found : ledger.live id = some entry) (shown : shows entry.price) :
    (ledger.clip shows).live id = some entry := by
  rw [live_clip, found, Option.filter_some, if_pos shown]

theorem live_clip_of_hidden
    (found : ledger.live id = some entry)
    (hidden : shows entry.price = false) :
    (ledger.clip shows).live id = none := by
  rw [live_clip, found, Option.filter_some, if_neg (by simp [hidden])]

theorem live_clip_of_none (absent : ledger.live id = none) :
    (ledger.clip shows).live id = none := by
  rw [live_clip, absent, Option.filter_none]

/-! ## Orders that come, go and shrink -/

/-- The live orders of the visible part after a change to one of them. -/
theorem live_clip_of_update
    {next : Ledger} {value : Option Entry}
    (updated : next.live = Function.update ledger.live id value) :
    (next.clip shows).live =
      Function.update (ledger.clip shows).live id
        (value.filter fun entry => shows entry.price) := by
  funext other
  rw [live_clip, updated]
  by_cases same : other = id
  · subst same
    simp only [Function.update_self]
  · simp only [Function.update_of_ne same, live_clip]

/-- The queues of the visible part after a change to one of them. -/
theorem queue_clip_of_onQueue
    {next : Ledger} {side : Side} {price : Price} {change : List OrderID → List OrderID}
    (changed : next.queue = ledger.onQueue side price change) :
    (next.clip shows).queue =
      if shows price then (ledger.clip shows).onQueue side price change
      else (ledger.clip shows).queue := by
  funext other otherPrice
  rw [queue_clip, changed]
  by_cases here : other = side ∧ otherPrice = price
  · obtain ⟨rfl, rfl⟩ := here
    by_cases shown : shows otherPrice = true
    · simp [onQueue, clip, shown]
    · simp [clip, shown]
  · have elsewhere : ∀ ledger : Ledger,
        ledger.onQueue side price change other otherPrice = ledger.queue other otherPrice := by
      intro ledger
      by_cases sameSide : other = side
      · subst sameSide
        rw [onQueue, Function.update_self,
          Function.update_of_ne fun samePrice => here ⟨rfl, samePrice⟩]
      · rw [onQueue, Function.update_of_ne sameSide]
    have visible : (if shows price then (ledger.clip shows).onQueue side price change
        else (ledger.clip shows).queue) other otherPrice =
          (ledger.clip shows).queue other otherPrice := by
      split
      · exact elsewhere _
      · rfl
    rw [visible, elsewhere, queue_clip]

theorem clip_insert_shown (shown : shows entry.price) :
    (ledger.insert id entry).clip shows = (ledger.clip shows).insert id entry := by
  refine Ledger.ext ?_ ?_
  · rw [live_clip_of_update (live_insert ..), Option.filter_some, if_pos shown, live_insert]
  · rw [queue_clip_of_onQueue (queue_insert ..), if_pos shown, queue_insert]

theorem clip_insert_hidden (fresh : ledger.live id = none) (hidden : shows entry.price = false) :
    (ledger.insert id entry).clip shows = ledger.clip shows := by
  refine Ledger.ext ?_ ?_
  · rw [live_clip_of_update (live_insert ..), Option.filter_some, if_neg (by simp [hidden]),
      ← live_clip_of_none fresh, Function.update_eq_self]
  · rw [queue_clip_of_onQueue (queue_insert ..), if_neg (by simp [hidden])]

theorem clip_erase_shown (shown : shows entry.price) :
    (ledger.erase id entry).clip shows = (ledger.clip shows).erase id entry := by
  refine Ledger.ext ?_ ?_
  · rw [live_clip_of_update (live_erase ..), Option.filter_none, live_erase]
  · rw [queue_clip_of_onQueue (queue_erase ..), if_pos shown, queue_erase]

theorem clip_erase_hidden
    (found : ledger.live id = some entry)
    (hidden : shows entry.price = false) :
    (ledger.erase id entry).clip shows = ledger.clip shows := by
  refine Ledger.ext ?_ ?_
  · rw [live_clip_of_update (live_erase ..), Option.filter_none,
      ← live_clip_of_hidden found hidden, Function.update_eq_self]
  · rw [queue_clip_of_onQueue (queue_erase ..), if_neg (by simp [hidden])]

theorem clip_reduce_shown (shares : Quantity) (shown : shows entry.price) :
    (ledger.reduce id entry shares).clip shows = (ledger.clip shows).reduce id entry shares := by
  refine Ledger.ext ?_ rfl
  rw [live_clip_of_update (live_reduce ..), Option.filter_some, if_pos shown, live_reduce]

theorem clip_reduce_hidden
    (shares : Quantity)
    (found : ledger.live id = some entry)
    (hidden : shows entry.price = false) :
    (ledger.reduce id entry shares).clip shows = ledger.clip shows := by
  refine Ledger.ext ?_ rfl
  rw [live_clip_of_update (live_reduce ..), Option.filter_some, if_neg (by simp [hidden]),
    ← live_clip_of_hidden found hidden, Function.update_eq_self]

/-! ## Changes -/

/-- The visible part of a change is the change of the visible part. -/
theorem update_clip
    {next : Ledger} {change : FeedChange}
    (applied : ledger.apply everywhere change = some next)
    (inside : ¬ ledger.Crosses shows change) :
    (ledger.clip shows).update shows change = next.clip shows := by
  rw [update]
  cases applies_of_apply applied with
  | @add id side price shares positive fresh =>
      have freshClip : (ledger.clip shows).live id = none := live_clip_of_none fresh
      cases shown : shows price with
      | true =>
          rw [apply, if_pos ⟨positive, freshClip, shown⟩, Option.getD_some,
            clip_insert_shown (by exact shown)]
      | false =>
          rw [apply, if_neg fun accepted => by simp [shown] at accepted, Option.getD_none,
            clip_insert_hidden fresh (by exact shown)]
  | @takeAll id shares entry found positive all =>
      cases shown : shows entry.price with
      | true =>
          have enough : 0 < shares ∧ shares ≤ entry.openQuantity := ⟨positive, all.le⟩
          simp only [apply, live_clip_of_shown found shown, if_neg (not_not.mpr enough),
            if_pos all, Option.getD_some, clip_erase_shown shown]
      | false =>
          simp only [apply, live_clip_of_hidden found shown, Option.getD_none,
            clip_erase_hidden found shown]
  | @takeSome id shares entry found positive less =>
      cases shown : shows entry.price with
      | true =>
          have enough : 0 < shares ∧ shares ≤ entry.openQuantity := ⟨positive, less.le⟩
          simp only [apply, live_clip_of_shown found shown, if_neg (not_not.mpr enough),
            if_neg less.ne, Option.getD_some, clip_reduce_shown shares shown]
      | false =>
          simp only [apply, live_clip_of_hidden found shown, Option.getD_none,
            clip_reduce_hidden shares found shown]
  | @delete id entry found =>
      cases shown : shows entry.price with
      | true =>
          rw [apply, live_clip_of_shown found shown, Option.map_some, Option.getD_some,
            clip_erase_shown shown]
      | false =>
          rw [apply, live_clip_of_hidden found shown, Option.map_none, Option.getD_none,
            clip_erase_hidden found shown]
  | @replace originalId newId price shares entry found positive fresh =>
      have sameVisibility : shows entry.price = shows price :=
        not_not.mp fun different => inside ⟨entry, found, different⟩
      have freshClip : (ledger.clip shows).live newId = none := live_clip_of_none fresh
      cases shown : shows entry.price with
      | true =>
          simp only [apply, live_clip_of_shown found shown]
          rw [if_pos ⟨positive, freshClip, sameVisibility ▸ shown⟩, Option.getD_some,
            clip_insert_shown (by exact sameVisibility ▸ shown), clip_erase_shown shown]
      | false =>
          have freshAfter : (ledger.erase originalId entry).live newId = none := by
            rw [live_erase]
            by_cases same : newId = originalId
            · rw [same, Function.update_self]
            · rw [Function.update_of_ne same, fresh]
          simp only [apply, live_clip_of_hidden found shown, Option.getD_none]
          rw [clip_insert_hidden freshAfter (by exact sameVisibility ▸ shown),
            clip_erase_hidden found shown]

/-- The visible part refuses a replacement that crosses its border. -/
theorem apply_clip_of_crosses
    {change : FeedChange}
    (crosses : ledger.Crosses shows change) :
    (ledger.clip shows).apply shows change = none := by
  cases change with
  | add | take | delete => exact crosses.elim
  | replace originalId newId price shares =>
      obtain ⟨entry, found, different⟩ := crosses
      cases shown : shows entry.price with
      | true =>
          rw [shown] at different
          simp only [apply, live_clip_of_shown found shown]
          exact if_neg fun accepted => different accepted.2.2.symm
      | false => simp only [apply, live_clip_of_hidden found shown]

end Ledger

/-! ## Feeds -/

namespace LedgerReplay

open Ledger (everywhere)

variable {shows : Price → Bool} {symbol : List UInt8} {messages : List Message}

/-- A message applies a replacement that crosses the border. -/
def CrossesAt (shows : Price → Bool) (state : LedgerReplay) (message : Message) : Prop :=
  ∃ tally change, changeOf message = some (tally, change) ∧
    state.target = some message.stockLocate ∧ state.ledger.Crosses shows change

instance (shows : Price → Bool) (state : LedgerReplay) (message : Message) :
    Decidable (CrossesAt shows state message) :=
  decidable_of_iff
    (∃ asked ∈ (changeOf message).toList,
      state.target = some message.stockLocate ∧ state.ledger.Crosses shows asked.2)
    (by simp [CrossesAt])

/-- The ledger that takes in every price refuses nothing of the feed. -/
def Valid (symbol : List UInt8) (messages : List Message) : Prop :=
  (replay everywhere symbol messages).failed = 0

instance (symbol : List UInt8) (messages : List Message) : Decidable (Valid symbol messages) :=
  inferInstanceAs (Decidable (_ = 0))

/-- No message of the feed applies a replacement that crosses the border. -/
def Inside (shows : Price → Bool) (symbol : List UInt8) (messages : List Message) : Prop :=
  ∀ earlier message, earlier ++ [message] <+: messages →
    ¬ CrossesAt shows (replay everywhere symbol earlier) message

theorem inside_of_forall_take
    (inside : ∀ index : Fin messages.length,
      ¬ CrossesAt shows (replay everywhere symbol (messages.take index)) messages[index]) :
    Inside shows symbol messages := by
  rintro earlier message ⟨later, rfl⟩
  have here := inside ⟨earlier.length, by simp⟩
  simpa using here

/-- Failures are never taken back. -/
theorem failed_le_handle (shows : Price → Bool) (state : LedgerReplay) (message : Message) :
    state.failed ≤ (state.handle shows message).failed := by
  cases asks : changeOf message with
  | none =>
      cases message with
      | systemEvent => exact le_rfl
      | stockDirectory directory =>
          simp only [handle]
          split <;> exact le_rfl
      | _ => cases asks
  | some asked =>
      obtain ⟨tally, change⟩ := asked
      rw [handle_of_asks asks]
      split
      · unfold attempt
        split
        · exact le_rfl
        · exact Nat.le_succ _
      · exact le_rfl

theorem Valid.of_append_singleton
    {message : Message}
    (valid : Valid symbol (messages ++ [message])) :
    Valid symbol messages := by
  unfold Valid at valid ⊢
  rw [replay_append_singleton] at valid
  have := failed_le_handle everywhere (replay everywhere symbol messages) message
  omega

theorem Valid.of_prefix
    {earlier : List Message}
    (isPrefix : earlier <+: messages)
    (valid : Valid symbol messages) :
    Valid symbol earlier := by
  obtain ⟨later, rfl⟩ := isPrefix
  induction later using List.reverseRecOn with
  | nil => rwa [List.append_nil] at valid
  | append_singleton later message inductionHypothesis =>
      rw [← List.append_assoc] at valid
      exact inductionHypothesis valid.of_append_singleton

/-- A replay that shows a part of another replay of the feed. -/
structure Clips (shows : Price → Bool) (clipped full : LedgerReplay) : Prop where
  symbol : clipped.symbol = full.symbol
  target : clipped.target = full.target
  ledger : clipped.ledger = full.ledger.clip shows

theorem Clips.handle
    {clipped full : LedgerReplay} {message : Message}
    (clips : Clips shows clipped full)
    (succeeds : (full.handle everywhere message).failed = full.failed)
    (inside : ¬ CrossesAt shows full message) :
    Clips shows (clipped.handle shows message) (full.handle everywhere message) := by
  cases asks : changeOf message with
  | none =>
      cases message with
      | systemEvent => exact clips
      | stockDirectory directory =>
          simp only [LedgerReplay.handle, clips.symbol]
          split
          · exact ⟨rfl, rfl, clips.ledger⟩
          · exact clips
      | _ => cases asks
  | some asked =>
      obtain ⟨tally, change⟩ := asked
      rw [handle_of_asks asks] at succeeds
      rw [handle_of_asks asks, handle_of_asks asks, clips.target]
      by_cases onTarget : full.target = some message.stockLocate
      · rw [if_pos onTarget] at succeeds
        rw [if_pos onTarget, if_pos onTarget]
        unfold attempt at succeeds ⊢
        cases applied : full.ledger.apply everywhere change with
        | none =>
            rw [applied] at succeeds
            exact absurd succeeds (Nat.succ_ne_self _)
        | some next =>
            have updated := Ledger.update_clip applied fun crosses =>
              inside ⟨tally, change, asks, onTarget, crosses⟩
            rw [Ledger.update, ← clips.ledger] at updated
            cases visible : clipped.ledger.apply shows change with
            | none =>
                rw [visible, Option.getD_none] at updated
                exact ⟨clips.symbol, clips.target, updated⟩
            | some nextVisible =>
                rw [visible, Option.getD_some] at updated
                exact ⟨clips.symbol, clips.target, updated⟩
      · rw [if_neg onTarget, if_neg onTarget]
        exact clips

/-- The replay of a valid feed that shows some prices is the visible part of the replay that
shows all, as long as no replacement crosses the border. -/
theorem clips_replay
    (valid : Valid symbol messages)
    (inside : Inside shows symbol messages) :
    Clips shows (replay shows symbol messages) (replay everywhere symbol messages) := by
  induction messages using List.reverseRecOn with
  | nil =>
      refine ⟨rfl, rfl, Ledger.ext rfl (funext fun side => funext fun price => ?_)⟩
      rw [Ledger.queue_clip]
      exact (ite_self _).symm
  | append_singleton messages message inductionHypothesis =>
      have validBefore := valid.of_append_singleton
      have clips := inductionHypothesis validBefore fun earlier other isPrefix =>
        inside earlier other (isPrefix.trans (List.prefix_append _ _))
      unfold Valid at valid validBefore
      rw [replay_append_singleton] at valid
      rw [replay_append_singleton, replay_append_singleton]
      exact clips.handle (valid.trans validBefore.symm)
        (inside messages message (List.prefix_refl _))

end LedgerReplay

end Reference
end MatchingEngine
