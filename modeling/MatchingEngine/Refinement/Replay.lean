import MatchingEngine.Reference.Ledger
import MatchingEngine.Refinement.Lineage

/-!
# The replay engine keeps the ledger of its feed

The ledger of a reference book has its orders and the ids of its queues.  Every
call of the engine changes it as the ledger operation of the message does, so
the book of the engine carries the ledger of the feed for as long as the shares
of the messages survive their conversion to quantities.
-/

namespace MatchingEngine
namespace Refinement

open Reference (Order priority orderPriority Ledger Entry FeedChange Tally LedgerReplay)
open Replay (ItchReplayEngine Message)

/-! ## The ledger of a reference book -/

/-- The live orders and the queues of a reference book. -/
def ledgerOfBook (spec : Reference.Book) : Ledger where
  live id := (spec.locate id).map fun found => ⟨found.1, found.2.price, found.2.quantity⟩
  queue side price := (queueAt side price (spec.orders side)).map Order.id

theorem live_ledgerOfBook (spec : Reference.Book) (id : OrderID) :
    (ledgerOfBook spec).live id =
      (spec.locate id).map fun found => ⟨found.1, found.2.price, found.2.quantity⟩ := rfl

theorem queue_ledgerOfBook (spec : Reference.Book) (side : Side) (price : Price) :
    (ledgerOfBook spec).queue side price =
      (queueAt side price (spec.orders side)).map Order.id := rfl

section LedgerOfBook

variable {spec : Reference.Book} {side : Side} {order : Order}

theorem live_of_mem (distinct : spec.Distinct) (member : order ∈ spec.orders side) :
    (ledgerOfBook spec).live order.id = some ⟨side, order.price, order.quantity⟩ := by
  rw [live_ledgerOfBook, distinct.locate_of_mem member, Option.map_some]

theorem live_eq_none {id : OrderID} :
    (ledgerOfBook spec).live id = none ↔ ¬ spec.Contains id := by
  rw [← Reference.Book.locate_eq_none, live_ledgerOfBook, Option.map_eq_none_iff]

/-- A live order is one that rests. -/
theorem live_eq_some
    {id : OrderID} {entry : Entry}
    (found : (ledgerOfBook spec).live id = some entry) :
    ∃ order ∈ spec.orders entry.side, order.id = id ∧
      entry = ⟨entry.side, order.price, order.quantity⟩ := by
  obtain ⟨⟨side, order⟩, located, rfl⟩ := Option.map_eq_some_iff.mp found
  obtain ⟨member, sameId⟩ := Reference.Book.locate_eq_some located
  exact ⟨order, member, sameId, rfl⟩

/-- Two books with the same orders, apart from one id, have the same live orders apart
from it. -/
theorem live_congr
    {spec' : Reference.Book} {id other : OrderID}
    (distinct' : spec'.Distinct)
    (different : other ≠ id)
    (same : ∀ side, ∀ order : Order, order.id ≠ id →
      (order ∈ spec'.orders side ↔ order ∈ spec.orders side)) :
    (ledgerOfBook spec').live other = (ledgerOfBook spec).live other := by
  cases found : (ledgerOfBook spec).live other with
  | none =>
      rw [live_eq_none] at found ⊢
      rw [Reference.Book.contains_iff] at found ⊢
      rintro ⟨side, order, member, rfl⟩
      exact found ⟨side, order, (same side order different).mp member, rfl⟩
  | some entry =>
      obtain ⟨order, member, rfl, equal⟩ := live_eq_some found
      rw [live_of_mem distinct' ((same _ order different).mpr member), ← equal]

theorem distinct_rest
    (distinct : spec.Distinct)
    (fresh : ¬ spec.Contains order.id)
    (side : Side) :
    (spec.rest side order).Distinct := by
  have mapped := (Reference.Book.perm_rest spec side order).map Order.id
  rw [Reference.Book.Distinct, mapped.nodup_iff, List.map_cons, List.nodup_cons]
  refine ⟨fun present => fresh ?_, distinct⟩
  obtain ⟨other, member, equal⟩ := List.mem_map.mp present
  exact ⟨other, member, equal⟩

/-- The queues after a change to one of them. -/
theorem onQueue_eq
    {ledger : Ledger} {queue' : Side → Price → List OrderID} {price : Price}
    {change : List OrderID → List OrderID}
    (here : queue' side price = change (ledger.queue side price))
    (elsewhere : ∀ other otherPrice, (other ≠ side ∨ otherPrice ≠ price) →
      queue' other otherPrice = ledger.queue other otherPrice) :
    queue' = ledger.onQueue side price change := by
  funext other otherPrice
  rw [Ledger.onQueue]
  by_cases sameSide : other = side
  · subst sameSide
    rw [Function.update_self]
    by_cases samePrice : otherPrice = price
    · subst samePrice
      rw [Function.update_self, here]
    · rw [Function.update_of_ne samePrice, elsewhere _ _ (Or.inr samePrice)]
  · rw [Function.update_of_ne sameSide, elsewhere _ _ (Or.inl sameSide)]

/-- A new order is inserted into the ledger. -/
theorem ledgerOfBook_rest
    (order : Order)
    (distinct : spec.Distinct)
    (sorted : KeyedList.Ordered (orderPriority side) (spec.orders side))
    (fresh : ¬ spec.Contains order.id) :
    ledgerOfBook (spec.rest side order) =
      (ledgerOfBook spec).insert order.id ⟨side, order.price, order.quantity⟩ := by
  have mem_rest : ∀ other, ∀ found : Order,
      found ∈ (spec.rest side order).orders other ↔
        (other = side ∧ found = order) ∨ found ∈ spec.orders other := by
    intro other found
    rw [Reference.Book.rest, Reference.Book.orders_setOrders]
    by_cases same : other = side
    · subst same
      rw [if_pos rfl, KeyedList.mem_enqueue]
      simp
    · simp [same]
  have distinct' := distinct_rest distinct fresh side
  refine Ledger.ext (funext fun id => ?_)
    ((onQueue_eq ?_ fun other price outside => ?_).trans (Ledger.queue_insert ..).symm)
  · by_cases same : id = order.id
    · subst same
      rw [live_of_mem distinct' ((mem_rest side order).mpr (Or.inl ⟨rfl, rfl⟩)), Ledger.live_insert,
        Function.update_self]
    · rw [Ledger.live_insert, Function.update_of_ne same]
      refine live_congr distinct' same fun other found differs => ?_
      rw [mem_rest, or_iff_right]
      rintro ⟨_, rfl⟩
      exact differs rfl
  · simp only [queue_ledgerOfBook, queueAt_rest sorted, List.map_append, List.map_singleton]
  · simp only [queue_ledgerOfBook]
    by_cases sameSide : other = side
    · subst sameSide
      rw [queueAt_rest_of_ne (outside.resolve_left (not_not.mpr rfl))]
    · rw [Reference.Book.rest, Reference.Book.orders_setOrders, if_neg sameSide]

/-- A removed order is erased from the ledger. -/
theorem ledgerOfBook_remove
    (distinct : spec.Distinct)
    (member : order ∈ spec.orders side) :
    ledgerOfBook (spec.remove order.id) =
      (ledgerOfBook spec).erase order.id ⟨side, order.price, order.quantity⟩ := by
  refine Ledger.ext (funext fun id => ?_)
    ((onQueue_eq ?_ fun other price outside => ?_).trans (Ledger.queue_erase ..).symm)
  · by_cases same : id = order.id
    · subst same
      rw [Ledger.live_erase, Function.update_self, live_eq_none]
      exact fun present => (Reference.Book.contains_remove.mp present).2 rfl
    · rw [Ledger.live_erase, Function.update_of_ne same]
      refine live_congr (distinct.remove _) same fun other found differs => ?_
      simp [Reference.Book.orders_remove, differs]
  · simp only [queue_ledgerOfBook, Reference.Book.orders_remove, queueAt_filter, List.filter_map]
    rfl
  · simp only [queue_ledgerOfBook]
    by_cases sameSide : other = side
    · subst sameSide
      rw [queueAt_remove_of_ne distinct member (outside.resolve_left (not_not.mpr rfl))]
    · rw [distinct.orders_remove_of_ne member sameSide]

/-- A reduced order keeps its place in the ledger. -/
theorem ledgerOfBook_reduce
    (distinct : spec.Distinct)
    (member : order ∈ spec.orders side)
    (amount : Quantity) :
    ledgerOfBook (spec.reduce order.id amount) =
      (ledgerOfBook spec).reduce order.id ⟨side, order.price, order.quantity⟩ amount := by
  have sameIds : ∀ found : Order,
      (if found.id = order.id then found.reduce amount else found).id = found.id := by
    intro found
    split <;> rfl
  have distinct' : (spec.reduce order.id amount).Distinct := by
    unfold Reference.Book.Distinct Reference.Book.reduce
    simp only [← List.map_append, List.map_map, Function.comp_def, sameIds]
    exact distinct
  have reduced : order.reduce amount ∈ (spec.reduce order.id amount).orders side := by
    rw [Reference.Book.orders_reduce, List.mem_map]
    exact ⟨order, member, if_pos rfl⟩
  refine Ledger.ext (funext fun id => ?_) (funext fun other => funext fun price => ?_)
  · by_cases same : id = order.id
    · subst same
      rw [Ledger.live_reduce, Function.update_self]
      exact live_of_mem distinct' reduced
    · rw [Ledger.live_reduce, Function.update_of_ne same]
      refine live_congr distinct' same fun other found differs => ?_
      rw [Reference.Book.orders_reduce, List.mem_map]
      constructor
      · rintro ⟨original, inSide, rfl⟩
        rw [sameIds] at differs
        rwa [if_neg differs]
      · intro inSide
        exact ⟨found, inSide, if_neg differs⟩
  · simp only [queue_ledgerOfBook, Reference.Book.orders_reduce, queueAt_map_reduce, List.map_map,
      Function.comp_def, sameIds]
    rfl

end LedgerOfBook

/-! ## Calls -/

/-- The answer and the book of a replay operation are those of the ledger, and the
quantities stay sound. -/
inductive Records (spec : Reference.Book) : Bool × Reference.Book → Option Ledger → Prop
  | applied {spec' : Reference.Book}
      (sound : (∀ side, Sound (spec.orders side)) → ∀ side, Sound (spec'.orders side)) :
      Records spec (true, spec') (some (ledgerOfBook spec'))
  | refused : Records spec (false, spec) none

/-- The call of the book that a change leads to. -/
def callOf (change : FeedChange) (book : OrderBook) : Except Fault (Bool × OrderBook) :=
  match change with
  | .add id side price shares => book.replayAddVisibleOrder id price (toInt32 shares) side
  | .take id shares => book.replayReduceVisibleOrder id (toInt32 shares)
  | .delete id => book.replayDeleteVisibleOrder id
  | .replace originalId newId price shares =>
      book.replayReplaceVisibleOrder originalId newId price (toInt32 shares)

/-- The call of the reference book. -/
def referenceCallOf (change : FeedChange) (spec : Reference.Book) : Bool × Reference.Book :=
  match change with
  | .add id side price shares => spec.replayAdd id price (toInt32 shares) side
  | .take id shares => spec.replayReduce id (toInt32 shares)
  | .delete id => spec.replayDelete id
  | .replace originalId newId price shares =>
      spec.replayReplace originalId newId price (toInt32 shares)

/-- The shares that a message names. -/
def sharesOf : FeedChange → Quantity
  | .add _ _ _ shares | .take _ shares | .replace _ _ _ shares => shares
  | .delete _ => 0

section Calls

variable {book : OrderBook} {spec : Reference.Book}

theorem toInt32_of_small
    {shares : Quantity}
    (nonneg : 0 ≤ shares)
    (small : shares ≤ 2147483647) :
    toInt32 shares = shares :=
  toInt32_of_inInt32 (by unfold InInt32; lia)

theorem records_replayAdd
    (distinct : spec.Distinct)
    (sorted : ∀ side, KeyedList.Ordered (orderPriority side) (spec.orders side))
    {id : OrderID} {side : Side} {price : Price} {shares : Quantity}
    (nonneg : 0 ≤ shares)
    (fits : (ledgerOfBook spec).Fits (Ledger.within spec.minPrice spec.maxPrice)
      (.add id side price shares)) :
    Records spec (spec.replayAdd id price (toInt32 shares) side)
      ((ledgerOfBook spec).apply (Ledger.within spec.minPrice spec.maxPrice)
        (.add id side price shares)) := by
  simp only [Ledger.Fits, ne_eq, live_eq_none, not_not, ← Bool.not_eq_true,
    Ledger.within_eq_true] at fits
  simp only [Ledger.apply, live_eq_none, Ledger.within_eq_true]
  by_cases accepted : 0 < shares ∧ ¬ spec.Contains id ∧
      spec.minPrice ≤ price ∧ price ≤ spec.maxPrice
  · obtain ⟨positive, fresh, lower, upper⟩ := accepted
    have small : shares ≤ 2147483647 := fits.resolve_right
      (not_or.mpr ⟨fresh, not_not.mpr ⟨lower, upper⟩⟩)
    have guard : ¬ (shares = 0 ∨ spec.Contains id ∨ price < spec.minPrice ∨
        price > spec.maxPrice) := by
      simp only [not_or, not_lt]
      exact ⟨positive.ne', fresh, lower, upper⟩
    have inserted : (ledgerOfBook spec).insert id ⟨side, price, shares⟩ =
        ledgerOfBook (spec.rest side ⟨id, price, shares, .gtc⟩) :=
      (ledgerOfBook_rest ⟨id, price, shares, .gtc⟩ distinct (sorted side) fresh).symm
    rw [if_pos ⟨positive, fresh, lower, upper⟩, toInt32_of_small nonneg small,
      Reference.Book.replayAdd, if_neg guard, inserted]
    refine .applied fun sound other => sound_rest sound ?_ side other
    exact ⟨positive, small⟩
  · rw [if_neg accepted, Reference.Book.replayAdd, if_pos]
    · exact .refused
    · by_contra passes
      simp only [not_or, not_lt] at passes
      obtain ⟨nonzero, fresh, lower, upper⟩ := passes
      refine accepted ⟨lt_of_le_of_ne nonneg fun zero => nonzero ?_, fresh, lower, upper⟩
      rw [← zero]
      rfl

/-- Deleting an order that rests. -/
theorem records_remove
    (distinct : spec.Distinct)
    {side : Side} {order : Order}
    (member : order ∈ spec.orders side) :
    Records spec (true, spec.remove order.id)
      (some ((ledgerOfBook spec).erase order.id ⟨side, order.price, order.quantity⟩)) := by
  rw [← ledgerOfBook_remove distinct member]
  exact .applied fun sound => sound_remove sound order.id

theorem records_replayDelete
    (distinct : spec.Distinct)
    (shows : Price → Bool) (id : OrderID) :
    Records spec (spec.replayDelete id) ((ledgerOfBook spec).apply shows (.delete id)) := by
  rw [Reference.Book.replayDelete, Ledger.apply, live_ledgerOfBook]
  cases located : spec.locate id with
  | none => exact .refused
  | some found =>
      obtain ⟨side, order⟩ := found
      obtain ⟨member, rfl⟩ := Reference.Book.locate_eq_some located
      exact records_remove distinct member

theorem records_replayReduce
    (distinct : spec.Distinct)
    {shows : Price → Bool} {id : OrderID} {shares : Quantity}
    (nonneg : 0 ≤ shares)
    (fits : (ledgerOfBook spec).Fits shows (.take id shares)) :
    Records spec (spec.replayReduce id (toInt32 shares))
      ((ledgerOfBook spec).apply shows (.take id shares)) := by
  simp only [Ledger.Fits, live_eq_none, ← Reference.Book.locate_eq_none] at fits
  rw [Reference.Book.replayReduce, Ledger.apply, live_ledgerOfBook]
  cases located : spec.locate id with
  | none =>
      split <;> exact .refused
  | some found =>
      obtain ⟨side, order⟩ := found
      obtain ⟨member, rfl⟩ := Reference.Book.locate_eq_some located
      have small : shares ≤ 2147483647 := fits.resolve_right (by simp [located])
      simp only [toInt32_of_small nonneg small, Option.map_some]
      by_cases zero : shares = 0
      · rw [if_pos zero, if_pos fun enough => enough.1.ne' zero]
        exact .refused
      by_cases tooMany : shares > order.quantity
      · rw [if_neg zero, if_pos tooMany, if_pos fun enough => enough.2.not_gt tooMany]
        exact .refused
      have positive : 0 < shares := lt_of_le_of_ne nonneg (Ne.symm zero)
      rw [if_neg zero, if_neg tooMany, if_neg (not_not.mpr ⟨positive, not_lt.mp tooMany⟩)]
      by_cases all : shares = order.quantity
      · rw [if_pos all, if_pos all]
        exact records_remove distinct member
      · rw [if_neg all, if_neg all, ← ledgerOfBook_reduce distinct member]
        exact .applied fun sound => sound_reduce sound distinct member positive
          (lt_of_le_of_ne (not_lt.mp tooMany) all)

theorem records_replayReplace
    (distinct : spec.Distinct)
    (sorted : ∀ side, KeyedList.Ordered (orderPriority side) (spec.orders side))
    {originalId newId : OrderID} {price : Price} {shares : Quantity}
    (nonneg : 0 ≤ shares)
    (fits : (ledgerOfBook spec).Fits (Ledger.within spec.minPrice spec.maxPrice)
      (.replace originalId newId price shares)) :
    Records spec (spec.replayReplace originalId newId price (toInt32 shares))
      ((ledgerOfBook spec).apply (Ledger.within spec.minPrice spec.maxPrice)
        (.replace originalId newId price shares)) := by
  simp only [Ledger.Fits, ne_eq, live_eq_none, not_not, ← Bool.not_eq_true,
    Ledger.within_eq_true] at fits
  simp only [Ledger.apply, live_ledgerOfBook spec originalId]
  cases located : spec.locate originalId with
  | none =>
      rw [Reference.Book.replayReplace, located]
      split <;> exact .refused
  | some found =>
      obtain ⟨side, order⟩ := found
      obtain ⟨member, rfl⟩ := Reference.Book.locate_eq_some located
      simp only [Option.map_some, live_eq_none, Ledger.within_eq_true]
      by_cases accepted : 0 < shares ∧ ¬ spec.Contains newId ∧
          spec.minPrice ≤ price ∧ price ≤ spec.maxPrice
      · obtain ⟨positive, fresh, lower, upper⟩ := accepted
        have small : shares ≤ 2147483647 := by
          rcases fits with small | absent | present | outside
          · exact small
          · exact absurd (Reference.Book.contains_of_mem member) absent
          · exact absurd present fresh
          · exact absurd ⟨lower, upper⟩ outside
        have guard : ¬ (shares = 0 ∨ price < spec.minPrice ∨ price > spec.maxPrice ∨
            spec.Contains newId) := by
          simp only [not_or, not_lt]
          exact ⟨positive.ne', lower, upper, fresh⟩
        have freshAfter : ¬ (spec.remove order.id).Contains newId := fun present =>
          fresh (Reference.Book.contains_remove.mp present).1
        have sortedAfter : KeyedList.Ordered (orderPriority side)
            ((spec.remove order.id).orders side) := by
          rw [Reference.Book.orders_remove]
          exact (sorted side).filter _
        have inserted : ((ledgerOfBook spec).erase order.id
            ⟨side, order.price, order.quantity⟩).insert newId ⟨side, price, shares⟩ =
              ledgerOfBook ((spec.remove order.id).rest side ⟨newId, price, shares, .gtc⟩) := by
          rw [← ledgerOfBook_remove distinct member]
          exact (ledgerOfBook_rest ⟨newId, price, shares, .gtc⟩ (distinct.remove _) sortedAfter
            freshAfter).symm
        rw [if_pos ⟨positive, fresh, lower, upper⟩, toInt32_of_small nonneg small,
          Reference.Book.replayReplace, if_neg guard, located]
        simp only [Reference.Book.replayAdd_of_remove guard]
        rw [inserted]
        refine .applied fun sound other =>
          sound_rest (sound_remove sound order.id) ?_ side other
        exact ⟨positive, small⟩
      · rw [if_neg accepted, Reference.Book.replayReplace, if_pos]
        · exact .refused
        · by_contra passes
          simp only [not_or, not_lt] at passes
          obtain ⟨nonzero, lower, upper, fresh⟩ := passes
          refine accepted ⟨lt_of_le_of_ne nonneg fun zero => nonzero ?_, fresh, lower, upper⟩
          rw [← zero]
          rfl

/-- A replay operation takes the ledger of a book to the ledger of the next. -/
theorem records_referenceCallOf
    (distinct : spec.Distinct)
    (sorted : ∀ side, KeyedList.Ordered (orderPriority side) (spec.orders side))
    {change : FeedChange}
    (nonneg : 0 ≤ sharesOf change)
    (fits : (ledgerOfBook spec).Fits (Ledger.within spec.minPrice spec.maxPrice) change) :
    Records spec (referenceCallOf change spec)
      ((ledgerOfBook spec).apply (Ledger.within spec.minPrice spec.maxPrice) change) := by
  cases change with
  | add => exact records_replayAdd distinct sorted nonneg fits
  | take => exact records_replayReduce distinct nonneg fits
  | delete id => exact records_replayDelete distinct _ id
  | replace => exact records_replayReplace distinct sorted nonneg fits

theorem range_referenceCallOf (change : FeedChange) (spec : Reference.Book) :
    (referenceCallOf change spec).2.minPrice = spec.minPrice ∧
      (referenceCallOf change spec).2.maxPrice = spec.maxPrice := by
  cases change with
  | add =>
      simp only [referenceCallOf, Reference.Book.replayAdd]
      split <;> simp [Reference.Book.rest]
  | take =>
      simp only [referenceCallOf, Reference.Book.replayReduce]
      repeat' split
      all_goals exact ⟨rfl, rfl⟩
  | delete =>
      simp only [referenceCallOf, Reference.Book.replayDelete]
      split <;> exact ⟨rfl, rfl⟩
  | replace =>
      simp only [referenceCallOf, Reference.Book.replayReplace, Reference.Book.replayAdd]
      repeat' split
      all_goals simp [Reference.Book.rest, Reference.Book.remove]

/-- A call of the book does what the reference call does, unless the pool is
exhausted. -/
theorem follows_callOf
    (orderly : Orderly book spec)
    {shows : Price → Bool} {change : FeedChange}
    (nonneg : 0 ≤ sharesOf change)
    (fits : (ledgerOfBook spec).Fits shows change) :
    (¬ HasFree book ∧ callOf change book = .error .badAlloc) ∨
      Follows book spec (sharesOf change ≤ 2147483647) (callOf change book)
        (referenceCallOf change spec) := by
  have carries := orderly.carries
  have sameShares : ∀ shares : Quantity, 0 ≤ shares → shares ≤ 2147483647 →
      0 ≤ toInt32 shares ∧ toInt32 shares ≤ 2147483647 := by
    intro shares atLeast atMost
    rw [toInt32_of_small atLeast atMost]
    exact ⟨atLeast, atMost⟩
  cases change with
  | add id side price shares =>
      refine (carries.replayAddVisibleOrder id price (toInt32 shares) side).imp_right ?_
      exact fun follows => follows.weaken (sameShares shares nonneg)
  | take id shares =>
      simp only [Ledger.Fits, live_eq_none] at fits
      have inRange : ReducesInRange spec id (toInt32 shares) := by
        rintro side order member rfl enough
        change 0 ≤ shares at nonneg
        have small : shares ≤ 2147483647 := fits.resolve_right
          (not_not.mpr (Reference.Book.contains_of_mem member))
        have sound := orderly.sound side order member
        rw [toInt32_of_small nonneg small] at enough ⊢
        unfold InInt32
        lia
      exact Or.inr ((carries.replayReduceVisibleOrder id inRange).weaken fun small =>
        (sameShares shares nonneg small).1)
  | delete id =>
      exact Or.inr ((carries.replayDeleteVisibleOrder id).weaken fun _ => trivial)
  | replace originalId newId price shares =>
      exact Or.inr ((carries.replayReplaceVisibleOrder originalId newId price
        (toInt32 shares)).weaken (sameShares shares nonneg))

/-- A call that the ledger refuses leaves the book as it is. -/
theorem callOf_of_refused
    (orderly : Orderly book spec)
    {change : FeedChange}
    (nonneg : 0 ≤ sharesOf change)
    (fits : (ledgerOfBook spec).Fits (Ledger.within spec.minPrice spec.maxPrice) change)
    (refused : (ledgerOfBook spec).apply (Ledger.within spec.minPrice spec.maxPrice) change =
      none) :
    callOf change book = .ok (false, book) := by
  have carries := orderly.carries
  have positive : ∀ shares : Quantity, 0 ≤ shares → toInt32 shares ≠ 0 → 0 < shares := by
    intro shares atLeast nonzero
    refine lt_of_le_of_ne atLeast fun zero => nonzero ?_
    rw [← zero]
    rfl
  cases change with
  | add id side price shares =>
      rw [callOf, OrderBook.replayAddVisibleOrder, if_pos]
      rw [carries.mem_idMap, carries.minPrice, carries.maxPrice]
      by_contra accepted
      simp only [not_or, not_lt] at accepted
      obtain ⟨nonzero, fresh, lower, upper⟩ := accepted
      rw [Ledger.apply, if_pos ⟨positive shares nonneg nonzero, live_eq_none.mpr fresh,
        Ledger.within_eq_true.mpr ⟨lower, upper⟩⟩] at refused
      cases refused
  | take id shares =>
      rw [callOf, OrderBook.replayReduceVisibleOrder]
      by_cases zero : toInt32 shares = 0
      · rw [if_pos zero]
      rw [if_neg zero]
      simp only [Ledger.Fits, live_eq_none, ← Reference.Book.locate_eq_none] at fits
      simp only [Ledger.apply, live_ledgerOfBook] at refused
      cases located : spec.locate id with
      | none => rw [carries.lookup_eq_none located]
      | some found =>
          obtain ⟨side, order⟩ := found
          obtain ⟨member, rfl⟩ := Reference.Book.locate_eq_some located
          obtain ⟨addr, free, block, level, front, rest, linked, lookup, stored, contents, _⟩ :=
            carries.resting member
          have quantity : block.quantity = order.quantity :=
            congrArg RestingOrder.quantity contents
          have small : shares ≤ 2147483647 := fits.resolve_right (by simp [located])
          change 0 ≤ shares at nonneg
          rw [located] at refused
          simp only [Option.map_some] at refused
          split at refused
          next notEnough =>
            have tooMany : shares > order.quantity := by
              by_contra enough
              exact notEnough ⟨positive shares nonneg zero, not_lt.mp enough⟩
            simp only [lookup, Heap.order_eq_ok stored, ok_bind, quantity,
              toInt32_of_small nonneg small, if_pos tooMany]
          next => split at refused <;> cases refused
  | delete id =>
      rw [Ledger.apply, Option.map_eq_none_iff, live_eq_none,
        ← Reference.Book.locate_eq_none] at refused
      rw [callOf, OrderBook.replayDeleteVisibleOrder, OrderBook.cancelOrder,
        carries.lookup_eq_none refused]
      rfl
  | replace originalId newId price shares =>
      rw [callOf, OrderBook.replayReplaceVisibleOrder]
      by_cases guard : toInt32 shares = 0 ∨ price < book.minPrice ∨ price > book.maxPrice ∨
          newId ∈ book.idToOrderMap
      · rw [if_pos guard]
      rw [if_neg guard]
      rw [carries.mem_idMap, carries.minPrice, carries.maxPrice] at guard
      simp only [not_or, not_lt] at guard
      obtain ⟨nonzero, lower, upper, fresh⟩ := guard
      cases located : spec.locate originalId with
      | none => rw [carries.lookup_eq_none located]
      | some found =>
          simp only [Ledger.apply, live_ledgerOfBook spec originalId, located, Option.map_some,
            if_pos (show 0 < shares ∧ (ledgerOfBook spec).live newId = none ∧
              Ledger.within spec.minPrice spec.maxPrice price = true from
                ⟨positive shares nonneg nonzero, live_eq_none.mpr fresh,
                  Ledger.within_eq_true.mpr ⟨lower, upper⟩⟩)] at refused
          cases refused

/-- Few shares fit whatever the book holds. -/
theorem fits_of_small
    {shows : Price → Bool} {ledger : Ledger} {change : FeedChange}
    (small : sharesOf change ≤ 2147483647) :
    ledger.Fits shows change := by
  cases change with
  | delete => trivial
  | add | take | replace => exact Or.inl small

/-- A replay operation that returns keeps the book orderly. -/
theorem Orderly.callOf
    (orderly : Orderly book spec)
    {change : FeedChange} {answer : Bool} {book' : OrderBook}
    (nonneg : 0 ≤ sharesOf change)
    (small : sharesOf change ≤ 2147483647)
    (called : callOf change book = .ok (answer, book')) :
    ∃ spec', Orderly book' spec' := by
  have fits : (ledgerOfBook spec).Fits (Ledger.within spec.minPrice spec.maxPrice) change :=
    fits_of_small small
  rcases follows_callOf orderly nonneg fits with
    ⟨_, exhausted⟩ | ⟨book'', returned, carries', _⟩
  · cases exhausted.symm.trans called
  obtain ⟨_, rfl⟩ := Prod.mk.inj (Except.ok.inj (called.symm.trans returned))
  obtain ⟨_, _, linked⟩ := orderly.carries.linked
  have recorded := records_referenceCallOf linked.distinct
    (fun side => (linked.links side).sorted) nonneg fits
  generalize referenceCallOf change spec = expected,
    (ledgerOfBook spec).apply (Ledger.within spec.minPrice spec.maxPrice) change = ledger
      at recorded carries'
  cases recorded with
  | applied sound => exact ⟨_, carries', sound orderly.sound⟩
  | refused => exact ⟨spec, carries', orderly.sound⟩

/-- A public call that returns keeps the book orderly, however many orders the levels
hold. -/
theorem Orderly.execute_public
    (orderly : Orderly book spec)
    {operation : Operation} {output : Output} {book' : OrderBook}
    (positive : operation.PositiveQuantities)
    (executed : book.execute operation = .ok (output, book')) :
    ∃ spec', Orderly book' spec' := by
  by_cases matching : operation.IsMatching
  · obtain ⟨spec', orderly', _⟩ := orderly.execute matching positive executed
    exact ⟨spec', orderly'⟩
  obtain ⟨change, nonneg, small, answer, called⟩ : ∃ change, 0 ≤ sharesOf change ∧
      sharesOf change ≤ 2147483647 ∧
      ∃ answer, Refinement.callOf change book = .ok (answer, book') := by
    have sameShares : ∀ shares : Quantity, 1 ≤ shares ∧ InInt32 shares →
        0 ≤ shares ∧ shares ≤ 2147483647 ∧ toInt32 shares = shares := fun shares bounds =>
      ⟨by lia, bounds.2.2, toInt32_of_inInt32 bounds.2⟩
    cases operation with
    | submitLimitOrder | submitMarketOrder | cancelOrder | modifyOrder | onSessionEnd =>
        exact absurd trivial matching
    | replayAddVisibleOrder id price quantity side =>
        obtain ⟨nonneg, small, same⟩ := sameShares quantity positive
        obtain ⟨⟨answer, after⟩, called, executed⟩ := bind_eq_ok executed
        obtain ⟨_, rfl⟩ := Prod.mk.inj (Except.ok.inj executed)
        refine ⟨.add id side price quantity, nonneg, small, answer, ?_⟩
        rwa [Refinement.callOf, same]
    | replayDeleteVisibleOrder id =>
        obtain ⟨⟨answer, after⟩, called, executed⟩ := bind_eq_ok executed
        obtain ⟨_, rfl⟩ := Prod.mk.inj (Except.ok.inj executed)
        exact ⟨.delete id, le_refl (0 : Int), (by decide : (0 : Int) ≤ 2147483647),
          answer, called⟩
    | replayReduceVisibleOrder id quantityReduced =>
        obtain ⟨nonneg, small, same⟩ := sameShares quantityReduced positive
        obtain ⟨⟨answer, after⟩, called, executed⟩ := bind_eq_ok executed
        obtain ⟨_, rfl⟩ := Prod.mk.inj (Except.ok.inj executed)
        refine ⟨.take id quantityReduced, nonneg, small, answer, ?_⟩
        rwa [Refinement.callOf, same]
    | replayReplaceVisibleOrder originalId newId newPrice newQuantity =>
        obtain ⟨nonneg, small, same⟩ := sameShares newQuantity positive
        obtain ⟨⟨answer, after⟩, called, executed⟩ := bind_eq_ok executed
        obtain ⟨_, rfl⟩ := Prod.mk.inj (Except.ok.inj executed)
        refine ⟨.replace originalId newId newPrice newQuantity, nonneg, small, answer, ?_⟩
        rwa [Refinement.callOf, same]
  exact orderly.callOf nonneg small called

/-- Every book that a run of the public calls reaches is orderly. -/
theorem orderly_of_run
    {events : List (Event OrderBook Operation Output)}
    (run : OrderBook.UnboundedRun OrderBook.PublicCalls events book) :
    ∃ spec, Orderly book spec := by
  induction run with
  | start starts =>
      obtain ⟨config, created⟩ := starts
      have refines := refines_of_create created
      refine ⟨_, refines.carries, fun side => ?_⟩
      cases side <;> simp [Reference.Book.orders, Sound]
  | step run taken inductionHypothesis =>
      obtain ⟨spec, orderly⟩ := inductionHypothesis
      exact orderly.execute_public taken.1 taken.2

end Calls

/-! ## Messages -/

/-- The counter of the engine for one kind of messages. -/
def counterOf (engine : ItchReplayEngine) : Tally → Nat
  | .adds => engine.addsApplied
  | .executions => engine.executionsApplied
  | .cancels => engine.cancelsApplied
  | .deletes => engine.deletesApplied
  | .replaces => engine.replacesApplied

/-- What the handlers do to count an applied message. -/
def countOf : Tally → ItchReplayEngine → ItchReplayEngine
  | .adds => ItchReplayEngine.countAdd
  | .executions => ItchReplayEngine.countExecution
  | .cancels => ItchReplayEngine.countCancel
  | .deletes => ItchReplayEngine.countDelete
  | .replaces => ItchReplayEngine.countReplace

/-- Every order message is one call of the book, and counted. -/
theorem onMessage_eq
    {message : Message} {tally : Tally} {change : FeedChange}
    (asks : Reference.changeOf message = some (tally, change))
    (engine : ItchReplayEngine) :
    engine.onMessage message =
      engine.applyToBook message.stockLocate (callOf change) (countOf tally) := by
  cases message <;> cases asks <;> rfl

theorem sharesOf_bounds
    {message : Message} {tally : Tally} {change : FeedChange}
    (asks : Reference.changeOf message = some (tally, change)) :
    0 ≤ sharesOf change ∧ sharesOf change < 4294967296 := by
  have bounds : ∀ shares : UInt32,
      (0 : Int) ≤ shares.toNat ∧ (shares.toNat : Int) < 4294967296 :=
    fun shares => ⟨Int.natCast_nonneg _, by exact_mod_cast shares.toNat_lt⟩
  cases message <;> cases asks
  case orderDelete => exact bounds 0
  all_goals exact bounds _

/-! ## Following a feed -/

/-- What the counters of the engine hold of a count. -/
theorem increment_toUInt64 (count : Nat) :
    ItchReplayEngine.increment (toUInt64 count) = toUInt64 (count + 1 : Nat) := by
  unfold ItchReplayEngine.increment toUInt64
  omega

/-- The prices that the book of an engine shows. -/
abbrev shownBy (obConfig : OrderBookConfig) : Price → Bool :=
  Ledger.within obConfig.minPrice obConfig.maxPrice

/-- The engine is where the ledger of its feed is. -/
structure Tracks
    (obConfig : OrderBookConfig) (engine : ItchReplayEngine) (state : LedgerReplay)
    (spec : Reference.Book) : Prop where
  orderly : Orderly engine.ob spec
  minPrice : spec.minPrice = obConfig.minPrice
  maxPrice : spec.maxPrice = obConfig.maxPrice
  ledger : ledgerOfBook spec = state.ledger
  symbol : engine.symbol = state.symbol
  target : engine.targetStockLocate = state.target
  applied : ∀ tally, counterOf engine tally = toUInt64 (state.applied tally)
  failed : engine.failedApplications = toUInt64 state.failed

/-- The shares of a message survive their conversion, or its change is refused whatever
its shares. -/
def FitsMessage
    (shows : Price → Bool) (state : LedgerReplay) (message : Message) : Prop :=
  ∀ tally change, Reference.changeOf message = some (tally, change) →
    state.target = some message.stockLocate → state.ledger.Fits shows change

/-- The shares of a message survive their conversion. -/
def SmallMessage (message : Message) : Prop :=
  ∀ tally change, Reference.changeOf message = some (tally, change) →
    sharesOf change < 2147483648

theorem SmallMessage.fits
    {message : Message}
    (small : SmallMessage message)
    (shows : Price → Bool) (state : LedgerReplay) :
    FitsMessage shows state message := by
  intro tally change asks _
  exact fits_of_small (Int.le_of_lt_add_one (small tally change asks))

theorem Tracks.of_create
    {symbol : List UInt8} {obConfig : OrderBookConfig} {engine : ItchReplayEngine}
    (created : ItchReplayEngine.create symbol obConfig = .ok engine) :
    ∃ spec, Tracks obConfig engine { symbol } spec ∧ Refines engine.ob spec := by
  obtain ⟨book, bookCreated, created⟩ := bind_eq_ok created
  obtain rfl := Except.ok.inj created
  have refines := refines_of_create bookCreated
  refine ⟨_, ⟨⟨refines.carries, ?_⟩, rfl, rfl, ?_, rfl, rfl, ?_, rfl⟩, refines⟩
  · rintro (side | side) order member <;> cases member
  · refine Ledger.ext (funext fun id => rfl) (funext fun side => funext fun price => ?_)
    cases side <;> rfl
  · rintro (_ | _) <;> rfl

section Tracks

variable {obConfig : OrderBookConfig} {engine : ItchReplayEngine} {state : LedgerReplay}
variable {spec : Reference.Book}

/-- An engine that has counted what the ledger has counted. -/
theorem Tracks.counted
    (tracks : Tracks obConfig engine state spec)
    {book : OrderBook} {spec' : Reference.Book} {ledger : Ledger}
    (orderly : Orderly book spec')
    (minPrice : spec'.minPrice = spec.minPrice)
    (maxPrice : spec'.maxPrice = spec.maxPrice)
    (ledgerEq : ledgerOfBook spec' = ledger)
    (tally : Tally) :
    Tracks obConfig (countOf tally { engine with ob := book })
      { state with
        ledger
        applied := Function.update state.applied tally (state.applied tally + 1) } spec' := by
  have applied := tracks.applied
  refine ⟨?_, minPrice.trans tracks.minPrice, maxPrice.trans tracks.maxPrice, ledgerEq, ?_, ?_,
    fun other => ?_, ?_⟩
  · cases tally <;> exact orderly
  · cases tally <;> exact tracks.symbol
  · cases tally <;> exact tracks.target
  · change _ = toUInt64 (Function.update state.applied tally (state.applied tally + 1) other : Nat)
    by_cases same : other = tally
    · subst same
      rw [Function.update_self, ← increment_toUInt64, ← applied other]
      cases other <;> rfl
    · rw [Function.update_of_ne same, ← applied other]
      cases tally <;> cases other <;> first | rfl | exact absurd rfl same
  · cases tally <;> exact tracks.failed

/-- An engine whose book has refused a call. -/
theorem Tracks.countFailure
    (tracks : Tracks obConfig engine state spec)
    {book : OrderBook}
    (orderly : Orderly book spec) :
    Tracks obConfig (ItchReplayEngine.countFailure { engine with ob := book })
      { state with failed := state.failed + 1 } spec where
  orderly := orderly
  minPrice := tracks.minPrice
  maxPrice := tracks.maxPrice
  ledger := tracks.ledger
  symbol := tracks.symbol
  target := tracks.target
  applied tally := by
    rw [← tracks.applied tally]
    cases tally <;> rfl
  failed := by
    rw [← increment_toUInt64, ← tracks.failed]
    rfl

/-- The engine and the ledger follow the same stock. -/
theorem Tracks.isTargetStock_eq
    (tracks : Tracks obConfig engine state spec) (stockLocate : Replay.StockLocate) :
    engine.isTargetStock stockLocate = decide (state.target = some stockLocate) := by
  rw [ItchReplayEngine.isTargetStock, tracks.target]
  cases state.target with
  | none => simp
  | some targetStockLocate => simp [beq_eq_decide, eq_comm]

/-- The step of the engine on an order message for its stock. -/
theorem Tracks.applyToBook
    (tracks : Tracks obConfig engine state spec)
    {message : Message} {tally : Tally} {change : FeedChange}
    (asks : Reference.changeOf message = some (tally, change))
    (onTarget : state.target = some message.stockLocate)
    (fits : state.ledger.Fits (shownBy obConfig) change) :
    (¬ HasFree engine.ob ∧
      engine.applyToBook message.stockLocate (callOf change) (countOf tally) =
        .error .badAlloc) ∨
    ∃ engine' spec',
      engine.applyToBook message.stockLocate (callOf change) (countOf tally) = .ok engine' ∧
      Tracks obConfig engine' (state.attempt (shownBy obConfig) tally change) spec' ∧
      (sharesOf change ≤ 2147483647 → Refines engine.ob spec → RoomyBook spec →
        Refines engine'.ob spec') := by
  have isTarget : (!engine.isTargetStock message.stockLocate) = false := by
    simp [tracks.isTargetStock_eq, onTarget]
  have nonneg := (sharesOf_bounds asks).1
  obtain ⟨addr, free, linked⟩ := tracks.orderly.carries.linked
  have inLedger : (ledgerOfBook spec).Fits (Ledger.within spec.minPrice spec.maxPrice) change := by
    rwa [tracks.minPrice, tracks.maxPrice, tracks.ledger]
  have recorded := records_referenceCallOf linked.distinct (fun side => (linked.links side).sorted)
    nonneg inLedger
  rw [tracks.minPrice, tracks.maxPrice, tracks.ledger] at recorded
  have range := range_referenceCallOf change spec
  unfold ItchReplayEngine.applyToBook
  simp only [isTarget, Bool.false_eq_true, if_false]
  rcases follows_callOf tracks.orderly nonneg (tracks.ledger ▸ fits) with
    ⟨noFree, exhausted⟩ | ⟨book', called, carries', refines'⟩
  · exact Or.inl ⟨noFree, congrArg (fun result => result >>= _) exhausted⟩
  refine Or.inr ?_
  rw [called, ok_bind]
  unfold LedgerReplay.attempt
  generalize referenceCallOf change spec = expected at *
  generalize state.ledger.apply (shownBy obConfig) change = ledger at *
  cases recorded with
  | applied sound =>
      refine ⟨_, _, rfl, tracks.counted ⟨carries', sound tracks.orderly.sound⟩ range.1 range.2 rfl
        tally, ?_⟩
      cases tally <;> exact refines'
  | refused =>
      exact ⟨_, _, rfl, tracks.countFailure ⟨carries', tracks.orderly.sound⟩, refines'⟩

/-- A message whose change the ledger refuses is counted as a failure and leaves the rest
of the engine as it is. -/
theorem Tracks.onMessage_of_refused
    (tracks : Tracks obConfig engine state spec)
    {message : Message} {tally : Tally} {change : FeedChange}
    (asks : Reference.changeOf message = some (tally, change))
    (onTarget : state.target = some message.stockLocate)
    (fits : state.ledger.Fits (shownBy obConfig) change)
    (refused : state.ledger.apply (shownBy obConfig) change = none) :
    engine.onMessage message = .ok engine.countFailure := by
  have isTarget : (!engine.isTargetStock message.stockLocate) = false := by
    simp [tracks.isTargetStock_eq, onTarget]
  rw [← tracks.ledger, shownBy, ← tracks.minPrice, ← tracks.maxPrice] at fits refused
  have called := callOf_of_refused tracks.orderly (sharesOf_bounds asks).1 fits refused
  rw [onMessage_eq asks]
  simp only [ItchReplayEngine.applyToBook, isTarget, called, ok_bind, Bool.false_eq_true,
    if_false]

/-- One message takes the engine and the ledger to where they agree again, unless the
pool of the book is exhausted. -/
theorem Tracks.onMessage
    (tracks : Tracks obConfig engine state spec)
    {message : Message}
    (fits : FitsMessage (shownBy obConfig) state message) :
    (¬ HasFree engine.ob ∧ engine.onMessage message = .error .badAlloc) ∨
    ∃ engine' spec', engine.onMessage message = .ok engine' ∧
      Tracks obConfig engine' (state.handle (shownBy obConfig) message) spec' ∧
      (SmallMessage message → Refines engine.ob spec → RoomyBook spec →
        Refines engine'.ob spec') := by
  have idle : engine.onMessage message = .ok engine →
      state.handle (shownBy obConfig) message = state →
      ∃ engine' spec', engine.onMessage message = .ok engine' ∧
        Tracks obConfig engine' (state.handle (shownBy obConfig) message) spec' ∧
        (SmallMessage message → Refines engine.ob spec → RoomyBook spec →
          Refines engine'.ob spec') := by
    intro unchanged same
    rw [same]
    exact ⟨engine, spec, unchanged, tracks, fun _ refines _ => refines⟩
  cases asks : Reference.changeOf message with
  | none =>
      refine Or.inr ?_
      cases message with
      | systemEvent event => exact idle rfl rfl
      | stockDirectory directory =>
          by_cases matching :
              ItchReplayEngine.matchesSymbol directory.stock engine.symbol = true
          · refine ⟨{ engine with targetStockLocate := some directory.stockLocate }, spec, ?_, ?_,
              fun _ refines _ => refines⟩
            · simp only [ItchReplayEngine.onMessage, ItchReplayEngine.onStockDirectory,
                if_pos matching]
            · rw [tracks.symbol] at matching
              simp only [LedgerReplay.handle, if_pos matching]
              exact { tracks with target := rfl }
          · refine idle ?_ ?_
            · simp only [ItchReplayEngine.onMessage, ItchReplayEngine.onStockDirectory,
                if_neg matching]
            · rw [tracks.symbol] at matching
              simp only [LedgerReplay.handle, if_neg matching]
      | _ => cases asks
  | some asked =>
      obtain ⟨tally, change⟩ := asked
      have handled := LedgerReplay.handle_of_asks asks (shownBy obConfig) state
      by_cases onTarget : state.target = some message.stockLocate
      · rw [handled, if_pos onTarget, onMessage_eq asks]
        refine (tracks.applyToBook asks onTarget (fits tally change asks onTarget)).imp_right ?_
        rintro ⟨engine', spec', returned, tracks', refines'⟩
        exact ⟨engine', spec', returned, tracks', fun small =>
          refines' (Int.le_of_lt_add_one (small tally change asks))⟩
      · refine Or.inr (idle ?_ (by rw [handled, if_neg onTarget]))
        have otherStock : (!engine.isTargetStock message.stockLocate) = true := by
          simp [tracks.isTargetStock_eq, onTarget]
        rw [onMessage_eq asks, ItchReplayEngine.applyToBook, if_pos otherStock]

/-! ## Replaying a feed -/

/-- Some message finds no free block in the pool of the book, and the pool cannot
grow. -/
def Exhausts (engine : ItchReplayEngine) (messages : List Message) : Prop :=
  ∃ earlier message later before, messages = earlier ++ message :: later ∧
    engine.onMessages earlier = .ok before ∧ ¬ HasFree before.ob ∧
    before.onMessage message = .error .badAlloc

theorem onMessages_append (engine : ItchReplayEngine) (earlier later : List Message) :
    engine.onMessages (earlier ++ later) =
      engine.onMessages earlier >>= fun before => before.onMessages later := by
  simp only [ItchReplayEngine.onMessages, List.foldlM_append]

theorem Exhausts.onMessages {messages : List Message} (exhausts : Exhausts engine messages) :
    engine.onMessages messages = .error .badAlloc := by
  obtain ⟨earlier, message, later, before, rfl, reached, _, refused⟩ := exhausts
  rw [onMessages_append, reached, ok_bind, ItchReplayEngine.onMessages, List.foldlM_cons,
    refused]
  rfl

theorem Exhausts.cons
    {engine' : ItchReplayEngine} {message : Message} {messages : List Message}
    (returned : engine.onMessage message = .ok engine')
    (exhausts : Exhausts engine' messages) :
    Exhausts engine (message :: messages) := by
  obtain ⟨earlier, last, later, before, rfl, reached, refused⟩ := exhausts
  refine ⟨message :: earlier, last, later, before, rfl, ?_, refused⟩
  rw [ItchReplayEngine.onMessages, List.foldlM_cons, returned, ok_bind]
  exact reached

/-- A ledger within its capacity is that of a roomy book. -/
theorem Tracks.roomy
    (tracks : Tracks obConfig engine state spec)
    (capacity : state.ledger.WithinCapacity) :
    RoomyBook spec := by
  intro side price
  have length := capacity side price
  rwa [← tracks.ledger, queue_ledgerOfBook, List.length_map] at length

/-- Every message of a feed fits where the feed has come to. -/
def FitsAlong (shows : Price → Bool) (state : LedgerReplay) (messages : List Message) : Prop :=
  ∀ earlier message, earlier ++ [message] <+: messages →
    FitsMessage shows (earlier.foldl (LedgerReplay.handle shows) state) message

theorem FitsAlong.of_small
    {messages : List Message}
    (small : ∀ message ∈ messages, SmallMessage message)
    (shows : Price → Bool) (state : LedgerReplay) :
    FitsAlong shows state messages := fun _ message isPrefix =>
  (small message (isPrefix.subset (by simp))).fits shows _

theorem FitsAlong.head
    {shows : Price → Bool} {message : Message} {messages : List Message}
    (fits : FitsAlong shows state (message :: messages)) :
    FitsMessage shows state message :=
  fits [] message ⟨messages, rfl⟩

theorem FitsAlong.tail
    {shows : Price → Bool} {message : Message} {messages : List Message}
    (fits : FitsAlong shows state (message :: messages)) :
    FitsAlong shows (state.handle shows message) messages := fun earlier other isPrefix =>
  fits (message :: earlier) other (List.cons_prefix_cons.mpr ⟨rfl, isPrefix⟩)

/-- A whole feed takes the engine and the ledger to where they agree again, unless the
pool of the book is exhausted. -/
theorem Tracks.onMessages
    (tracks : Tracks obConfig engine state spec)
    (messages : List Message)
    (fits : FitsAlong (shownBy obConfig) state messages) :
    Exhausts engine messages ∨
    ∃ engine' spec', engine.onMessages messages = .ok engine' ∧
      Tracks obConfig engine' (messages.foldl (LedgerReplay.handle (shownBy obConfig)) state)
        spec' ∧
      ((∀ message ∈ messages, SmallMessage message) → Refines engine.ob spec →
        (∀ earlier, earlier <+: messages →
          (earlier.foldl (LedgerReplay.handle (shownBy obConfig)) state).ledger.WithinCapacity) →
        Refines engine'.ob spec') := by
  induction messages generalizing engine state spec with
  | nil => exact Or.inr ⟨engine, spec, rfl, tracks, fun _ refines _ => refines⟩
  | cons message messages inductionHypothesis =>
      rcases tracks.onMessage fits.head with
        ⟨noFree, exhausted⟩ | ⟨engine', spec', returned, tracks', refines'⟩
      · exact Or.inl ⟨[], message, messages, engine, rfl, rfl, noFree, exhausted⟩
      refine (inductionHypothesis tracks' fits.tail).imp (Exhausts.cons returned) ?_
      rintro ⟨last, lastSpec, reached, lastTracks, lastRefines⟩
      refine ⟨last, lastSpec, ?_, lastTracks, fun small refines capacity => ?_⟩
      · rw [ItchReplayEngine.onMessages, List.foldlM_cons, returned, ok_bind]
        exact reached
      · obtain ⟨smallHead, smallTail⟩ := List.forall_mem_cons.mp small
        have roomy := tracks.roomy (capacity [] List.nil_prefix)
        exact lastRefines smallTail (refines' smallHead refines roomy) fun earlier isPrefix =>
          capacity (message :: earlier) (List.cons_prefix_cons.mpr ⟨rfl, isPrefix⟩)

end Tracks

end Refinement
end MatchingEngine
