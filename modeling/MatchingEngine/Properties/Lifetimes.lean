import MatchingEngine.Refinement.Crowd

/-!
# An order keeps its side and its lifetime

However often an order is modified, it rests on the side and with the lifetime of
its submission.  The session end therefore removes orders that were submitted
as DAY orders, and all of them as long as no level holds more orders than its
counter can count.
-/

namespace MatchingEngine
namespace Properties

open Refinement
open Reference (Order)
open OrderBook (BookRun UnboundedRun MatchingCalls)

variable {events : List (Event OrderBook Operation Output)} {book : OrderBook}

/-- Every order on a list is one of the reference book. -/
theorem mem_of_levelOrders
    {spec : Reference.Book}
    (carries : Carries book spec)
    {side : Side} {index : Nat} {resting : RestingOrder}
    (listed : resting ∈ book.levelOrders side index) :
    ∃ order ∈ spec.orders side,
      order.id = resting.id ∧ order.lifetime = resting.lifetime ∧ resting.side = side := by
  obtain ⟨addr, free, linked⟩ := carries.linked
  obtain ⟨address, onList, stored⟩ := List.mem_filterMap.mp listed
  cases found : (book.ladder side).levels[index]? with
  | none =>
      rw [OrderBook.levelBlocks, found] at onList
      cases onList
  | some level =>
      obtain ⟨_, levelLinks⟩ := (linked.links side).lists index level found
      rw [linked.minPrice side] at levelLinks
      rw [(list_of_level linked found).levelBlocks] at onList
      obtain ⟨order, inQueue, rfl⟩ := mem_blocks.mp onList
      obtain ⟨block, inBlock, contents⟩ := levelLinks.block_order inQueue
      obtain rfl : block = resting := by simpa [OrderBook.orderAt, inBlock] using stored
      exact ⟨order, (mem_queueAt.mp inQueue).1, (congrArg RestingOrder.id contents).symm,
        (congrArg RestingOrder.lifetime contents).symm, congrArg RestingOrder.side contents⟩

/-- What the session end removes was submitted as a DAY order. -/
theorem removed_of_day
    {spec : Reference.Book}
    (orderly : Orderly book spec)
    (traced : Traced (submittedAs events) spec)
    {report : DayOrderPruneResult} {next : OrderBook} {id : OrderID}
    (ended : book.onSessionEnd = .ok (report, next))
    (present : id ∈ book.idToOrderMap)
    (removed : id ∉ next.idToOrderMap) :
    ∃ side, submittedAs events id = some (side, .day) := by
  obtain ⟨spec', orderly', _, kept⟩ := orderly.onSessionEnd ended
  obtain ⟨side, order, member, rfl⟩ :=
    Reference.Book.contains_iff.mp (orderly.carries.mem_idMap.mp present)
  refine ⟨side, (traced side order member).trans ?_⟩
  cases lifetime : order.lifetime with
  | gtc =>
      have still := Reference.Book.contains_of_mem (kept side order member lifetime)
      exact absurd (orderly'.carries.mem_idMap.mpr still) removed
  | day => rfl

/-- Within capacity, the session end removes every order that was submitted as a DAY
order. -/
theorem day_removed
    (run : BookRun MatchingCalls events book)
    (traced : Traced (submittedAs events) book.view) :
    ∃ report next, book.onSessionEnd = .ok (report, next) ∧
      ∀ id ∈ book.idToOrderMap, ∀ side, submittedAs events id = some (side, .day) →
        id ∉ next.idToOrderMap := by
  obtain ⟨refines, roomy⟩ := Sane.of_run safeCalls_matchingCalls run
  obtain ⟨next, ended, refines'⟩ := onSessionEnd refines roomy
  refine ⟨_, next, ended, fun id present side asDay still => ?_⟩
  have survived := Reference.Book.contains_iff.mp (refines'.mem_idMap.mp still)
  obtain ⟨restingSide, order, member, rfl⟩ := survived
  have pruned : order ∈ book.view.prune.orders restingSide := member
  rw [Reference.Book.orders_prune, List.mem_filter] at pruned
  have origin := traced restingSide order pruned.1
  rw [asDay] at origin
  have sameTif := (Prod.mk.inj (Option.some.inj origin)).2
  cases lifetime : order.lifetime with
  | gtc =>
      rw [lifetime] at sameTif
      cases sameTif
  | day => simp [lifetime] at pruned

/-- However many orders are on a level, every order on a list has the side and the
lifetime of its submission, and a session end removes no order that was submitted
as a GTC order.  Within capacity it removes the orders that were submitted as DAY
orders and no others. -/
theorem lifetime_follows_order (run : UnboundedRun MatchingCalls events book) :
    (∀ side index, ∀ order ∈ book.levelOrders side index,
      order.side = side ∧
        submittedAs events order.id =
          some (side, Reference.Book.resubmissionTif order.lifetime)) ∧
    (∀ report next, book.onSessionEnd = .ok (report, next) →
      ∀ id ∈ book.idToOrderMap, id ∉ next.idToOrderMap →
        ∃ side, submittedAs events id = some (side, .day)) ∧
    (BookRun MatchingCalls events book →
      ∃ report next, book.onSessionEnd = .ok (report, next) ∧
        ∀ id ∈ book.idToOrderMap,
          id ∉ next.idToOrderMap ↔ ∃ side, submittedAs events id = some (side, .day)) := by
  obtain ⟨spec, orderly, traced⟩ := traced_of_run run
  obtain rfl := orderly.carries.view_eq
  refine ⟨fun side index resting listed => ?_, fun report next ended id present removed =>
    removed_of_day orderly traced ended present removed, fun withinCapacity => ?_⟩
  · obtain ⟨order, member, sameId, sameLifetime, sameSide⟩ :=
      mem_of_levelOrders orderly.carries listed
    refine ⟨sameSide, ?_⟩
    rw [← sameId, ← sameLifetime]
    exact traced side order member
  · obtain ⟨report, next, ended, dayRemoved⟩ := day_removed withinCapacity traced
    refine ⟨report, next, ended, fun id present => ⟨fun removed =>
      removed_of_day orderly traced ended present removed, ?_⟩⟩
    rintro ⟨side, asDay⟩
    exact dayRemoved id present side asDay

theorem lifetime_follows_order_sample :
    (∀ side index, ∀ order ∈ OrderBook.sampleSession.2.levelOrders side index,
      order.side = side ∧
        submittedAs OrderBook.sampleSession.1 order.id =
          some (side, Reference.Book.resubmissionTif order.lifetime)) ∧
    (∀ report next, OrderBook.sampleSession.2.onSessionEnd = .ok (report, next) →
      ∀ id ∈ OrderBook.sampleSession.2.idToOrderMap, id ∉ next.idToOrderMap →
        ∃ side, submittedAs OrderBook.sampleSession.1 id = some (side, .day)) ∧
    (BookRun MatchingCalls OrderBook.sampleSession.1 OrderBook.sampleSession.2 →
      ∃ report next, OrderBook.sampleSession.2.onSessionEnd = .ok (report, next) ∧
        ∀ id ∈ OrderBook.sampleSession.2.idToOrderMap,
          id ∉ next.idToOrderMap ↔
            ∃ side, submittedAs OrderBook.sampleSession.1 id = some (side, .day)) :=
  lifetime_follows_order OrderBook.sampleRun.unbounded

/-! ## A level that counts zero -/

/-- One more DAY order for a crowd. -/
theorem submit_to_crowd
    {count : Nat}
    (crowded : Crowded .day count book)
    (small : count < 4294967296) :
    ∃ result next,
      book.submitLimitOrder ⟨count, 0, 1, .buy, .day⟩ = .ok (result, next) ∧
      Crowded .day (count + 1) next := by
  obtain ⟨next, rested, crowded'⟩ := crowded.restOrder small
  have accepted : ¬ book.rejects ⟨count, 0, 1, .buy, .day⟩ := by
    rw [OrderBook.rejects, crowded.refines.mem_idMap, contains_crowd, crowded.refines.minPrice,
      crowded.refines.maxPrice]
    simp [crowd]
  have noAsks : (book.ladder .sell).bestPrice = none := crowded.refines.best .sell
  have ladderSide := crowded.refines.carries.ladder_side .buy
  have nothing : book.runMatching .sell (OrderBook.crosses .buy 0) 1 =
      .ok ⟨false, book, 1, { quantityRequested := 1 }⟩ := by
    simp [OrderBook.runMatching, OrderBook.matchingLoop, noAsks]
  refine ⟨{ quantityRequested := 1, status := .resting }, next, ?_, crowded'⟩
  rw [OrderBook.submitLimitOrder, if_neg accepted]
  simp only [OrderBook.submitLimitOrderResting, Side.opposite, nothing, ok_bind, ladderSide]
  exact congrArg (· >>= _) rested

/-- A run that fills a level with DAY orders. -/
theorem exists_crowd_run (count : Nat) (small : count ≤ 4294967296) :
    ∃ events book, UnboundedRun MatchingCalls events book ∧ Crowded .day count book := by
  induction count with
  | zero =>
      obtain ⟨book, created, crowded⟩ := exists_crowded .day
      exact ⟨[], book, .start ⟨crowdConfig, created⟩, crowded⟩
  | succ count inductionHypothesis =>
      obtain ⟨events, book, run, crowded⟩ := inductionHypothesis (by omega)
      obtain ⟨result, next, submitted, crowded'⟩ := submit_to_crowd crowded (by omega)
      have executed : book.execute (.submitLimitOrder ⟨count, 0, 1, .buy, .day⟩) =
          .ok (.submission result, next) := by
        rw [OrderBook.execute, submitted, ok_bind]
      have allowed : MatchingCalls book (.submitLimitOrder ⟨count, 0, 1, .buy, .day⟩) :=
        ⟨trivial, le_refl (1 : Int), show InInt32 1 by decide⟩
      exact ⟨_, next, run.step ⟨allowed, executed⟩, crowded'⟩

/-- The session end passes over a level whose counter has wrapped around to zero. -/
theorem wrapped_level_kept :
    ∃ events book report next, UnboundedRun MatchingCalls events book ∧
      book.onSessionEnd = .ok (report, next) ∧
      ∃ id ∈ book.idToOrderMap, submittedAs events id = some (.buy, .day) ∧
        id ∈ next.idToOrderMap := by
  obtain ⟨events, book, run, crowded⟩ := exists_crowd_run 4294967296 le_rfl
  have carries := crowded.refines.carries
  have isBest : (book.ladder .buy).bestPrice = some 0 :=
    (crowded.refines.best .buy).trans (bestOf_crowd (by decide))
  obtain ⟨report, next, prunedBids⟩ := carries.exists_pruneSide .buy {} fun price best => by
    obtain rfl : 0 = price := Option.some.inj (isBest.symm.trans best)
    exact carries.inRange .buy ⟨le_refl (0 : Int), show (0 : Int) ≤ 4 by decide⟩
  have noAsks : (next.ladder .sell).bestPrice = none := by
    rw [ladder_pruneSide prunedBids (by decide)]
    exact crowded.refines.best .sell
  have ended : book.onSessionEnd = .ok (report, next) := by
    rw [OrderBook.onSessionEnd, prunedBids, ok_bind]
    change next.pruneSide .sell report = _
    rw [OrderBook.pruneSide, PriceLadder.empty, noAsks, if_pos Option.isNone_none]
  have nothingPruned : pruneAmong (crowd .day 4294967296) .buy
      (Pruned (crowd .day 4294967296) .buy) = crowd .day 4294967296 := by
    refine pruneAmong_of_none fun order member _ => not_not.mpr ?_
    obtain ⟨_, _, _, rfl⟩ := mem_crowd.mp member
    rw [queueAt_crowd, Uncounted, length_crowd]
  have kept : Carries next (crowd .day 4294967296) := by
    rcases carries.pruneSide prunedBids with ⟨noBest, _⟩ | carries'
    · cases isBest.symm.trans noBest
    · rwa [nothingPruned] at carries'
  have inCrowd : (crowd .day 4294967296).Contains 0 := contains_crowd.mpr (by decide)
  obtain ⟨spec, orderly, traced⟩ := traced_of_run run
  obtain rfl : crowd .day 4294967296 = spec := carries.view_eq.symm.trans orderly.carries.view_eq
  exact ⟨events, book, report, next, run, ended, 0, carries.mem_idMap.mpr inCrowd,
    traced .buy ⟨0, 0, 1, .day⟩ (mem_crowd.mpr ⟨rfl, 0, by decide, rfl⟩),
    kept.mem_idMap.mpr inCrowd⟩

end Properties
end MatchingEngine
