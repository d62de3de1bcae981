import MatchingEngine.Mirror.SessionEnd
import MatchingEngine.Refinement.Storage

/-!
# Buy and sell are mirror images

Reflect the prices of a book in the middle of its range and exchange its sides.  Every
call then returns the image of its result, and leaves the image of the book up to the
addresses of the blocks; every query returns the image of its answer.

Only the session end frees blocks in another order.  All the other calls leave the very
image, as their two hand-written directions agree level by level.
-/

namespace MatchingEngine

/-- The range of the prices of a book. -/
def OrderBook.priceRange (book : OrderBook) : PriceRange := ⟨book.minPrice, book.maxPrice⟩

namespace Properties

open OrderBook (UnboundedRun StorableCalls sampleSession sampleConfig sampleCalls run_of_session)
open PriceRange (FramedBook)
open Refinement

variable {events : List (Event OrderBook Operation Output)} {book : OrderBook}

/-! ## Images of answers -/

/-- What a call does on the image of a book, compared with what it does on the book: the
same fault, or the image of the output and, up to the addresses of the blocks, the image
of the book that is left. -/
def AnswersMirrored
    (range : PriceRange) (source target : Except Fault (Output × OrderBook)) : Prop :=
  match source with
  | .error fault => target = .error fault
  | .ok (output, after) => ∃ image rename,
      target = .ok (range.mirrorOutput output, image) ∧
        RenamesBook rename (range.mirrorBook after) image

/-- The queries on the image of a book, compared with those on the book. -/
structure QueriesMirrored (range : PriceRange) (book : OrderBook) : Prop where
  bestBid : (range.mirrorBook book).getBestBidPrice = book.getBestAskPrice.map range.mirrorPrice
  bestAsk : (range.mirrorBook book).getBestAskPrice = book.getBestBidPrice.map range.mirrorPrice
  topBids : ∀ depth, (range.mirrorBook book).getTopBidLevels depth =
    (book.getTopAskLevels depth).map range.mirrorDepth
  topAsks : ∀ depth, (range.mirrorBook book).getTopAskLevels depth =
    (book.getTopBidLevels depth).map range.mirrorDepth
  numLevelsBids : (range.mirrorBook book).getNumLevelsBids = book.getNumLevelsAsks
  numLevelsAsks : (range.mirrorBook book).getNumLevelsAsks = book.getNumLevelsBids
  numOrders : (range.mirrorBook book).getNumOrders = book.getNumOrders

/-- Two calls of which the second leaves the very image. -/
theorem AnswersMirrored.of_mirrors
    {range : PriceRange} {source target : Except Fault (Output × OrderBook)}
    (mirrors : PriceRange.Mirrors range range.mirrorOutput source target) :
    AnswersMirrored range source target := by
  have equal := mirrors.equal
  cases source with
  | error fault => exact equal
  | ok answer => exact ⟨range.mirrorBook answer.2, id, equal, RenamesBook.refl _⟩

/-! ## Reachable books -/

/-- A book whose lists are queues, with its best prices in range, is over its range. -/
theorem framedBook_of_carries
    {spec : Reference.Book}
    (carries : Carries book spec)
    (bounded : OnLadders Bounded book) :
    FramedBook book.priceRange book := by
  obtain ⟨addr, free, linked⟩ := carries.linked
  have framed : ∀ side, PriceRange.Framed book.priceRange (book.ladder side) := fun side =>
    { bounded.ladder side with
      minPrice := (linked.minPrice side).trans carries.minPrice.symm
      maxPrice := (linked.maxPrice side).trans carries.maxPrice.symm }
  exact ⟨⟨framed .buy, framed .sell⟩, rfl, rfl⟩

theorem queriesMirrored_of_framed
    {range : PriceRange}
    (framed : FramedBook range book) :
    QueriesMirrored range book where
  bestBid := rfl
  bestAsk := rfl
  topBids := framed.getTopBidLevels_mirrorBook
  topAsks := framed.getTopAskLevels_mirrorBook
  numLevelsBids := PriceRange.Framed.getNumNonEmptyLevels_mirrorLadder range book.askLevels
  numLevelsAsks := PriceRange.Framed.getNumNonEmptyLevels_mirrorLadder range book.bidLevels
  numOrders := rfl

/-- A session end returns one report on a book and on its image. -/
theorem answersMirrored_onSessionEnd
    {range : PriceRange} {spec : Reference.Book}
    (framed : FramedBook range book)
    (carries : Carries book spec) :
    AnswersMirrored range (book.execute .onSessionEnd)
      ((range.mirrorBook book).execute .onSessionEnd) := by
  obtain ⟨report, after, image, ended, imageEnded, renames⟩ := framed.onSessionEnd carries
  have executed : book.execute .onSessionEnd = .ok (.sessionEnd report, after) := by
    simp only [OrderBook.execute, ended, ok_bind]
  have imageExecuted : (range.mirrorBook book).execute .onSessionEnd =
      .ok (.sessionEnd report, image) := by
    simp only [OrderBook.execute, imageEnded, ok_bind]
  rw [executed]
  exact ⟨image, _, imageExecuted, renames⟩

/-- In every reachable book, every call and every query does in the mirror what it does in
front of it. -/
theorem sides_mirrored (run : UnboundedRun StorableCalls events book) :
    (∀ operation, AnswersMirrored book.priceRange (book.execute operation)
      ((book.priceRange.mirrorBook book).execute
        (book.priceRange.mirrorOperation operation))) ∧
      QueriesMirrored book.priceRange book := by
  obtain ⟨spec, stores⟩ := stores_of_run run
  have framed := framedBook_of_carries stores.carries (bounded_of_run run)
  refine ⟨fun operation => ?_, queriesMirrored_of_framed framed⟩
  by_cases during : operation = .onSessionEnd
  · subst during
    exact answersMirrored_onSessionEnd framed stores.carries
  · exact AnswersMirrored.of_mirrors (framed.execute during)

theorem sides_mirrored_sample :
    UnboundedRun StorableCalls sampleSession.1 sampleSession.2 ∧
      AnswersMirrored sampleSession.2.priceRange
        (sampleSession.2.execute .onSessionEnd)
        ((sampleSession.2.priceRange.mirrorBook sampleSession.2).execute .onSessionEnd) ∧
      (sampleSession.2.priceRange.mirrorBook sampleSession.2).getBestAskPrice = some 2 := by
  have run : UnboundedRun StorableCalls sampleSession.1 sampleSession.2 :=
    (run_of_session sampleConfig sampleCalls rfl (by decide +kernel) (by decide +kernel)).unbounded
  refine ⟨run, (sides_mirrored run).1 .onSessionEnd, ?_⟩
  rw [(sides_mirrored run).2.bestAsk]
  decide +kernel

end Properties
end MatchingEngine
