import MatchingEngine.Properties.Interchange
import MatchingEngine.Refinement.Reports

/-!
# What the calls return is a complete feed

An observer that is told, for every call of a run, what the call returned can
keep a book of its own with the replay operations.  No report is ever refused,
and the observer's book has the orders of the run, without their lifetimes, and
answers every query as the book of the run does.
-/

namespace MatchingEngine
namespace Properties

open OrderBook (BookRun PublicCalls sampleConfig sampleSession sampleRun_public)
open Reference (Relabelling)
open Refinement

variable {book fresh : OrderBook} {events : List (Event OrderBook Operation Output)}

/-- The replay calls that report the calls of a run, one after the other. -/
def feedOf (events : List (Event OrderBook Operation Output)) : List Operation :=
  events.flatMap fun event => event.before.view.reports event.input event.output

/-- The feed of a run rebuilds its book, and has room. -/
theorem rebuilds_feedOf (run : BookRun PublicCalls events book) :
    book.view.emptied.visible.Rebuilds (feedOf events) book.view.visible ∧
      RoomyAlong book.view.emptied.visible (feedOf events) := by
  induction run with
  | start starts =>
      obtain ⟨sane, bids, asks⟩ := Sane.of_starts starts
      rw [Reference.Book.emptied_of_empty bids asks]
      exact ⟨.nil _, .nil (sane.roomy.withLabels _)⟩
  | @step events before run operation output after steps inductionHypothesis =>
      obtain ⟨rebuilds, along⟩ := inductionHypothesis
      have saneBefore := Sane.of_run safeCalls_publicCalls run
      obtain ⟨saneAfter, answer⟩ := saneBefore.of_steps safeCalls_publicCalls steps
      have sameRange : after.view.emptied = before.view.emptied := by
        rw [← before.view.emptied_execute operation, answer]
      have reported := saneBefore.refines.valid.rebuilds_reports steps.1
      have room := RoomyAlong.reports saneBefore.refines.valid steps.1 saneBefore.roomy
        (answer ▸ saneAfter.roomy)
      rw [answer] at reported room
      have extended : feedOf (events ++ [⟨before, operation, output, after⟩]) =
          feedOf events ++ before.view.reports operation output := by
        rw [feedOf, List.flatMap_append, List.flatMap_singleton]
        rfl
      rw [sameRange, extended]
      exact ⟨rebuilds.append reported, along.append (rebuilds.reached ▸ room)⟩

/-- An empty book of the same range follows the feed of a run. -/
theorem perform_feedOf
    {config : OrderBookConfig}
    (run : BookRun PublicCalls events book)
    (created : OrderBook.create config = .ok fresh)
    (minPrice : config.minPrice = book.minPrice)
    (maxPrice : config.maxPrice = book.maxPrice) :
    RunsOut fresh (feedOf events) ∨
    ∃ following replica, fresh.perform (feedOf events) = .ok (following, replica) ∧
      (∀ event ∈ following, event.output = .replay true) ∧
      Refines replica book.view.visible := by
  obtain ⟨rebuilds, along⟩ := rebuilds_feedOf run
  have freshRefines : Refines fresh book.view.emptied.visible := by
    have sameBook : book.view.emptied.visible = ⟨config.minPrice, config.maxPrice, [], []⟩ := by
      rw [minPrice, maxPrice]
      rfl
    exact sameBook ▸ refines_of_create created
  refine (freshRefines.perform along rebuilds.positive).imp_right ?_
  rintro ⟨following, replica, reached, outputs, replicaRefines⟩
  rw [rebuilds.reached] at replicaRefines
  refine ⟨following, replica, reached, ?_, replicaRefines⟩
  intro event member
  exact rebuilds.accepted event.output (outputs ▸ List.mem_map_of_mem member)

/-- A book with the visible orders of another one answers its queries. -/
theorem answersAlike_of_visible
    {replica : OrderBook}
    (sane : Sane book)
    (follows : Refines replica book.view.visible) :
    AnswersAlike book replica :=
  (answersRelabelled_of_refines sane.refines follows sane.roomy).alike fun _ => rfl

end Properties
end MatchingEngine
