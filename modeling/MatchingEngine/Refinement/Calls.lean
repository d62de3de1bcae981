import MatchingEngine.Reference.Calls
import MatchingEngine.Refinement.Run

/-!
# Lists of calls

A list of calls on a book that stands for a reference book gives the answers of
the reference, one after another, as long as the queues have room.  The one other
outcome is a call that needs a block when the pool can have no more.
-/

namespace MatchingEngine
namespace Refinement

open OrderBook (BookRun PublicCalls)

variable {book : OrderBook} {spec : Reference.Book} {operations : List Operation}

/-- Calls that return extend a run, when they are steps of it. -/
theorem run_of_performed
    {initial : OrderBook → Prop} {step : OrderBook → Operation → Output → OrderBook → Prop}
    {earlier events : List (Event OrderBook Operation Output)} {last : OrderBook}
    (run : Run initial step earlier book)
    (performed : book.perform operations = .ok (events, last))
    (taken : ∀ event ∈ events, event.before.execute event.input =
      .ok (event.output, event.after) →
        step event.before event.input event.output event.after) :
    Run initial step (earlier ++ events) last := by
  induction operations generalizing book earlier events with
  | nil =>
      obtain ⟨rfl, rfl⟩ := Prod.mk.inj (Except.ok.inj performed)
      rwa [List.append_nil]
  | cons operation operations inductionHypothesis =>
      obtain ⟨output, next, laterEvents, executed, later, rfl⟩ := OrderBook.perform_cons performed
      obtain ⟨headTaken, tailTaken⟩ := List.forall_mem_cons.mp taken
      have extended := inductionHypothesis (run.step (headTaken executed)) later tailTaken
      rwa [List.append_assoc] at extended

/-- Some call finds no free block in the pool, and the pool cannot grow. -/
def RunsOut (book : OrderBook) (operations : List Operation) : Prop :=
  ∃ earlier operation later events before, operations = earlier ++ operation :: later ∧
    book.perform earlier = .ok (events, before) ∧ ¬ HasFree before ∧
    before.execute operation = .error .badAlloc

theorem RunsOut.cons
    {operation : Operation} {output : Output} {next : OrderBook}
    (executed : book.execute operation = .ok (output, next))
    (runsOut : RunsOut next operations) :
    RunsOut book (operation :: operations) := by
  obtain ⟨earlier, last, later, events, before, rfl, reached, refused⟩ := runsOut
  refine ⟨operation :: earlier, last, later, ⟨book, operation, output, next⟩ :: events, before,
    rfl, ?_, refused⟩
  rw [OrderBook.perform, executed, ok_bind]
  simp only [reached, ok_bind]

/-- A list of calls that runs out of blocks does not return. -/
theorem RunsOut.perform (runsOut : RunsOut book operations) :
    book.perform operations = .error .badAlloc := by
  obtain ⟨earlier, last, later, events, before, rfl, reached, _, refused⟩ := runsOut
  induction earlier generalizing book events with
  | nil =>
      obtain ⟨_, rfl⟩ := Prod.mk.inj (Except.ok.inj reached)
      rw [List.nil_append, OrderBook.perform, refused]
      rfl
  | cons operation earlier inductionHypothesis =>
      obtain ⟨output, next, laterEvents, executed, reached, _⟩ := OrderBook.perform_cons reached
      rw [List.cons_append, OrderBook.perform, executed, ok_bind]
      simp only [inductionHypothesis _ reached, error_bind]

/-- No queue has more orders than its level can count after any of the calls. -/
def RoomyAlong (spec : Reference.Book) (operations : List Operation) : Prop :=
  ∀ earlier, earlier <+: operations → RoomyBook (spec.executeAll earlier).2

theorem RoomyAlong.start (roomy : RoomyAlong spec operations) : RoomyBook spec :=
  roomy [] List.nil_prefix

theorem RoomyAlong.next
    {operation : Operation}
    (roomy : RoomyAlong spec (operation :: operations)) :
    RoomyAlong (spec.execute operation).2 operations :=
  fun earlier isPrefix =>
    roomy (operation :: earlier) (List.cons_prefix_cons.mpr ⟨rfl, isPrefix⟩)

/-- Calls on a book give the answers of the reference, and a book for what the reference
has after them. -/
theorem Refines.perform
    (refines : Refines book spec)
    (roomy : RoomyAlong spec operations)
    (positive : ∀ operation ∈ operations, operation.PositiveQuantities) :
    RunsOut book operations ∨
    ∃ events last, book.perform operations = .ok (events, last) ∧
      events.map Event.output = (spec.executeAll operations).1 ∧
      Refines last (spec.executeAll operations).2 := by
  induction operations generalizing book spec with
  | nil => exact Or.inr ⟨[], book, rfl, rfl, refines⟩
  | cons operation operations inductionHypothesis =>
      obtain ⟨headPositive, tailPositive⟩ := List.forall_mem_cons.mp positive
      rcases execute_simulates refines roomy.start
          (Reference.Book.Safe.of_positive headPositive spec) with
        ⟨noFree, exhausted⟩ | ⟨next, executed, refines'⟩
      · exact Or.inl ⟨[], operation, operations, [], book, rfl, rfl, noFree, exhausted⟩
      refine (inductionHypothesis refines' roomy.next tailPositive).imp (.cons executed) ?_
      rintro ⟨events, last, reached, outputs, lastRefines⟩
      refine ⟨⟨book, operation, (spec.execute operation).1, next⟩ :: events, last, ?_, ?_,
        lastRefines⟩
      · rw [OrderBook.perform, executed, ok_bind]
        simp only [reached, ok_bind]
      · rw [List.map_cons, outputs]
        rfl

/-- The books of a list of calls that returns have room when no level has more orders
than its counter can count. -/
theorem roomyAlong_of_perform
    (refines : Refines book spec)
    (roomy : RoomyBook spec)
    (positive : ∀ operation ∈ operations, operation.PositiveQuantities)
    {events : List (Event OrderBook Operation Output)} {last : OrderBook}
    (performed : book.perform operations = .ok (events, last))
    (capacity : ∀ event ∈ events, event.after.WithinCapacity) :
    RoomyAlong spec operations := by
  induction operations generalizing book spec events with
  | nil =>
      intro earlier isPrefix
      rw [List.prefix_nil.mp isPrefix]
      exact roomy
  | cons operation operations inductionHypothesis =>
      obtain ⟨headPositive, tailPositive⟩ := List.forall_mem_cons.mp positive
      obtain ⟨output, next, laterEvents, executed, later, rfl⟩ :=
        OrderBook.perform_cons performed
      obtain ⟨nextCapacity, laterCapacity⟩ := List.forall_mem_cons.mp capacity
      obtain ⟨answer, refines'⟩ := execute_refines refines roomy
        (Reference.Book.Safe.of_positive headPositive spec) executed
      have roomyNext := refines'.roomy nextCapacity
      have along := inductionHypothesis refines' roomyNext tailPositive later laterCapacity
      intro earlier isPrefix
      cases earlier with
      | nil => exact roomy
      | cons first earlier =>
          obtain ⟨rfl, laterPrefix⟩ := List.cons_prefix_cons.mp isPrefix
          rw [Reference.Book.executeAll_cons, answer]
          exact along earlier laterPrefix

theorem RoomyAlong.nil (roomy : RoomyBook spec) : RoomyAlong spec [] := by
  intro earlier isPrefix
  rw [List.prefix_nil.mp isPrefix]
  exact roomy

theorem RoomyAlong.only
    {operation : Operation}
    (start : RoomyBook spec)
    (finish : RoomyBook (spec.execute operation).2) :
    RoomyAlong spec [operation] := by
  intro earlier isPrefix
  rw [← List.nil_append [operation]] at isPrefix
  rcases List.prefix_concat_iff.mp isPrefix with rfl | shorter
  · exact finish
  · rw [List.prefix_nil.mp shorter]
    exact start

theorem RoomyAlong.append
    {later : List Operation}
    (roomy : RoomyAlong spec operations)
    (laterRoomy : RoomyAlong (spec.executeAll operations).2 later) :
    RoomyAlong spec (operations ++ later) := by
  rintro earlier ⟨suffix, split⟩
  rcases List.append_eq_append_iff.mp split with ⟨rest, rfl, _⟩ | ⟨rest, rfl, rfl⟩
  · exact roomy earlier (List.prefix_append earlier rest)
  · rw [Reference.Book.executeAll_append]
    exact laterRoomy rest (List.prefix_append rest suffix)

/-- The calls of a run, made on the empty reference book of its range, give the answers of
the run and the view of its last book. -/
theorem executeAll_of_run
    {events : List (Event OrderBook Operation Output)}
    (run : BookRun PublicCalls events book) :
    book.view.emptied.executeAll (events.map Event.input) =
        (events.map Event.output, book.view) ∧
      RoomyAlong book.view.emptied (events.map Event.input) := by
  induction run with
  | start starts =>
      obtain ⟨sane, bids, asks⟩ := Sane.of_starts starts
      rw [Reference.Book.emptied_of_empty bids asks]
      exact ⟨rfl, .nil sane.roomy⟩
  | @step events before run operation output after steps inductionHypothesis =>
      obtain ⟨reached, along⟩ := inductionHypothesis
      have saneBefore := Sane.of_run safeCalls_publicCalls run
      obtain ⟨saneAfter, answer⟩ := saneBefore.of_steps safeCalls_publicCalls steps
      have sameRange : after.view.emptied = before.view.emptied := by
        rw [← before.view.emptied_execute operation, answer]
      have extended : before.view.emptied.executeAll (events.map Event.input ++ [operation]) =
          (events.map Event.output ++ [output], after.view) := by
        rw [Reference.Book.executeAll_append, reached, Reference.Book.executeAll_cons, answer]
        rfl
      rw [List.map_append, List.map_append, sameRange]
      refine ⟨extended, along.append ?_⟩
      rw [reached]
      exact .only saneBefore.roomy (answer ▸ saneAfter.roomy)

end Refinement
end MatchingEngine
