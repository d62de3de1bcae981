import MatchingEngine.Reference.Priority
import MatchingEngine.Refinement.Run

/-!
# Price-time priority over whole runs

The time of an order is the number of calls before its last entry into the book.
In every run of the public operations the list of every level is sorted by these
times, makers are served by price and time, and orders that stay keep their
relative order.
-/

namespace MatchingEngine
namespace Properties

open OrderBook (BookRun PublicCalls sampleEvent sampleSession sampleSession_split
  sampleRun_public)
open Reference (Order)
open Refinement

variable {events : List (Event OrderBook Operation Output)} {book : OrderBook}

/-- Along a run of the reference book, its sides stay sorted by price and entry
time. -/
theorem timely_of_referenceRun
    {specEvents : List (Event Reference.Book Operation Output)} {spec : Reference.Book}
    (run : ReferenceRun Reference.Book.Safe specEvents spec) :
    spec.Valid ∧ spec.Timely (entryTimes specEvents) specEvents.length := by
  induction run with
  | @start spec empty =>
      have noOrders : ∀ side, spec.orders side = [] := by
        rintro (side | side)
        · exact empty.1
        · exact empty.2
      refine ⟨.of_empty empty.1 empty.2, fun side => ?_, fun side => ?_⟩
      · rw [noOrders side]
        exact List.Pairwise.nil
      · simp [noOrders side]
  | @step specEvents spec run operation output next taken inductionHypothesis =>
      obtain ⟨safe, executed⟩ := taken
      obtain ⟨valid, timely⟩ := inductionHypothesis
      have validAfter := valid.execute safe
      have timelyAfter := timely.execute valid safe
      rw [executed] at validAfter timelyAfter
      rw [entryTimes_append_singleton, List.length_append]
      exact ⟨validAfter, timelyAfter⟩

theorem timely_of_run (run : BookRun PublicCalls events book) :
    book.view.Valid ∧ book.view.Timely (entryTimes events) events.length := by
  have referenceRun := referenceRun_of_run safeCalls_publicCalls
    (fun book operation allowed => Reference.Book.Safe.of_positive allowed book.view) run
  have timely := timely_of_referenceRun referenceRun
  rwa [entryTimes_map viewEvent (fun _ => rfl) (fun _ => rfl), List.length_map] at timely

/-- The ids on the list of a level are those of its queue. -/
theorem ids_of_levelOrders
    {spec : Reference.Book}
    (refines : Refines book spec)
    (side : Side) (index : Nat) :
    (book.levelOrders side index).map RestingOrder.id =
      (spec.queue side (spec.minPrice + index)).map Order.id := by
  rw [← OrderBook.map_pricedOrders Order.id fun _ _ => rfl, refines.pricedOrders_eq]
  rfl

/-- In every run, the list of each level is sorted by entry time; whenever a maker is
filled, it precedes all other orders then resting on its side; and no call changes
the relative order of the orders that it leaves on a level. -/
theorem price_time_priority (run : BookRun PublicCalls events book) :
    (∀ side index,
      ((book.levelOrders side index).map fun order =>
        entryTimes events order.id).Pairwise (· < ·)) ∧
    (∀ earlier event later, events = earlier ++ event :: later →
      event.before.view.ServedInOrder (entryTimes earlier) event.output.executions) ∧
    ∀ event ∈ events, ∀ side index,
      (((event.after.levelOrders side index).map RestingOrder.id).filter fun id =>
        event.input.entered event.output ≠ some id).Sublist
      ((event.before.levelOrders side index).map RestingOrder.id) := by
  refine ⟨fun side index => ?_, fun earlier event later split => ?_,
    fun event member side index => ?_⟩
  · obtain ⟨refines, _⟩ := Sane.of_run safeCalls_publicCalls run
    obtain ⟨_, timely⟩ := timely_of_run run
    rw [← OrderBook.map_pricedOrders (fun order => entryTimes events order.id) fun _ _ => rfl,
      refines.pricedOrders_eq, List.pairwise_map]
    refine ((timely.sorted side).sublist (KeyedList.bucket_sublist _ _)).imp_of_mem ?_
    intro first second inQueue inQueue' precedes
    have samePrice := (mem_queueAt.mp inQueue).2.trans (mem_queueAt.mp inQueue').2.symm
    rcases precedes with better | ⟨_, before⟩
    · rw [samePrice] at better
      exact absurd better (lt_irrefl _)
    · exact before
  · rw [split] at run
    obtain ⟨runBefore, steps⟩ := run.of_split
    obtain ⟨valid, timely⟩ := timely_of_run runBefore
    obtain ⟨_, answer⟩ := (Sane.of_run safeCalls_publicCalls runBefore).of_steps
      safeCalls_publicCalls steps
    have served := timely.servedInOrder valid event.input
    rwa [answer] at served
  · obtain ⟨⟨refines, _⟩, ⟨refinesAfter, _⟩, allowed, answer⟩ :=
      Sane.forall_events safeCalls_publicCalls run event member
    have survivors := refines.valid.queue_survivors
      (Reference.Book.Safe.of_positive allowed event.before.view) side
      (event.before.view.minPrice + index)
    have sameMinPrice := event.before.view.execute_minPrice event.input
    rw [answer] at survivors sameMinPrice
    rw [ids_of_levelOrders refinesAfter, ids_of_levelOrders refines, sameMinPrice]
    exact survivors

/-- A bid that uses up the better ask and takes a part of the earlier of two others. -/
theorem price_time_priority_sample :
    (∀ side index,
      ((sampleSession.2.levelOrders side index).map fun order =>
        entryTimes sampleSession.1 order.id).Pairwise (· < ·)) ∧
    (sampleEvent 4).output.executions = [⟨3, 2, 2⟩, ⟨1, 3, 2⟩] ∧
    (sampleEvent 4).before.view.ServedInOrder (entryTimes (sampleSession.1.take 4))
      (sampleEvent 4).output.executions := by
  obtain ⟨sorted, served, _⟩ := price_time_priority sampleRun_public
  exact ⟨sorted, by decide +kernel, served _ _ _ (sampleSession_split 4)⟩

end Properties
end MatchingEngine
