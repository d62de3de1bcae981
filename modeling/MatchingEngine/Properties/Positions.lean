import MatchingEngine.Reference.Positions
import MatchingEngine.Properties.Priority

/-!
# Positions in the queues over whole runs

Through any sequence of calls a level keeps, of its orders, some in their sequence
and no larger than they were, and takes newcomers behind them.  An order that
stays on its level therefore never waits behind an order that has come after it,
nor behind more orders or more shares than before.
-/

namespace MatchingEngine
namespace Properties

open OrderBook (BookRun PublicCalls Steps sampleEvent sampleSession sampleSession_drop
  sampleSession_split sampleRun_public)
open Reference (Order)
open Refinement
open WaitingLine (Advances)

variable {earlier later : List (Event OrderBook Operation Output)} {middle book : OrderBook}

/-- What a level shows later of an order that has stayed on it. -/
def StillWaits (after before : RestingOrder) : Prop :=
  after.id = before.id ∧ after.lifetime = before.lifetime ∧ after.quantity ≤ before.quantity

theorem StillWaits.refl (order : RestingOrder) : StillWaits order order :=
  ⟨rfl, rfl, le_rfl⟩

instance : Std.Refl StillWaits := ⟨StillWaits.refl⟩

theorem StillWaits.trans
    {after between before : RestingOrder}
    (later : StillWaits after between)
    (earlier : StillWaits between before) :
    StillWaits after before :=
  ⟨later.1.trans earlier.1, later.2.1.trans earlier.2.1, later.2.2.trans earlier.2.2⟩

/-- An order enters the book with one of the calls. -/
def EntersDuring (events : List (Event OrderBook Operation Output)) (id : OrderID) : Prop :=
  ∃ event ∈ events, event.input.entered event.output = some id

/-- The orders of a level are those of a queue, but for their prices. -/
theorem map_levelOrders
    {spec : Reference.Book}
    (refines : Refines book spec)
    (side : Side) (index : Nat) :
    ((book.levelOrders side index).map fun order =>
        (⟨order.id, spec.minPrice + index, order.quantity, order.lifetime⟩ : Order)) =
      spec.queue side (spec.minPrice + index) := by
  let priced (order : Order) : Order := { order with price := spec.minPrice + index }
  rw [← OrderBook.map_pricedOrders priced fun _ _ => rfl, refines.pricedOrders_eq]
  refine (List.map_congr_left fun order member => ?_).trans (List.map_id _)
  change priced order = order
  have price : order.price = spec.minPrice + index := (mem_queueAt.mp member).2
  simp only [priced, ← price]

/-- One call advances the list of every level. -/
theorem levelOrders_advances
    {operation : Operation} {output : Output} {next : OrderBook}
    (sane : Sane book)
    (steps : Steps PublicCalls book operation output next)
    (side : Side) (index : Nat) :
    Advances StillWaits (fun order => operation.entered output = some order.id)
      (book.levelOrders side index) (next.levelOrders side index) := by
  obtain ⟨⟨refines, _⟩, answer⟩ := sane.of_steps safeCalls_publicCalls steps
  have advances := sane.refines.valid.queue_advances
    (Reference.Book.Safe.of_positive steps.1 book.view) side (book.view.minPrice + index)
  have sameMinPrice := book.view.execute_minPrice operation
  rw [answer] at advances sameMinPrice
  rw [← map_levelOrders sane.refines, ← sameMinPrice, ← map_levelOrders refines,
    show next.view.minPrice = book.view.minPrice from sameMinPrice] at advances
  apply (WaitingLine.advances_map_iff.mp advances).mono
  · rintro after before ⟨sameId, _, sameLifetime, noLarger⟩
    exact ⟨sameId, sameLifetime, noLarger⟩
  · exact fun _ => id

theorem levelOrders_advance_along
    (run : BookRun PublicCalls earlier middle)
    (continued : Run (· = middle) (Steps PublicCalls) later book)
    (side : Side) (index : Nat) :
    Advances StillWaits (fun order => EntersDuring later order.id)
      (middle.levelOrders side index) (book.levelOrders side index) := by
  induction continued with
  | start isMiddle =>
      rw [isMiddle]
      exact .of_sublistForall₂ (List.Sublist.refl _).sublistForall₂
  | @step events before continued operation output after taken inductionHypothesis =>
      have sane := Sane.of_run safeCalls_publicCalls (run.append continued)
      have once := levelOrders_advances sane taken side index
      have joinsNow : ∀ order : RestingOrder, operation.entered output = some order.id →
          EntersDuring (events ++ [⟨before, operation, output, after⟩]) order.id :=
        fun order entered => ⟨_, List.mem_append_right _ (List.mem_singleton_self _), entered⟩
      have joinedEarlier : ∀ order : RestingOrder, EntersDuring events order.id →
          EntersDuring (events ++ [⟨before, operation, output, after⟩]) order.id :=
        fun order ⟨event, member, entered⟩ => ⟨event, List.mem_append_left _ member, entered⟩
      apply (inductionHypothesis.mono (fun _ _ => id) joinedEarlier).trans
        (once.mono (fun _ _ => id) joinsNow)
      · exact fun _ _ _ => StillWaits.trans
      · intro later earlier stays joined
        rwa [stays.1]

theorem nonneg_of_levelOrders
    (sane : Sane book)
    (side : Side) (index : Nat) :
    ∀ order ∈ book.levelOrders side index, 0 ≤ order.quantity := by
  intro order listed
  have queued := List.mem_map_of_mem listed
    (f := fun order => (⟨order.id, book.view.minPrice + index, order.quantity,
      order.lifetime⟩ : Order))
  rw [map_levelOrders sane.refines] at queued
  exact (zero_le_one' Int).trans
    (sane.refines.valid.positive side _ (mem_queueAt.mp queued).1)

/-- An order of a level that has entered with none of the last calls has been on the
level before them, with at least its quantity.  The orders ahead of it are left of
those that were ahead then, in their sequence: neither they nor their shares have
become more.  Those behind it are left of those that were behind, and the newcomers
come last. -/
theorem queue_positions
    (run : BookRun PublicCalls earlier middle)
    (continued : Run (· = middle) (Steps PublicCalls) later book)
    (side : Side) (index : Nat)
    {front back : List RestingOrder} {order : RestingOrder}
    (place : book.levelOrders side index = front ++ order :: back)
    (stayed : ¬ EntersDuring later order.id) :
    ∃ frontBefore original backBefore,
      middle.levelOrders side index = frontBefore ++ original :: backBefore ∧
      StillWaits order original ∧
      List.SublistForall₂ StillWaits front frontBefore ∧
      front.length ≤ frontBefore.length ∧
      (front.map RestingOrder.quantity).sum ≤ (frontBefore.map RestingOrder.quantity).sum ∧
      Advances StillWaits (fun other => EntersDuring later other.id) backBefore back := by
  have advances := levelOrders_advance_along run continued side index
  have nonneg := nonneg_of_levelOrders (Sane.of_run safeCalls_publicCalls run) side index
  rw [place] at advances
  obtain ⟨frontBefore, original, backBefore, placeBefore, stays, inFront, inBack⟩ :=
    advances.split stayed
  refine ⟨frontBefore, original, backBefore, placeBefore, stays, inFront, ?_, ?_, inBack⟩
  · exact WaitingLine.length_le_of_sublistForall₂ inFront
  · apply WaitingLine.sum_le_of_sublistForall₂ inFront
    · exact fun _ _ remains => remains.2.2
    · intro before ahead
      apply nonneg before
      rw [placeBefore]
      exact List.mem_append_left _ ahead

/-- A taker leaves three of the five shares that the second order waits behind. -/
theorem queue_positions_sample :
    ((sampleEvent 3).before.levelOrders .sell 4).map (fun order => (order.id, order.quantity)) =
        [(1, 5), (2, 4)] ∧
      ∃ front order back,
        (sampleEvent 5).before.levelOrders .sell 4 = front ++ order :: back ∧
        front.length = 1 ∧ order.id = 2 ∧
        ∃ frontBefore original backBefore,
          (sampleEvent 3).before.levelOrders .sell 4 = frontBefore ++ original :: backBefore ∧
          StillWaits order original ∧
          (front.map RestingOrder.quantity).sum ≤
            (frontBefore.map RestingOrder.quantity).sum := by
  have events : sampleSession.1 = sampleSession.1.take 3 ++
      sampleEvent 3 :: [sampleEvent 4] ++ sampleEvent 5 :: sampleSession.1.drop 6 := by
    calc sampleSession.1
        = sampleSession.1.take 3 ++ sampleEvent 3 :: sampleSession.1.drop 4 :=
          sampleSession_split 3
      _ = sampleSession.1.take 3 ++ sampleEvent 3 :: sampleEvent 4 :: sampleSession.1.drop 5 :=
          congrArg (fun rest => sampleSession.1.take 3 ++ sampleEvent 3 :: rest)
            (sampleSession_drop 4)
      _ = sampleSession.1.take 3 ++ sampleEvent 3 :: [sampleEvent 4] ++
          sampleEvent 5 :: sampleSession.1.drop 6 := by
        rw [List.append_assoc]
        exact congrArg
          (fun rest => sampleSession.1.take 3 ++ sampleEvent 3 :: sampleEvent 4 :: rest)
          (sampleSession_drop 5)
  have run := sampleRun_public
  rw [events] at run
  have continued := run.of_split.1
  have place : ((sampleEvent 5).before.levelOrders .sell 4).map
      (fun order => (order.id, order.quantity)) = [(1, 3), (2, 4)] := by
    decide +kernel
  obtain ⟨first, others, listed, _, atOthers⟩ := List.map_eq_cons_iff.mp place
  obtain ⟨second, none, rfl, atSecond, atNone⟩ := List.map_eq_cons_iff.mp atOthers
  obtain rfl := List.map_eq_nil_iff.mp atNone
  have second_id : second.id = 2 := (Prod.mk.inj atSecond).1
  have stayed : ¬ EntersDuring [sampleEvent 3, sampleEvent 4] second.id := by
    rintro ⟨event, member, entered⟩
    rw [second_id] at entered
    have nobody : ∀ event ∈ [sampleEvent 3, sampleEvent 4],
        event.input.entered event.output ≠ some 2 := by decide +kernel
    exact nobody event member entered
  have placed : (sampleEvent 5).before.levelOrders .sell 4 = [first] ++ second :: [] := listed
  obtain ⟨frontBefore, original, backBefore, placeBefore, stays, _, _, shares, _⟩ :=
    queue_positions continued.of_split.1 continued.continues .sell 4 placed stayed
  refine ⟨by decide +kernel, [first], second, [], listed, rfl, second_id,
    frontBefore, original, backBefore, placeBefore, stays, shares⟩

end Properties
end MatchingEngine
