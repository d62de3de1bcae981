import MatchingEngine.Library.WaitingLine
import MatchingEngine.Reference.Priority

/-!
# Positions in the queues of the reference book

Each queue of the book is a waiting line.  A change that queues nothing leaves of
every side some of its orders, in their sequence and no larger than they were; a
queued order goes to the end of its line.  Hence every operation advances every
queue.
-/

namespace MatchingEngine
namespace Reference

open WaitingLine (Advances)

/-- What a later book shows of an order that has stayed in its queue. -/
def Order.Remains (after before : Order) : Prop :=
  after.id = before.id ∧ after.price = before.price ∧ after.lifetime = before.lifetime ∧
    after.quantity ≤ before.quantity

theorem Order.Remains.refl (order : Order) : order.Remains order :=
  ⟨rfl, rfl, rfl, le_rfl⟩

instance : Std.Refl Order.Remains := ⟨Order.Remains.refl⟩

theorem Order.Remains.trans
    {after between before : Order}
    (later : after.Remains between)
    (earlier : between.Remains before) :
    after.Remains before :=
  ⟨later.1.trans earlier.1, later.2.1.trans earlier.2.1, later.2.2.1.trans earlier.2.2.1,
    later.2.2.2.trans earlier.2.2.2⟩

theorem Order.remains_reduce
    {amount : Quantity}
    (nonneg : 0 ≤ amount)
    (order : Order) :
    (order.reduce amount).Remains order :=
  ⟨rfl, rfl, rfl, Int.sub_le_self _ nonneg⟩

instance : IsTrans Order Order.Remains := ⟨fun _ _ _ => Order.Remains.trans⟩

/-- The change takes no negative amount from an order. -/
def Change.Lessens : Change → Prop
  | .reduce _ amount => 0 ≤ amount
  | _ => True

namespace Book

variable {book : Book}

/-- A fill leaves some of the offers, in their sequence and no larger. -/
theorem remains_matching (book : Book) (side : Side) (takes : Price → Bool)
    (quantity : Quantity) :
    List.SublistForall₂ Order.Remains (book.matching side takes quantity).rest
      ((book.orders side).filter fun order => takes order.price) := by
  have divides := divides_matching book side takes quantity
  generalize book.matching side takes quantity = outcome at divides
  generalize (book.orders side).filter (fun order => takes order.price) = offers at divides
  cases divides with
  | whole used untouched => exact (List.sublist_append_right used untouched).sublistForall₂
  | partly used original amount untouched positive _ =>
      have reduced : List.SublistForall₂ Order.Remains (original.reduce amount :: untouched)
          (original :: untouched) :=
        .cons (original.remains_reduce positive.le) (List.Sublist.refl _).sublistForall₂
      exact WaitingLine.sublistForall₂_append .nil reduced

/-- Changes that queue nothing leave some of the orders of a side, in their sequence and
no larger. -/
theorem Valid.remains_apply
    {change : Change}
    (valid : book.Valid)
    (quiet : change.Quiet)
    (legal : book.Legal change)
    (lessens : change.Lessens)
    (side : Side) :
    List.SublistForall₂ Order.Remains ((book.apply change).orders side) (book.orders side) := by
  cases change with
  | take makerSide takes quantity =>
      rw [Book.apply, orders_afterMatching]
      split
      · next same =>
          subst same
          conv => rhs; rw [← valid.partition legal]
          exact WaitingLine.sublistForall₂_append (book.remains_matching side takes quantity)
            (List.Sublist.refl _).sublistForall₂
      · exact (List.Sublist.refl _).sublistForall₂
  | rest => exact quiet.elim
  | remove id =>
      rw [Book.apply, orders_remove]
      exact List.filter_sublist.sublistForall₂
  | reduce id amount =>
      rw [Book.apply, orders_reduce, List.sublistForall₂_map_left_iff, List.sublistForall₂_iff]
      refine ⟨book.orders side, List.forall₂_same.mpr fun order _ => ?_, List.Sublist.refl _⟩
      split
      · exact order.remains_reduce lessens
      · exact .refl order
  | prune =>
      rw [Book.apply, orders_prune]
      exact List.filter_sublist.sublistForall₂

theorem Valid.remains_queue
    {change : Change}
    (valid : book.Valid)
    (quiet : change.Quiet)
    (legal : book.Legal change)
    (lessens : change.Lessens)
    (side : Side) (price : Price) :
    List.SublistForall₂ Order.Remains ((book.apply change).queue side price)
      (book.queue side price) := by
  apply WaitingLine.sublistForall₂_filter (valid.remains_apply quiet legal lessens side)
  intro after before remains
  rw [decide_eq_decide, orderPriority, orderPriority, remains.2.1]

theorem lessens_limitChanges (book : Book) (request : LimitOrderRequest) :
    ∀ change ∈ book.limitChanges request, change.Lessens := by
  have lessens : (Change.take request.side.opposite (accepts request.side request.price)
      request.quantity).Lessens := trivial
  have restLessens : ∀ order, (Change.rest request.side order).Lessens := fun _ => trivial
  unfold limitChanges
  by_cases rejected : book.Rejects request
  · simp [rejected]
  simp only [rejected, if_false]
  cases request.tif with
  | gtc | day =>
      change ∀ change ∈ (if book.remainder request = 0 then _ else _), Change.Lessens change
      split <;> simp [lessens, restLessens]
  | ioc => simp [lessens]
  | fok =>
      change ∀ change ∈ (if book.remainder request = 0 then _ else _), Change.Lessens change
      split <;> simp [lessens]

/-- Calls with quantities that make sense lessen the orders that they leave. -/
theorem lessens_changes
    {operation : Operation}
    (safe : book.Safe operation) :
    ∀ change ∈ book.changes operation, change.Lessens := by
  have removeLessens : ∀ id, (Change.remove id).Lessens := fun _ => trivial
  have restLessens : ∀ side order, (Change.rest side order).Lessens := fun _ _ => trivial
  cases operation with
  | submitLimitOrder limitRequest => exact book.lessens_limitChanges limitRequest
  | submitMarketOrder marketRequest =>
      simp only [changes]
      split
      · simp
      · exact List.forall_mem_singleton.mpr trivial
  | cancelOrder cancelRequest =>
      simp only [changes]
      split <;> simp [removeLessens]
  | modifyOrder modificationRequest =>
      simp only [changes]
      split
      · simp
      split
      · simp
      refine List.forall_mem_cons.mpr ⟨trivial, ?_⟩
      split
      · exact lessens_limitChanges _ _
      · simp
  | onSessionEnd => exact List.forall_mem_singleton.mpr trivial
  | replayAddVisibleOrder orderId price quantity side =>
      simp only [changes]
      split <;> simp [restLessens]
  | replayDeleteVisibleOrder orderId =>
      simp only [changes]
      split <;> simp [removeLessens]
  | replayReduceVisibleOrder orderId quantityReduced =>
      have reduceLessens : (Change.reduce orderId quantityReduced).Lessens := safe
      simp only [changes]
      repeat' split
      all_goals simp [removeLessens, reduceLessens]
  | replayReplaceVisibleOrder originalId newId newPrice newQuantity =>
      simp only [changes]
      repeat' split
      all_goals simp [removeLessens, restLessens]

/-- Every operation advances every queue: an order that it enters is the only
newcomer. -/
theorem Valid.queue_advances
    {operation : Operation}
    (valid : book.Valid)
    (safe : book.Safe operation)
    (side : Side) (price : Price) :
    Advances Order.Remains
      (fun order => operation.entered (book.execute operation).1 = some order.id)
      (book.queue side price) ((book.execute operation).2.queue side price) := by
  have quietly : ∀ changes : List Change, AllLegal Legal book changes →
      (∀ change ∈ changes, change.Quiet ∧ change.Lessens) →
        (book.applyAll changes).Valid ∧
          List.SublistForall₂ Order.Remains ((book.applyAll changes).queue side price)
            (book.queue side price) := by
    intro changes legal kinds
    refine (legal.and_forall kinds).preserves
      (fun changed => changed.Valid ∧ List.SublistForall₂ Order.Remains
        (changed.queue side price) (book.queue side price))
      (fun changed change holds legal => ⟨holds.1.apply legal.1, ?_⟩)
      ⟨valid, (List.Sublist.refl _).sublistForall₂⟩
    have once := holds.1.remains_queue legal.2.1 legal.1 legal.2.2 side price
    exact List.SublistForall₂.is_trans.trans _ _ _ once holds.2
  have allLegal := valid.allLegal safe
  have lessens := lessens_changes safe
  have entersLast := book.entersLast_changes operation
  rw [(book.execute_changes operation).1]
  generalize book.changes operation = changes at allLegal lessens entersLast ⊢
  generalize operation.entered (book.execute operation).1 = entered at entersLast ⊢
  cases entersLast with
  | nothing quiet =>
      apply Advances.of_sublistForall₂
      exact (quietly changes allLegal fun change member =>
        ⟨quiet change member, lessens change member⟩).2
  | @rest changes quiet newSide new =>
      obtain ⟨legalQuiet, _⟩ := allLegal.of_append
      obtain ⟨validBefore, remains⟩ := quietly changes legalQuiet fun change member =>
        ⟨quiet change member, lessens change (List.mem_append_left _ member)⟩
      rw [applyAll_append]
      change Advances _ _ _ (((book.applyAll changes).rest newSide new).queue side price)
      rw [validBefore.queue_rest]
      refine (Advances.of_sublistForall₂ remains).append fun newcomer member => ?_
      split at member
      · rw [List.mem_singleton.mp member]
      · exact absurd member List.not_mem_nil

end Book
end Reference
end MatchingEngine
