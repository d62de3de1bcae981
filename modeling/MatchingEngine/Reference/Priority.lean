import MatchingEngine.Reference.Legality

/-!
# Price-time priority in the reference book

Give each resting order the time of its last entry.  Then each side is sorted by
price and, within a price, by time: a new order goes to the end of its queue, and
no other change reorders what it keeps.  A taker is therefore filled by the makers
of best price and, within a price, of earliest entry.
-/

namespace MatchingEngine
namespace Reference
namespace Book

/-! ## Price and time -/

/-- An order comes before another of its side: it has a better price, or the same price
and an earlier entry. -/
def Precedes (side : Side) (times : OrderID → Nat) (earlier later : Order) : Prop :=
  priority side earlier.price < priority side later.price ∨
    earlier.price = later.price ∧ times earlier.id < times later.id

/-- Every side is sorted by price and entry time, and the entry times are past. -/
structure Timely (times : OrderID → Nat) (now : Nat) (book : Book) : Prop where
  sorted : ∀ side, (book.orders side).Pairwise (Precedes side times)
  past : ∀ side, ∀ order ∈ book.orders side, times order.id < now

variable {book : Book} {times : OrderID → Nat} {now : Nat}

theorem Timely.later (timely : book.Timely times now) : book.Timely times (now + 1) :=
  ⟨timely.sorted, fun side order member => Nat.lt_succ_of_lt (timely.past side order member)⟩

theorem Timely.apply
    {change : Change}
    (timely : book.Timely times now)
    (valid : book.Valid)
    (legal : book.Legal change)
    (quiet : change.Quiet) :
    (book.apply change).Timely times now := by
  refine ⟨fun side => ?_, fun side order member => ?_⟩
  · -- Both parts of the relation are about ids and prices, which every change keeps.
    let key (order : Order) : OrderID × Price := (order.id, order.price)
    let keyPrecedes (earlier later : OrderID × Price) : Prop :=
      priority side earlier.2 < priority side later.2 ∨
        earlier.2 = later.2 ∧ times earlier.1 < times later.1
    have keySorted : ((book.orders side).map key).Pairwise keyPrecedes :=
      List.pairwise_map.mpr (timely.sorted side)
    have keySortedAfter : (((book.apply change).orders side).map key).Pairwise keyPrecedes :=
      keySorted.sublist (valid.apply_map_sublist key quiet legal (fun _ _ => rfl) side)
    rw [List.pairwise_map] at keySortedAfter
    exact keySortedAfter
  · rcases of_mem_apply quiet member with inOrders | ⟨original, inOrders, amount, rfl, _⟩
    · exact timely.past side order inOrders
    · exact timely.past side original inOrders

theorem Timely.rest
    (timely : book.Timely times now)
    (valid : book.Valid)
    (side : Side) {order : Order}
    (fresh : ¬ book.Contains order.id) :
    (book.rest side order).Timely (Function.update times order.id now) (now + 1) := by
  have unchanged : ∀ other, ∀ found ∈ book.orders other,
      Function.update times order.id now found.id = times found.id :=
    fun other found member => Function.update_of_ne
      (fun equal : found.id = order.id => fresh (equal ▸ contains_of_mem member)) _ _
  have sorted : ∀ other,
      (book.orders other).Pairwise (Precedes other (Function.update times order.id now)) := by
    intro other
    refine (timely.sorted other).imp_of_mem fun {earlier later} inEarlier inLater precedes => ?_
    unfold Precedes
    rwa [unchanged other earlier inEarlier, unchanged other later inLater]
  refine ⟨fun other => ?_, fun other found member => ?_⟩
  · rw [Book.rest, orders_setOrders]
    split
    · next same =>
        subst same
        refine (valid.sorted other).pairwise_enqueue (sorted other)
          (fun found member atMost => ?_) fun found member below => Or.inl below
        rcases lt_or_eq_of_le atMost with below | equal
        · exact Or.inl below
        · refine Or.inr ⟨(priority_inj other _ _).mp equal, ?_⟩
          rw [unchanged other found member, Function.update_self]
          exact timely.past other found member
    · exact sorted other
  · rcases mem_orders_rest.mp member with ⟨_, rfl⟩ | inOrders
    · rw [Function.update_self]
      exact Nat.lt_succ_self now
    · rw [unchanged other found inOrders]
      exact Nat.lt_succ_of_lt (timely.past other found inOrders)

/-- Every operation keeps the sides sorted by price and entry time. -/
theorem Timely.execute
    {operation : Operation}
    (timely : book.Timely times now)
    (valid : book.Valid)
    (safe : book.Safe operation) :
    (book.execute operation).2.Timely
      (enterAt now times (operation.entered (book.execute operation).1)) (now + 1) := by
  have allLegal := valid.allLegal safe
  have quietly : ∀ changes : List Change, AllLegal Legal book changes →
      (∀ change ∈ changes, change.Quiet) →
        (book.applyAll changes).Valid ∧ (book.applyAll changes).Timely times now :=
    fun changes legal quiet => (legal.and_forall quiet).preserves
      (fun book => book.Valid ∧ book.Timely times now)
      (fun _ _ holds legal =>
        ⟨holds.1.apply legal.1, holds.2.apply holds.1 legal.1 legal.2⟩) ⟨valid, timely⟩
  rw [(book.execute_changes operation).1]
  have entersLast := book.entersLast_changes operation
  generalize book.changes operation = changes at allLegal entersLast ⊢
  generalize operation.entered (book.execute operation).1 = entered at entersLast ⊢
  cases entersLast with
  | nothing quiet => exact (quietly changes allLegal quiet).2.later
  | @rest changes quiet side order =>
      obtain ⟨legalQuiet, ⟨fresh, _⟩, _⟩ := allLegal.of_append
      obtain ⟨validBefore, timelyBefore⟩ := quietly changes legalQuiet quiet
      rw [applyAll_append]
      exact timelyBefore.rest validBefore side fresh

/-! ## Executions -/

/-- Whenever a maker is filled, it precedes every other order that then rests on its
side: one of which the executions so far have left something. -/
def ServedInOrder
    (times : OrderID → Nat) (book : Book) (executions : List ExecutionResult) : Prop :=
  ∀ served execution unserved, executions = served ++ execution :: unserved →
    ∃ side, ∃ maker ∈ book.orders side,
      maker.id = execution.makerOrderID ∧ maker.price = execution.makerPrice ∧
      ∀ other ∈ book.orders side, other ≠ maker →
        executedAgainst other.id served < other.quantity →
          Precedes side times maker other

/-- The makers of every operation are served by price and entry time. -/
theorem Timely.servedInOrder
    (timely : book.Timely times now)
    (valid : book.Valid)
    (operation : Operation) :
    book.ServedInOrder times (book.execute operation).1.executions := by
  intro served report unserved split
  rcases valid.distinct.executions_execute operation with
    nothing | ⟨makerSide, takes, quantity, downward, executions⟩
  · simp [nothing] at split
  rw [executions] at split
  obtain ⟨front, atReport, takenSplit, rfl, rest⟩ := List.map_eq_append_iff.mp split
  obtain ⟨entry, back, rfl, rfl, _⟩ := List.map_eq_cons_iff.mp rest
  obtain ⟨before, after, accepted, usedUp⟩ :=
    (divides_matching book makerSide takes quantity).of_taken takenSplit
  have orders : book.orders makerSide = before ++ entry.1 :: (after ++
      (book.orders makerSide).filter fun order => !takes order.price) := by
    conv => lhs; rw [← valid.partition downward, accepted]
    simp
  have positive : ∀ order ∈ before, 1 ≤ order.quantity := fun order member =>
    valid.positive makerSide order (by rw [orders]; exact List.mem_append_left _ member)
  have sorted := timely.sorted makerSide
  rw [orders] at sorted
  obtain ⟨_, sortedRest, _⟩ := List.pairwise_append.mp sorted
  refine ⟨makerSide, entry.1, by rw [orders]; simp, rfl, rfl,
    fun other member different rests => ?_⟩
  rw [orders] at member
  rcases List.mem_append.mp member with inFront | later
  · -- The makers in front of this one have been used up.
    have usedUpFirst : (execution (other, other.quantity)).executedQuantity ≤
        executedAgainst (execution (other, other.quantity)).makerOrderID
          (front.map execution) := by
      rw [usedUp, List.map_map]
      refine le_executedAgainst (fun report member => ?_)
        (List.mem_map.mpr ⟨other, inFront, rfl⟩)
      obtain ⟨order, inBefore, rfl⟩ := List.mem_map.mp member
      exact (zero_le_one' Int).trans (positive order inBefore)
    exact absurd rests usedUpFirst.not_gt
  · rcases List.mem_cons.mp later with rfl | behind
    · exact absurd rfl different
    · exact (List.pairwise_cons.mp sortedRest).1 other behind

/-! ## Survivors -/

/-- Every operation keeps the relative order of the orders that remain, and leaves
their prices alone. -/
theorem Valid.survivors_sublist
    {operation : Operation}
    (valid : book.Valid)
    (safe : book.Safe operation)
    (side : Side) :
    ((((book.execute operation).2.orders side).filter fun order =>
        operation.entered (book.execute operation).1 ≠ some order.id).map
      fun order => (order.id, order.price)).Sublist
      ((book.orders side).map fun order => (order.id, order.price)) := by
  have allLegal := valid.allLegal safe
  have entersLast := book.entersLast_changes operation
  rw [(book.execute_changes operation).1]
  generalize book.changes operation = changes at allLegal entersLast ⊢
  generalize operation.entered (book.execute operation).1 = entered at entersLast ⊢
  cases entersLast with
  | nothing quiet =>
      exact (List.filter_sublist.map _).trans
        (valid.applyAll_map_sublist _ allLegal quiet (fun _ _ => rfl) side)
  | @rest changes quiet newSide new =>
      obtain ⟨legalQuiet, _⟩ := allLegal.of_append
      have before := valid.applyAll_map_sublist (fun order => (order.id, order.price))
        legalQuiet quiet (fun _ _ => rfl) side
      have undone : (((book.applyAll (changes ++ [.rest newSide new])).orders side).filter
          fun order => some new.id ≠ some order.id) =
            ((book.applyAll changes).orders side).filter
              fun order => some new.id ≠ some order.id := by
        rw [applyAll_append]
        change List.filter _ (((book.applyAll changes).rest newSide new).orders side) = _
        rw [Book.rest, orders_setOrders]
        split
        · next same =>
            subst same
            exact KeyedList.filter_enqueue_of_drop (by simp) _
        · rfl
      rw [undone]
      exact (List.filter_sublist.map _).trans before

/-- The ids of a queue, from the ids and prices of its side. -/
theorem map_id_queue (book : Book) (side : Side) (price : Price) :
    (book.queue side price).map Order.id =
      (((book.orders side).map fun order => (order.id, order.price)).filter
        fun key => key.2 = price).map Prod.fst := by
  simp only [queue, KeyedList.bucket, orderPriority, priority_inj, List.filter_map,
    List.map_map]
  rfl

/-- Every operation keeps the relative order of the orders that remain in a queue. -/
theorem Valid.queue_survivors
    {operation : Operation}
    (valid : book.Valid)
    (safe : book.Safe operation)
    (side : Side) (price : Price) :
    ((((book.execute operation).2.queue side price).map Order.id).filter fun id =>
        operation.entered (book.execute operation).1 ≠ some id).Sublist
      ((book.queue side price).map Order.id) := by
  have survivors := ((valid.survivors_sublist safe side).filter
    fun key => key.2 = price).map Prod.fst
  rw [map_id_queue, map_id_queue]
  simp only [List.filter_map, List.filter_filter] at survivors ⊢
  simp only [Function.comp_def, Bool.and_comm] at survivors ⊢
  exact survivors

end Book
end Reference
end MatchingEngine
