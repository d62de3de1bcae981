import MatchingEngine.Reference.Book

/-!
# Changes of the reference book

Makers are taken, an order is queued, removed or reduced, or the DAY orders are
pruned.  What each change keeps is shown here once, and what every change of a
sequence keeps, the sequence keeps, so that an invariant of the operations needs
one argument for each kind of change and none for each operation.
-/

namespace MatchingEngine
namespace Reference

/-- A taker accepts, with a price, every better one. -/
def Downward (side : Side) (takes : Price → Bool) : Prop :=
  ∀ near far, priority side near ≤ priority side far → takes far = true → takes near = true

theorem downward_accepts (side : Side) (limit : Price) :
    Downward side.opposite (Book.accepts side limit) := by
  intro near far nearer accepted
  rw [Book.accepts_iff] at accepted ⊢
  exact nearer.trans accepted

theorem downward_all (side : Side) : Downward side fun _ => true :=
  fun _ _ _ _ => rfl

/-- An elementary change of a book. -/
inductive Change
  | take (makerSide : Side) (takes : Price → Bool) (quantity : Quantity)
  | rest (side : Side) (order : Order)
  | remove (id : OrderID)
  | reduce (id : OrderID) (amount : Quantity)
  | prune

/-- The change queues no order. -/
def Change.Quiet : Change → Prop
  | .rest .. => False
  | _ => True

namespace Book

/-- Make a change. -/
def apply (book : Book) : Change → Book
  | .take makerSide takes quantity => book.afterMatching makerSide takes quantity
  | .rest side order => book.rest side order
  | .remove id => book.remove id
  | .reduce id amount => book.reduce id amount
  | .prune => book.prune

/-- The executions that a change reports. -/
def executed (book : Book) : Change → List ExecutionResult
  | .take makerSide takes quantity =>
      (book.matching makerSide takes quantity).taken.map execution
  | _ => []

/-- When a change makes sense in a book. -/
def Legal (book : Book) : Change → Prop
  | .take makerSide takes _ => Downward makerSide takes
  | .rest _ order =>
      ¬ book.Contains order.id ∧ 1 ≤ order.quantity ∧
        book.minPrice ≤ order.price ∧ order.price ≤ book.maxPrice
  | .remove _ => True
  | .reduce id amount =>
      ∀ side, ∀ order ∈ book.orders side, order.id = id → amount < order.quantity
  | .prune => True

/-- A queued order does not cross the other side. -/
def Passive (book : Book) : Change → Prop
  | .rest side order =>
      ∀ other ∈ book.orders side.opposite, accepts side order.price other.price = false
  | _ => True

/-- What holds of every book that legal changes lead to. -/
structure Valid (book : Book) : Prop where
  sorted : ∀ side, KeyedList.Ordered (orderPriority side) (book.orders side)
  distinct : book.Distinct
  positive : ∀ side, ∀ order ∈ book.orders side, 1 ≤ order.quantity
  inRange : ∀ side, ∀ order ∈ book.orders side,
    book.minPrice ≤ order.price ∧ order.price ≤ book.maxPrice

theorem Valid.of_empty {book : Book} (bids : book.bids = []) (asks : book.asks = []) :
    book.Valid := by
  have empty : ∀ side, book.orders side = [] := by
    rintro (side | side)
    · exact bids
    · exact asks
  refine ⟨fun side => ?_, ?_, fun side => ?_, fun side => ?_⟩
  · rw [empty side]
    exact KeyedList.ordered_nil
  · simp [Distinct, bids, asks]
  · simp [empty side]
  · simp [empty side]

@[simp] theorem apply_minPrice (book : Book) (change : Change) :
    (book.apply change).minPrice = book.minPrice := by
  cases change <;> simp [apply, afterMatching, rest, remove, reduce, prune]

@[simp] theorem apply_maxPrice (book : Book) (change : Change) :
    (book.apply change).maxPrice = book.maxPrice := by
  cases change <;> simp [apply, afterMatching, rest, remove, reduce, prune]

/-! ## Taking -/

section Taking

variable {book : Book} {side : Side} {takes : Price → Bool} {quantity : Quantity}

/-- The makers that a taker accepts come first on their side. -/
theorem Valid.partition
    (valid : book.Valid)
    (downward : Downward side takes) :
    (book.orders side).filter (fun order => takes order.price) ++
      (book.orders side).filter (fun order => !takes order.price) = book.orders side :=
  (valid.sorted side).partition fun near _ far _ => downward near.price far.price

theorem orders_afterMatching (other : Side) :
    (book.afterMatching side takes quantity).orders other =
      if other = side then
        (book.matching side takes quantity).rest ++
          (book.orders side).filter fun order => !takes order.price
      else book.orders other :=
  orders_setOrders ..

/-- How a matching divides the side of the makers. -/
theorem divides_matching (book : Book) (side : Side) (takes : Price → Bool)
    (quantity : Quantity) :
    Fill.Divides Order.quantity Order.reduce
      ((book.orders side).filter fun order => takes order.price)
      (book.matching side takes quantity) :=
  Fill.fill_divides _ _

/-- Taking keeps, of the resting orders in their sequence, whatever a reduction
keeps. -/
theorem Valid.afterMatching_map_sublist
    {β : Type*} (feature : Order → β)
    (valid : book.Valid)
    (downward : Downward side takes)
    (kept : ∀ order amount, feature (order.reduce amount) = feature order)
    (quantity : Quantity) (other : Side) :
    (((book.afterMatching side takes quantity).orders other).map feature).Sublist
      ((book.orders other).map feature) := by
  rw [orders_afterMatching]
  by_cases same : other = side
  · subst same
    rw [if_pos rfl, List.map_append]
    conv => rhs; rw [← valid.partition downward, List.map_append]
    exact ((divides_matching book other takes quantity).rest_map_sublist kept).append_right _
  · rw [if_neg same]

/-- Orders that taking leaves are resting ones with the same or a smaller quantity. -/
theorem of_mem_afterMatching
    {order : Order} {other : Side}
    (member : order ∈ (book.afterMatching side takes quantity).orders other) :
    order ∈ book.orders other ∨
      ∃ original ∈ book.orders other, ∃ amount, 0 < amount ∧ amount < original.quantity ∧
        order = original.reduce amount := by
  rw [orders_afterMatching] at member
  split at member
  · next same =>
      subst same
      rcases List.mem_append.mp member with inRest | notTaken
      · have divides := divides_matching book other takes quantity
        have accepted : ∀ found ∈ (book.orders other).filter (fun order => takes order.price),
            found ∈ book.orders other := fun found => List.mem_of_mem_filter
        generalize book.matching other takes quantity = outcome at divides inRest
        generalize (book.orders other).filter (fun order => takes order.price) = offers
          at divides accepted
        cases divides with
        | whole used untouched =>
            exact Or.inl (accepted order (List.mem_append_right _ inRest))
        | partly used original amount untouched positive below =>
            rcases List.mem_cons.mp inRest with rfl | later
            · exact Or.inr ⟨original, accepted original (by simp), amount, positive, below, rfl⟩
            · exact Or.inl (accepted order (by simp [later]))
      · exact Or.inl (List.mem_of_mem_filter notTaken)
  · exact Or.inl member

theorem contains_of_afterMatching
    {id : OrderID}
    (present : (book.afterMatching side takes quantity).Contains id) :
    book.Contains id := by
  obtain ⟨other, order, member, rfl⟩ := contains_iff.mp present
  rcases of_mem_afterMatching member with inOrders | ⟨original, inOrders, amount, _, _, rfl⟩
  · exact contains_of_mem inOrders
  · exact contains_iff.mpr ⟨other, original, inOrders, rfl⟩

/-- What a taker gets is at most what it asks for. -/
theorem Valid.total_le
    (valid : book.Valid)
    (nonneg : 0 ≤ quantity) :
    (book.matching side takes quantity).total ≤ quantity := by
  unfold matching
  rw [Fill.total_fill fun order member =>
    valid.positive side order (List.mem_of_mem_filter member)]
  lia

/-- A taker that is not filled leaves no maker that it accepts. -/
theorem Valid.none_accepted
    (valid : book.Valid)
    (unfilled : (book.matching side takes quantity).total < quantity) :
    ∀ order ∈ (book.afterMatching side takes quantity).orders side,
      takes order.price = false := by
  have nothingLeft : (book.matching side takes quantity).rest = [] :=
    Fill.rest_eq_nil_of_total_lt
      (fun order member => valid.positive side order (List.mem_of_mem_filter member)) unfilled
  intro order member
  rw [orders_afterMatching, if_pos rfl, nothingLeft, List.nil_append] at member
  simpa using (List.mem_filter.mp member).2

section FirstMaker

variable {head : Order} {tail : List Order}

theorem accepted_cons
    (makers : book.orders side = head :: tail)
    (accepted : takes head.price = true) :
    (book.orders side).filter (fun order => takes order.price) =
        head :: tail.filter (fun order => takes order.price) ∧
      (book.orders side).filter (fun order => !takes order.price) =
        tail.filter fun order => !takes order.price := by
  rw [makers]
  exact ⟨List.filter_cons_of_pos accepted, List.filter_cons_of_neg (by simp [accepted])⟩

/-- The first maker outlasts the taker. -/
theorem matching_of_outlasting
    (makers : book.orders side = head :: tail)
    (accepted : takes head.price = true)
    (wanted : 0 < quantity)
    (outlasts : quantity < head.quantity) :
    book.matching side takes quantity =
      ⟨[(head, quantity)],
        head.reduce quantity :: tail.filter fun order => takes order.price⟩ := by
  rw [matching, (accepted_cons makers accepted).1]
  exact Fill.fill_cons_of_lt wanted outlasts _

theorem Valid.afterMatching_of_outlasting
    (valid : book.Valid)
    (downward : Downward side takes)
    (makers : book.orders side = head :: tail)
    (accepted : takes head.price = true)
    (wanted : 0 < quantity)
    (outlasts : quantity < head.quantity) :
    book.afterMatching side takes quantity =
      book.setOrders side (head.reduce quantity :: tail) := by
  have tailSorted := (valid.sorted side).sublist (makers ▸ List.sublist_cons_self head tail)
  rw [afterMatching, matching_of_outlasting makers accepted wanted outlasts,
    (accepted_cons makers accepted).2, List.cons_append,
    tailSorted.partition fun near _ far _ => downward near.price far.price]

/-- The first maker is used up, and the others fill what is left. -/
theorem matching_of_usedUp
    (makers : book.orders side = head :: tail)
    (accepted : takes head.price = true)
    (wanted : 0 < quantity)
    (usedUp : head.quantity ≤ quantity) :
    book.matching side takes quantity =
      ⟨(head, head.quantity) :: ((book.setOrders side tail).matching side takes
          (quantity - head.quantity)).taken,
        ((book.setOrders side tail).matching side takes
          (quantity - head.quantity)).rest⟩ := by
  rw [matching, matching, (accepted_cons makers accepted).1, orders_setOrders_self]
  exact Fill.fill_cons_of_le wanted usedUp _

theorem afterMatching_of_usedUp
    (makers : book.orders side = head :: tail)
    (accepted : takes head.price = true)
    (wanted : 0 < quantity)
    (usedUp : head.quantity ≤ quantity) :
    book.afterMatching side takes quantity =
      (book.setOrders side tail).afterMatching side takes (quantity - head.quantity) := by
  rw [afterMatching, afterMatching, matching_of_usedUp makers accepted wanted usedUp,
    (accepted_cons makers accepted).2, setOrders_setOrders, orders_setOrders_self]

end FirstMaker

end Taking

/-! ## Any change -/

section Changes

variable {book : Book} {change : Change}

/-- Changes other than queueing keep, of the resting orders in their sequence,
whatever a reduction keeps. -/
theorem Valid.apply_map_sublist
    {β : Type*} (feature : Order → β)
    (valid : book.Valid)
    (quiet : change.Quiet)
    (legal : book.Legal change)
    (kept : ∀ order amount, feature (order.reduce amount) = feature order)
    (side : Side) :
    (((book.apply change).orders side).map feature).Sublist
      ((book.orders side).map feature) := by
  cases change with
  | take makerSide takes quantity =>
      exact valid.afterMatching_map_sublist feature legal kept quantity side
  | rest => exact quiet.elim
  | remove id =>
      rw [apply, orders_remove]
      exact List.filter_sublist.map feature
  | reduce id amount =>
      have same : ∀ order ∈ book.orders side,
          (feature ∘ fun order => if order.id = id then order.reduce amount else order) order =
            feature order := by
        intro order _
        simp only [Function.comp_apply]
        split
        · exact kept order amount
        · rfl
      rw [apply, orders_reduce, List.map_map, List.map_congr_left same]
  | prune =>
      rw [apply, orders_prune]
      exact List.filter_sublist.map feature

/-- Where an order of the changed book comes from. -/
theorem of_mem_apply
    (quiet : change.Quiet)
    {side : Side} {order : Order}
    (member : order ∈ (book.apply change).orders side) :
    order ∈ book.orders side ∨
      ∃ original ∈ book.orders side, ∃ amount, order = original.reduce amount ∧
        (book.Legal change → amount < original.quantity) := by
  cases change with
  | take makerSide takes quantity =>
      rcases of_mem_afterMatching member with
        inOrders | ⟨original, inOrders, amount, _, below, rfl⟩
      · exact Or.inl inOrders
      · exact Or.inr ⟨original, inOrders, amount, rfl, fun _ => below⟩
  | rest => exact quiet.elim
  | remove id =>
      rw [apply, orders_remove] at member
      exact Or.inl (List.mem_of_mem_filter member)
  | reduce id amount =>
      rw [apply, orders_reduce] at member
      obtain ⟨original, inOrders, rfl⟩ := List.mem_map.mp member
      by_cases same : original.id = id
      · rw [if_pos same]
        exact Or.inr ⟨original, inOrders, amount, rfl,
          fun legal => legal side original inOrders same⟩
      · rw [if_neg same]
        exact Or.inl inOrders
  | prune =>
      rw [apply, orders_prune] at member
      exact Or.inl (List.mem_of_mem_filter member)

theorem mem_orders_rest
    {side other : Side} {order found : Order} :
    found ∈ (book.rest side order).orders other ↔
      (other = side ∧ found = order) ∨ found ∈ book.orders other := by
  rw [rest, orders_setOrders]
  by_cases same : other = side
  · subst same
    simp
  · simp [same]

/-- Legal changes lead from valid books to valid books. -/
theorem Valid.apply
    (valid : book.Valid)
    (legal : book.Legal change) :
    (book.apply change).Valid := by
  by_cases quiet : change.Quiet
  case neg =>
    cases change with
    | rest side order =>
        obtain ⟨fresh, positive, lower, upper⟩ := legal
        refine ⟨fun other => ?_, ?_, fun other found member => ?_, fun other found member => ?_⟩
        · rw [Book.apply, rest, orders_setOrders]
          split
          · next same => exact same ▸ (valid.sorted side).enqueue order
          · exact valid.sorted other
        · refine (((perm_rest book side order).map Order.id).nodup_iff).mpr ?_
          rw [List.map_cons, List.nodup_cons]
          exact ⟨fun inBook => fresh (List.mem_map.mp inBook), valid.distinct⟩
        · rcases mem_orders_rest.mp member with ⟨_, rfl⟩ | inOrders
          · exact positive
          · exact valid.positive other found inOrders
        · rw [apply_minPrice, apply_maxPrice]
          rcases mem_orders_rest.mp member with ⟨_, rfl⟩ | inOrders
          · exact ⟨lower, upper⟩
          · exact valid.inRange other found inOrders
    | _ => exact absurd trivial quiet
  have keeps := fun {β : Type} (feature : Order → β) =>
    valid.apply_map_sublist feature quiet legal
  refine ⟨fun side => ?_, ?_, fun side order member => ?_, fun side order member => ?_⟩
  · exact List.pairwise_map.mp ((List.pairwise_map.mpr (valid.sorted side)).sublist
      (keeps (orderPriority side) (fun _ _ => rfl) side))
  · have distinct := valid.distinct
    unfold Distinct at distinct ⊢
    rw [List.map_append] at distinct ⊢
    exact distinct.sublist
      ((keeps Order.id (fun _ _ => rfl) .buy).append (keeps Order.id (fun _ _ => rfl) .sell))
  · rcases of_mem_apply quiet member with inOrders | ⟨original, _, amount, rfl, below⟩
    · exact valid.positive side order inOrders
    · exact Int.sub_pos_of_lt (below legal)
  · rw [apply_minPrice, apply_maxPrice]
    rcases of_mem_apply quiet member with inOrders | ⟨original, inOrders, amount, rfl, _⟩
    · exact valid.inRange side order inOrders
    · exact valid.inRange side original inOrders

/-- A new order goes to the end of its own queue. -/
theorem Valid.queue_rest
    (valid : book.Valid)
    (side : Side) (order : Order) (otherSide : Side) (price : Price) :
    (book.rest side order).queue otherSide price =
      book.queue otherSide price ++
        if side = otherSide ∧ order.price = price then [order] else [] := by
  rw [queue, rest, orders_setOrders]
  by_cases sameSide : otherSide = side
  · subst sameSide
    by_cases samePrice : order.price = price
    · subst samePrice
      rw [if_pos rfl, if_pos ⟨rfl, rfl⟩]
      exact KeyedList.bucket_enqueue_self (valid.sorted otherSide) order
    · have different : orderPriority otherSide order ≠ priority otherSide price :=
        (priority_inj ..).not.mpr samePrice
      rw [if_pos rfl, if_neg fun here => samePrice here.2, List.append_nil]
      exact KeyedList.bucket_enqueue_of_ne different _
  · rw [if_neg sameSide, if_neg fun here => sameSide here.1.symm, List.append_nil]
    rfl

end Changes

/-! ## Sequences of changes -/

/-- Make changes one after another. -/
def applyAll (book : Book) (changes : List Change) : Book :=
  changes.foldl apply book

@[simp] theorem applyAll_nil (book : Book) : book.applyAll [] = book := rfl

@[simp] theorem applyAll_cons (book : Book) (change : Change) (changes : List Change) :
    book.applyAll (change :: changes) = (book.apply change).applyAll changes := rfl

/-- Every change has a property in the book that it changes. -/
def AllLegal (legal : Book → Change → Prop) : Book → List Change → Prop
  | _, [] => True
  | book, change :: changes =>
      legal book change ∧ AllLegal legal (book.apply change) changes

/-- What every change of a kind preserves, a sequence of them preserves. -/
theorem AllLegal.preserves
    {legal : Book → Change → Prop} {book : Book} {changes : List Change}
    (allLegal : AllLegal legal book changes)
    (property : Book → Prop)
    (preserved : ∀ book change, property book → legal book change →
      property (book.apply change))
    (holds : property book) :
    property (book.applyAll changes) := by
  induction changes generalizing book with
  | nil => exact holds
  | cons change changes inductionHypothesis =>
      obtain ⟨legalFirst, legalLater⟩ := allLegal
      exact inductionHypothesis legalLater (preserved book change holds legalFirst)

theorem AllLegal.mono
    {legal weaker : Book → Change → Prop} {book : Book} {changes : List Change}
    (allLegal : AllLegal legal book changes)
    (weaken : ∀ book change, legal book change → weaker book change) :
    AllLegal weaker book changes := by
  induction changes generalizing book with
  | nil => trivial
  | cons change changes inductionHypothesis =>
      exact ⟨weaken book change allLegal.1, inductionHypothesis allLegal.2⟩

theorem applyAll_append (book : Book) (first second : List Change) :
    book.applyAll (first ++ second) = (book.applyAll first).applyAll second :=
  List.foldl_append

@[simp] theorem applyAll_minPrice (book : Book) (changes : List Change) :
    (book.applyAll changes).minPrice = book.minPrice := by
  induction changes generalizing book with
  | nil => rfl
  | cons change changes inductionHypothesis =>
      rw [applyAll_cons, inductionHypothesis, apply_minPrice]

@[simp] theorem applyAll_maxPrice (book : Book) (changes : List Change) :
    (book.applyAll changes).maxPrice = book.maxPrice := by
  induction changes generalizing book with
  | nil => rfl
  | cons change changes inductionHypothesis =>
      rw [applyAll_cons, inductionHypothesis, apply_maxPrice]

theorem AllLegal.of_append
    {legal : Book → Change → Prop} {book : Book} {first second : List Change}
    (allLegal : AllLegal legal book (first ++ second)) :
    AllLegal legal book first ∧ AllLegal legal (book.applyAll first) second := by
  induction first generalizing book with
  | nil => exact ⟨trivial, allLegal⟩
  | cons change first inductionHypothesis =>
      obtain ⟨legalFirst, legalLater⟩ := allLegal
      obtain ⟨legalRest, legalSecond⟩ := inductionHypothesis legalLater
      exact ⟨⟨legalFirst, legalRest⟩, legalSecond⟩

theorem AllLegal.and_forall
    {legal : Book → Change → Prop} {kind : Change → Prop} {book : Book}
    {changes : List Change}
    (allLegal : AllLegal legal book changes)
    (ofKind : ∀ change ∈ changes, kind change) :
    AllLegal (fun book change => legal book change ∧ kind change) book changes := by
  induction changes generalizing book with
  | nil => trivial
  | cons change changes inductionHypothesis =>
      obtain ⟨kindFirst, kindLater⟩ := List.forall_mem_cons.mp ofKind
      exact ⟨⟨allLegal.1, kindFirst⟩, inductionHypothesis allLegal.2 kindLater⟩

/-- Changes that queue nothing keep the relative order of the orders that remain. -/
theorem Valid.applyAll_map_sublist
    {β : Type*} (feature : Order → β)
    {book : Book} {changes : List Change}
    (valid : book.Valid)
    (allLegal : AllLegal Legal book changes)
    (quiet : ∀ change ∈ changes, change.Quiet)
    (kept : ∀ order amount, feature (order.reduce amount) = feature order)
    (side : Side) :
    (((book.applyAll changes).orders side).map feature).Sublist
      ((book.orders side).map feature) := by
  have both := (allLegal.and_forall quiet).preserves
    (fun changed => changed.Valid ∧
      ((changed.orders side).map feature).Sublist ((book.orders side).map feature))
    (fun changed change holds legal => ⟨holds.1.apply legal.1,
      (holds.1.apply_map_sublist feature legal.2 legal.1 kept side).trans holds.2⟩)
    ⟨valid, List.Sublist.refl _⟩
  exact both.2

/-- The executions that a sequence of changes reports. -/
def executedAll : Book → List Change → List ExecutionResult
  | _, [] => []
  | book, change :: changes => book.executed change ++ (book.apply change).executedAll changes

end Book
end Reference
end MatchingEngine
