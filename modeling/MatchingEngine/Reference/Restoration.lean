import MatchingEngine.Reference.Calls
import MatchingEngine.Reference.Resting
import MatchingEngine.Reference.Uncrossed

/-!
# Placing the orders of a book again

A list with the orders of a book, those of one level in their order there, can be
submitted to an empty book: orders that do not cross each other are all placed,
and each level has its queue again.
-/

namespace MatchingEngine
namespace Reference
namespace Book

variable {book : Book}

/-! ## Arrangements -/

/-- The submission that puts an order on a side of a book. -/
def submissionOf (entry : Side × Order) : Operation :=
  .submitLimitOrder ⟨entry.2.id, entry.2.price, entry.2.quantity, entry.1,
    resubmissionTif entry.2.lifetime⟩

/-- The orders of one side and price in a list. -/
def entriesAt (placed : List (Side × Order)) (side : Side) (price : Price) : List Order :=
  (placed.filter fun entry => entry.1 = side ∧ entry.2.price = price).map Prod.snd

/-- A list has the orders of a book, those of one level in their order there. -/
def Arranges (book : Book) (placed : List (Side × Order)) : Prop :=
  ∀ side price, entriesAt placed side price = book.queue side price

variable {placed : List (Side × Order)}

theorem mem_entriesAt {side : Side} {price : Price} {order : Order} :
    order ∈ entriesAt placed side price ↔ (side, order) ∈ placed ∧ order.price = price := by
  simp only [entriesAt, List.mem_map, List.mem_filter, decide_eq_true_eq]
  constructor
  · rintro ⟨⟨_, _⟩, ⟨member, rfl, atPrice⟩, rfl⟩
    exact ⟨member, atPrice⟩
  · rintro ⟨member, atPrice⟩
    exact ⟨(side, order), ⟨member, rfl, atPrice⟩, rfl⟩

theorem entriesAt_append_singleton
    (placed : List (Side × Order)) (entry : Side × Order) (side : Side) (price : Price) :
    entriesAt (placed ++ [entry]) side price =
      entriesAt placed side price ++
        if entry.1 = side ∧ entry.2.price = price then [entry.2] else [] := by
  rw [entriesAt, List.filter_append, List.map_append, List.filter_singleton]
  by_cases here : entry.1 = side ∧ entry.2.price = price
  · simp only [here, and_self, decide_true, if_true]
    rfl
  · simp only [here, decide_false, if_false]
    rfl

theorem entriesAt_sublist
    {shorter : List (Side × Order)}
    (sublist : shorter.Sublist placed)
    (side : Side) (price : Price) :
    (entriesAt shorter side price).Sublist (entriesAt placed side price) :=
  (sublist.filter _).map Prod.snd

theorem mem_orders_iff_queue {side : Side} {order : Order} :
    order ∈ book.orders side ↔ order ∈ book.queue side order.price := by
  simp [queue, orderPriority]

theorem Arranges.mem
    (arranges : book.Arranges placed)
    {side : Side} {order : Order} :
    (side, order) ∈ placed ↔ order ∈ book.orders side := by
  rw [mem_orders_iff_queue, ← arranges, mem_entriesAt]
  exact (and_iff_left rfl).symm

/-- No id is placed twice. -/
theorem Arranges.distinct
    (arranges : book.Arranges placed)
    (valid : book.Valid) :
    (placed.map fun entry => entry.2.id).Nodup := by
  have once : placed.Nodup := by
    rw [List.nodup_iff_count_le_one]
    rintro ⟨side, order⟩
    have inQueue : (book.queue side order.price).Nodup :=
      (List.Nodup.of_map _ (valid.distinct.side side)).filter _
    calc
      placed.count (side, order) = (placed.filter fun entry =>
          entry.1 = side ∧ entry.2.price = order.price).count (side, order) :=
        (List.count_filter (by simp)).symm
      _ ≤ (entriesAt placed side order.price).count order :=
        List.count_le_count_map (f := Prod.snd)
      _ ≤ 1 := by
        rw [arranges]
        exact List.nodup_iff_count_le_one.mp inQueue order
  refine once.map_on ?_
  rintro ⟨side, order⟩ member ⟨side', order'⟩ member' sameId
  obtain ⟨rfl, rfl⟩ := valid.distinct.eq_of_id_eq (arranges.mem.mp member)
    (arranges.mem.mp member') sameId
  rfl

/-- The orders of a book, the bids first. -/
def restingOrders (book : Book) : List (Side × Order) :=
  book.bids.map (Prod.mk .buy) ++ book.asks.map (Prod.mk .sell)

theorem entriesAt_map (orders : List Order) (owner side : Side) (price : Price) :
    entriesAt (orders.map (Prod.mk owner)) side price =
      if owner = side then orders.filter fun order => order.price = price else [] := by
  rw [entriesAt, List.filter_map, List.map_map]
  by_cases same : owner = side
  · simp [same, Function.comp_def]
  · simp [same, Function.comp_def]

theorem arranges_restingOrders (book : Book) : book.Arranges book.restingOrders := by
  intro side price
  have parts : entriesAt book.restingOrders side price =
      entriesAt (book.bids.map (Prod.mk .buy)) side price ++
        entriesAt (book.asks.map (Prod.mk .sell)) side price := by
    rw [restingOrders, entriesAt, List.filter_append, List.map_append]
    rfl
  rw [parts, entriesAt_map, entriesAt_map, queue, KeyedList.bucket]
  simp only [orderPriority, priority_inj]
  cases side with
  | buy => exact List.append_nil _
  | sell => rfl

/-- Every answer reports an order that rests and no executions. -/
def AllRest (outputs : List Output) : Prop :=
  ∀ output ∈ outputs, ∃ quantity,
    output = .submission { quantityRequested := quantity, status := .resting }

/-- What a book has after some orders have been placed in it. -/
structure Placed (start : Book) (placed : List (Side × Order)) : Prop where
  rest : AllRest (start.executeAll (placed.map submissionOf)).1
  valid : (start.executeAll (placed.map submissionOf)).2.Valid
  minPrice : (start.executeAll (placed.map submissionOf)).2.minPrice = start.minPrice
  maxPrice : (start.executeAll (placed.map submissionOf)).2.maxPrice = start.maxPrice
  queues : (start.executeAll (placed.map submissionOf)).2.Arranges placed

/-- Orders that do not cross each other are all placed. -/
theorem placed_of_apart
    {start : Book}
    (bids : start.bids = [])
    (asks : start.asks = [])
    (distinct : (placed.map fun entry => entry.2.id).Nodup)
    (fits : ∀ entry ∈ placed, 1 ≤ entry.2.quantity ∧
      start.minPrice ≤ entry.2.price ∧ entry.2.price ≤ start.maxPrice)
    (apart : ∀ bid ask, (Side.buy, bid) ∈ placed → (Side.sell, ask) ∈ placed →
      bid.price < ask.price) :
    Placed start placed := by
  induction placed using List.reverseRecOn with
  | nil =>
      refine ⟨by simp [AllRest], .of_empty bids asks, rfl, rfl, fun side price => ?_⟩
      cases side
      · exact (congrArg (KeyedList.bucket _ _) bids).symm
      · exact (congrArg (KeyedList.bucket _ _) asks).symm
  | append_singleton placed entry inductionHypothesis =>
      obtain ⟨side, order⟩ := entry
      rw [List.map_append, List.nodup_append] at distinct
      have before := inductionHypothesis distinct.1
        (fun entry member => fits entry (List.mem_append_left _ member))
        fun bid ask isBid isAsk => apart bid ask (List.mem_append_left _ isBid)
          (List.mem_append_left _ isAsk)
      obtain ⟨positive, lower, upper⟩ :=
        fits (side, order) (List.mem_append_right _ List.mem_cons_self)
      have last : (side, order) ∈ placed ++ [(side, order)] :=
        List.mem_append_right _ List.mem_cons_self
      obtain ⟨rest, valid, minPrice, maxPrice, queues⟩ := before
      have all := executeAll_append start (placed.map submissionOf) [submissionOf (side, order)]
      generalize start.executeAll (placed.map submissionOf) = reached at *
      have fresh : ¬ reached.2.Contains order.id := by
        intro present
        obtain ⟨otherSide, other, member, sameId⟩ := contains_iff.mp present
        exact distinct.2.2 _ (List.mem_map_of_mem (queues.mem.mpr member)) _
          List.mem_cons_self sameId
      have accepted : ¬ reached.2.Rejects ⟨order.id, order.price, order.quantity, side,
          resubmissionTif order.lifetime⟩ := by
        rintro (present | above | below)
        · exact fresh present
        · rw [maxPrice] at above
          exact upper.not_gt above
        · rw [minPrice] at below
          exact lower.not_gt below
      have passive : ∀ other ∈ reached.2.orders side.opposite,
          accepts side order.price other.price = false := by
        intro other member
        have inPlaced := List.mem_append_left [(side, order)] (queues.mem.mpr member)
        cases side with
        | buy => simpa [accepts] using apart order other last inPlaced
        | sell => simpa [accepts] using apart other order inPlaced last
      have executed : reached.2.execute (submissionOf (side, order)) =
          (.submission { quantityRequested := order.quantity, status := .resting },
            reached.2.rest side order) :=
        congrArg (Prod.map Output.submission id)
          (submitLimit_of_passive accepted rfl positive passive)
      have extended : start.executeAll ((placed ++ [(side, order)]).map submissionOf) =
          (reached.1 ++ [.submission { quantityRequested := order.quantity, status := .resting }],
            reached.2.rest side order) := by
        rw [List.map_append, List.map_singleton, all, executeAll_cons, executed]
        rfl
      have legal : reached.2.Legal (.rest side order) :=
        ⟨fresh, positive, minPrice ▸ lower, maxPrice ▸ upper⟩
      refine ⟨?_, ?_, ?_, ?_, ?_⟩
      · rw [extended]
        intro output member
        rcases List.mem_append.mp member with earlier | isLast
        · exact rest output earlier
        · exact ⟨order.quantity, List.mem_singleton.mp isLast⟩
      · rw [extended]
        exact valid.apply legal
      · rw [extended]
        exact (setOrders_minPrice ..).trans minPrice
      · rw [extended]
        exact (setOrders_maxPrice ..).trans maxPrice
      · rw [extended]
        intro otherSide price
        rw [entriesAt_append_singleton, queues otherSide price]
        exact (valid.queue_rest side order otherSide price).symm

theorem submissionOf_positive
    {entry : Side × Order}
    (sound : 1 ≤ entry.2.quantity ∧ entry.2.quantity ≤ 2147483647) :
    (submissionOf entry).PositiveQuantities :=
  ⟨sound.1, show InInt32 entry.2.quantity from ⟨by lia, sound.2⟩⟩

/-- The first submissions of an arrangement place the first orders of it. -/
theorem placed_of_prefix
    {spec start : Book}
    (valid : spec.Valid)
    (uncrossed : spec.Uncrossed)
    (arranges : spec.Arranges placed)
    (bids : start.bids = [])
    (asks : start.asks = [])
    (minPrice : start.minPrice = spec.minPrice)
    (maxPrice : start.maxPrice = spec.maxPrice)
    {first : List (Side × Order)}
    (sublist : first.Sublist placed) :
    Placed start first := by
  apply placed_of_apart bids asks
  · exact (arranges.distinct valid).sublist (sublist.map _)
  · rintro ⟨side, order⟩ member
    have inOrders := arranges.mem.mp (sublist.subset member)
    rw [minPrice, maxPrice]
    exact ⟨valid.positive side order inOrders, valid.inRange side order inOrders⟩
  · intro bid ask isBid isAsk
    exact uncrossed bid (arranges.mem.mp (sublist.subset isBid)) ask
      (arranges.mem.mp (sublist.subset isAsk))

end Book
end Reference

end MatchingEngine
