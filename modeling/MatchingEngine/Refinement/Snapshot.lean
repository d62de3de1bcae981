import MatchingEngine.Reference.Volumes
import MatchingEngine.Refinement.Replay

/-!
# What a book shows is what its ledger says

The ledger that can be read off a book, by following the id map and the lists of
the levels, is that of the reference book it carries.  The cached volumes are those of
the ledger, up to their width; the cached best prices and the depth lists are
those of the ledger while no queue has more orders than a level can count.
-/

namespace MatchingEngine
namespace Refinement

open Reference (Order priority orderPriority Ledger Entry)

/-- The ledger that can be read off a book: the id map leads to the live orders, and the
lists of the levels are the queues. -/
def readLedger (book : OrderBook) : Ledger where
  live id := do
    let address ← book.idToOrderMap.lookup id
    let order ← book.orderAt address
    let place ← order.level
    let level ← (book.ladder place.side).levels[place.index]?
    some ⟨order.side, level.price, order.quantity⟩
  queue side price :=
    if book.minPrice ≤ price ∧ price ≤ book.maxPrice then
      (book.levelOrders side (price - book.minPrice).toNat).map RestingOrder.id
    else []

/-- The cached volume of the level of a price. -/
def levelVolume (book : OrderBook) (side : Side) (price : Price) : Option Volume :=
  ((book.ladder side).levels[(price - book.minPrice).toNat]?).map PriceLevel.totalVolume

section ReadLedger

variable {book : OrderBook} {spec : Reference.Book}

/-- What can be read off a book is what it carries. -/
theorem Carries.readLedger_eq (carries : Carries book spec) :
    readLedger book = ledgerOfBook spec := by
  refine Ledger.ext (funext fun id => ?_) (funext fun side => funext fun price => ?_)
  · rw [live_ledgerOfBook]
    cases located : spec.locate id with
    | none =>
        simp only [readLedger, carries.lookup_eq_none located]
        rfl
    | some found =>
        obtain ⟨side, order⟩ := found
        obtain ⟨member, rfl⟩ := Reference.Book.locate_eq_some located
        obtain ⟨addr, free, block, level, front, rest, linked, lookup, stored, contents, access,
          levelPrice, _⟩ := carries.resting member
        have place := congrArg RestingOrder.level contents
        have blockSide := congrArg RestingOrder.side contents
        have quantity := congrArg RestingOrder.quantity contents
        simp only [unlinked, Refinement.resting] at place blockSide quantity
        have found : (book.ladder side).levels[indexOf (book.ladder side) order.price]? =
            some level := by
          unfold PriceLadder.level at access
          split at access
          next found => rw [found, Except.ok.inj access]
          next => cases access
        simp [readLedger, lookup, OrderBook.orderAt, stored, place, blockSide, quantity, found,
          levelPrice]
  · rw [queue_ledgerOfBook]
    simp only [readLedger]
    by_cases inRange : book.minPrice ≤ price ∧ price ≤ book.maxPrice
    · rw [if_pos inRange, ← OrderBook.map_pricedOrders Order.id fun _ _ => rfl,
        carries.pricedOrders_eq, ← carries.minPrice,
        show book.minPrice + ((price - book.minPrice).toNat : Int) = price by lia]
    · rw [if_neg inRange, eq_comm, List.map_eq_nil_iff, queueAt_eq_nil]
      rintro order member rfl
      obtain ⟨addr, free, linked⟩ := carries.linked
      have inLadder := linked.inRange member
      unfold InRange at inLadder
      rw [linked.minPrice side, linked.maxPrice side, ← carries.minPrice,
        ← carries.maxPrice] at inLadder
      exact inRange inLadder

/-- The ledger of a book lists its orders. -/
theorem Orderly.wellFormed (orderly : Orderly book spec) : (ledgerOfBook spec).WellFormed := by
  have distinct := orderly.carries.distinct
  refine ⟨fun side price id => ?_, fun side price => ?_, fun id entry found => ?_⟩
  · rw [queue_ledgerOfBook, List.mem_map]
    constructor
    · rintro ⟨order, inQueue, rfl⟩
      obtain ⟨member, rfl⟩ := mem_queueAt.mp inQueue
      exact ⟨_, live_of_mem distinct member⟩
    · rintro ⟨shares, found⟩
      obtain ⟨order, member, rfl, equal⟩ := live_eq_some found
      obtain ⟨_, rfl, _⟩ := Entry.mk.injEq .. ▸ equal
      exact ⟨order, mem_queueAt.mpr ⟨member, rfl⟩, rfl⟩
  · rw [queue_ledgerOfBook]
    have inOrders : (queueAt side price (spec.orders side)).Sublist (spec.bids ++ spec.asks) := by
      refine List.filter_sublist.trans ?_
      cases side with
      | buy => exact List.sublist_append_left _ _
      | sell => exact List.sublist_append_right _ _
    exact (inOrders.map Order.id).nodup distinct
  · obtain ⟨order, member, rfl, equal⟩ := live_eq_some found
    rw [equal]
    exact Int.lt_of_add_one_le (orderly.sound entry.side order member).1

/-- The shares in a queue of the ledger are those of the orders. -/
theorem volume_ledgerOfBook (distinct : spec.Distinct) (side : Side) (price : Price) :
    (ledgerOfBook spec).volume side price = volume (queueAt side price (spec.orders side)) := by
  rw [Ledger.volume, queue_ledgerOfBook, List.map_map, volume, Fill.offered]
  refine congrArg List.sum (List.map_congr_left fun order inQueue => ?_)
  rw [Function.comp_apply, Ledger.openQuantityOf,
    live_of_mem distinct (mem_queueAt.mp inQueue).1]

/-- The level of a price of the range, with its volume. -/
theorem Carries.levelVolume_eq
    (carries : Carries book spec)
    (side : Side) {price : Price}
    (inRange : spec.minPrice ≤ price ∧ price ≤ spec.maxPrice) :
    levelVolume book side price =
      some (toUInt64 ((ledgerOfBook spec).volume side price)) := by
  obtain ⟨addr, free, linked⟩ := carries.linked
  have inLadder := carries.inRange side inRange
  have inside := (linked.links side).toShape.indexOf_lt inLadder
  have found := List.getElem?_eq_getElem inside
  obtain ⟨_, levelLinks⟩ := (linked.links side).lists _ _ found
  rw [Shape.indexOf_price inLadder] at levelLinks
  have index : (price - book.minPrice).toNat = indexOf (book.ladder side) price := by
    rw [indexOf, linked.minPrice side, carries.minPrice]
  rw [levelVolume, index, found, Option.map_some, volume_ledgerOfBook linked.distinct]
  have total := levelLinks.total
  unfold toUInt64
  congr 1
  lia

end ReadLedger

/-! ## Depth lists -/

/-- The entry of a level in a depth list, if the level counts any orders. -/
def entryAt (ladder : PriceLadder) (index : Nat) : Option (Price × Volume) :=
  match ladder.levels[index]? with
  | some level => if level.empty then none else some (ladder.depthEntry index level)
  | none => none

section TopLevels

variable {ladder : PriceLadder} {depth : Nat}

theorem level_eq_ok {index : Nat} (inside : index < ladder.levels.length) :
    ladder.level index = .ok ladder.levels[index] := by
  rw [PriceLadder.level, List.getElem?_eq_getElem inside]

theorem entryAt_of_lt {index : Nat} (inside : index < ladder.levels.length) :
    entryAt ladder index =
      if ladder.levels[index].empty then none
      else some (ladder.depthEntry index ladder.levels[index]) := by
  rw [entryAt, List.getElem?_eq_getElem inside]

/-- The loop of a bid ladder collects the entries from an index downwards. -/
theorem topLevelsDown_eq
    {index : Nat} {result : List (Price × Volume)}
    (inside : index < ladder.levels.length)
    (room : result.length < depth) :
    ladder.topLevelsDown depth index result =
      .ok (result ++ (((List.range (index + 1)).reverse.filterMap (entryAt ladder)).take
        (depth - result.length))) := by
  induction index generalizing result with
  | zero =>
      have some : 0 < depth - result.length := by omega
      rw [PriceLadder.topLevelsDown, level_eq_ok inside, ok_bind]
      simp only [Nat.zero_add, List.range_one, List.reverse_singleton, List.filterMap_cons,
        List.filterMap_nil, entryAt_of_lt inside]
      split
      · simp
      · rw [List.take_of_length_le some]
  | succ index inductionHypothesis =>
      have insideBefore : index < ladder.levels.length := by omega
      rw [PriceLadder.topLevelsDown, level_eq_ok inside, ok_bind, List.range_succ,
        List.reverse_append, List.reverse_singleton, List.singleton_append,
        List.filterMap_cons, entryAt_of_lt inside]
      by_cases vacant : ladder.levels[index + 1].empty = true
      · rw [if_pos vacant, if_pos vacant]
        exact inductionHypothesis insideBefore room
      · rw [if_neg vacant, if_neg vacant]
        obtain ⟨left, more⟩ : ∃ left, depth - result.length = left + 1 :=
          ⟨depth - result.length - 1, by omega⟩
        simp only [more, List.take_succ_cons]
        by_cases full : (result ++ [ladder.depthEntry (index + 1) ladder.levels[index + 1]]).length
            = depth
        · rw [if_pos full]
          rw [List.length_append, List.length_singleton] at full
          obtain rfl : left = 0 := by omega
          rw [List.take_zero]
        · rw [if_neg full, inductionHypothesis insideBefore]
          · rw [List.length_append, List.length_singleton, List.append_assoc,
              List.singleton_append, show depth - (result.length + 1) = left by omega]
          · rw [List.length_append, List.length_singleton] at full ⊢
            omega

/-- The loop of an ask ladder collects the entries from an index upwards. -/
theorem topLevelsUp_eq
    {count index : Nat} {result : List (Price × Volume)}
    (covered : index + count ≤ ladder.levels.length)
    (room : result.length ≤ depth) :
    ladder.topLevelsUp depth count index result =
      .ok (result ++ (((List.range' index count).filterMap (entryAt ladder)).take
        (depth - result.length))) := by
  induction count generalizing index result with
  | zero => simp [PriceLadder.topLevelsUp]
  | succ count inductionHypothesis =>
      have inside : index < ladder.levels.length := by omega
      rw [PriceLadder.topLevelsUp]
      by_cases unfilled : result.length < depth
      · rw [if_pos unfilled, level_eq_ok inside, ok_bind, List.range'_succ, List.filterMap_cons,
          entryAt_of_lt inside]
        by_cases vacant : ladder.levels[index].empty = true
        · rw [if_pos vacant, if_pos vacant]
          exact inductionHypothesis (by omega) room
        · obtain ⟨left, more⟩ : ∃ left, depth - result.length = left + 1 :=
            ⟨depth - result.length - 1, by omega⟩
          rw [if_neg vacant, if_neg vacant, inductionHypothesis (by omega)]
          · simp only [more, List.take_succ_cons]
            rw [List.length_append, List.length_singleton, List.append_assoc,
              List.singleton_append, show depth - (result.length + 1) = left by omega]
          · rw [List.length_append, List.length_singleton]
            omega
      · rw [if_neg unfilled, show depth - result.length = 0 by omega, List.take_zero,
          List.append_nil]

end TopLevels

/-! ## The top of the book -/

/-- The prices of a side are listed from the best to the worst. -/
theorem pricesOf_sorted (minPrice maxPrice : Price) (side : Side) :
    (Ledger.pricesOf minPrice maxPrice side).Pairwise fun better worse =>
      priority side better < priority side worse := by
  cases side with
  | buy =>
      simp only [Ledger.pricesOf, List.pairwise_map, List.pairwise_reverse, priority]
      exact List.pairwise_lt_range.imp fun earlier => by omega
  | sell =>
      simp only [Ledger.pricesOf, List.pairwise_map, priority]
      exact List.pairwise_lt_range.imp fun earlier => by omega

/-- The least element of a list in order is at its head. -/
theorem head?_of_least
    {α : Type*} {before : α → α → Prop} {items : List α} {item : α}
    (sorted : items.Pairwise before)
    (member : item ∈ items)
    (least : ∀ other ∈ items, ¬ before other item) :
    items.head? = some item := by
  cases items with
  | nil => cases member
  | cons first rest =>
      rcases List.mem_cons.mp member with rfl | later
      · rfl
      · exact absurd (List.rel_of_pairwise_cons sorted later) (least first List.mem_cons_self)

/-- The prices of a ledger at which there are orders are those of the orders. -/
theorem mem_occupied
    {spec : Reference.Book} {side : Side}
    (inRange : ∀ order ∈ spec.orders side,
      spec.minPrice ≤ order.price ∧ order.price ≤ spec.maxPrice)
    (price : Price) :
    price ∈ (ledgerOfBook spec).occupied spec.minPrice spec.maxPrice side ↔
      ∃ order ∈ spec.orders side, order.price = price := by
  simp only [Ledger.occupied, List.mem_filter, Ledger.mem_pricesOf, queue_ledgerOfBook, ne_eq,
    List.map_eq_nil_iff, queueAt_eq_nil, decide_eq_true_eq, not_forall, not_not, exists_prop,
    and_iff_right_iff_imp]
  rintro ⟨order, member, rfl⟩
  exact inRange order member

/-- The first price of a ledger at which there are orders is that of the first order of
the book. -/
theorem head?_occupied
    {spec : Reference.Book} {side : Side}
    (sorted : KeyedList.Ordered (orderPriority side) (spec.orders side))
    (inRange : ∀ order ∈ spec.orders side,
      spec.minPrice ≤ order.price ∧ order.price ≤ spec.maxPrice) :
    ((ledgerOfBook spec).occupied spec.minPrice spec.maxPrice side).head? =
      bestOf (spec.orders side) := by
  have mem_occupied := mem_occupied inRange
  cases best : bestOf (spec.orders side) with
  | none =>
      have noOrders : spec.orders side = [] := by simpa [bestOf] using best
      rw [List.head?_eq_none_iff, List.eq_nil_iff_forall_not_mem]
      intro price occupied
      obtain ⟨order, member, _⟩ := (mem_occupied price).mp occupied
      rw [noOrders] at member
      cases member
  | some price =>
      have least := least_of_best sorted best
      refine head?_of_least ((pricesOf_sorted _ _ side).filter _) ((mem_occupied price).mpr ?_)
        fun other occupied => ?_
      · obtain ⟨head, atHead, rfl⟩ := Option.map_eq_some_iff.mp best
        exact ⟨head, List.mem_of_mem_head? atHead, rfl⟩
      · obtain ⟨order, member, rfl⟩ := (mem_occupied other).mp occupied
        exact not_lt.mpr (least order member)

/-- A level that counts no orders has no entry. -/
theorem entryAt_of_uncounted
    {heap : Heap} {addr : OrderID → BlockAddress} {ladder : PriceLadder} {side : Side}
    {orders : List Order}
    (links : LadderLinks heap addr ladder side orders)
    {index : Nat}
    (inside : index < ladder.levels.length)
    (uncounted : Uncounted (queueAt side (ladder.minPrice + index) orders)) :
    entryAt ladder index = none := by
  obtain ⟨_, levelLinks⟩ := links.lists index _ (List.getElem?_eq_getElem inside)
  rw [entryAt_of_lt inside, if_pos (levelLinks.empty_iff.mpr uncounted)]

/-- The entry of a level that is within its capacity. -/
theorem entryAt_eq
    {heap : Heap} {addr : OrderID → BlockAddress} {ladder : PriceLadder} {side : Side}
    {orders : List Order}
    (holds : LadderHolds heap addr ladder side orders)
    (roomy : Roomy side orders)
    {index : Nat}
    (inside : index < ladder.levels.length) :
    entryAt ladder index =
      if queueAt side (ladder.minPrice + index) orders = [] then none
      else some (ladder.minPrice + index,
        (volume (queueAt side (ladder.minPrice + index) orders)).toNat) := by
  obtain ⟨_, levelHolds⟩ := holds.levels index _ (List.getElem?_eq_getElem inside)
  have empty := LadderHolds.empty_eq roomy levelHolds
  have total := levelHolds.toTallies.total_exact (holds.sound.queueAt side _) (roomy _)
  rw [entryAt_of_lt inside, empty, PriceLadder.depthEntry, holds.toShape.priceAt_eq inside,
    PriceLevel.getTotalVolume, ← total, Int.toNat_natCast]
  simp only [decide_eq_true_eq]

/-- The entry of a price in the depth list of a ledger, if there are orders. -/
def ledgerEntry (ledger : Ledger) (side : Side) (price : Price) : Option (Price × Volume) :=
  if ledger.queue side price = [] then none else some (price, (ledger.volume side price).toNat)

theorem depth_eq (ledger : Ledger) (minPrice maxPrice : Price) (side : Side) (count : Nat) :
    ledger.depth minPrice maxPrice side count =
      ((Ledger.pricesOf minPrice maxPrice side).filterMap (ledgerEntry ledger side)).take
        count := by
  rw [Ledger.depth, List.map_take, Ledger.occupied]
  congr 1
  induction Ledger.pricesOf minPrice maxPrice side with
  | nil => rfl
  | cons price rest inductionHypothesis =>
      rw [List.filter_cons, List.filterMap_cons, ledgerEntry]
      by_cases vacant : ledger.queue side price = []
      · rw [if_neg (by simpa using vacant), if_pos vacant]
        exact inductionHypothesis
      · rw [if_pos (by simpa using vacant), if_neg vacant, List.map_cons, inductionHypothesis]

/-- A list from the top without the entries above the first. -/
theorem filterMap_reverse_range
    {entry : Nat → Option (Price × Volume)} {first count : Nat}
    (inside : first < count)
    (above : ∀ index, first < index → entry index = none) :
    (List.range count).reverse.filterMap entry =
      (List.range (first + 1)).reverse.filterMap entry := by
  obtain ⟨beyond, rfl⟩ := Nat.exists_eq_add_of_le (show first + 1 ≤ count from inside)
  rw [List.range_add, List.reverse_append, List.filterMap_append,
    List.filterMap_eq_nil_iff.mpr, List.nil_append]
  intro index member
  obtain ⟨offset, _, rfl⟩ := List.mem_map.mp (List.mem_reverse.mp member)
  exact above _ (by omega)

/-- A list from the bottom without the entries below the first. -/
theorem filterMap_range
    {entry : Nat → Option (Price × Volume)} {first count : Nat}
    (inside : first ≤ count)
    (below : ∀ index < first, entry index = none) :
    (List.range count).filterMap entry =
      (List.range' first (count - first)).filterMap entry := by
  obtain ⟨beyond, rfl⟩ := Nat.exists_eq_add_of_le inside
  rw [List.range_add, List.filterMap_append, List.filterMap_eq_nil_iff.mpr, List.nil_append,
    Nat.add_sub_cancel_left, List.range'_eq_map_range]
  intro index member
  exact below index (List.mem_range.mp member)

section Refines

variable {book : OrderBook} {spec : Reference.Book}

/-- The entries of the levels are those of the ledger. -/
theorem Refines.ledgerEntry_eq
    (refines : Refines book spec)
    (roomy : RoomyBook spec)
    (side : Side) {index : Nat}
    (inside : index < (book.ladder side).levels.length) :
    ledgerEntry (ledgerOfBook spec) side (spec.minPrice + index) =
      entryAt (book.ladder side) index := by
  obtain ⟨addr, free, core⟩ := refines.core
  rw [entryAt_eq (core.holds side) (roomy side) inside, core.minPrice side, ledgerEntry,
    queue_ledgerOfBook, volume_ledgerOfBook core.distinct]
  simp only [List.map_eq_nil_iff]

/-- The prices that no order of the side has are not in the depth list. -/
theorem ledgerEntry_eq_none
    {side : Side} {price : Price}
    (nobody : ∀ order ∈ spec.orders side, order.price ≠ price) :
    ledgerEntry (ledgerOfBook spec) side price = none := by
  rw [ledgerEntry, queue_ledgerOfBook, queueAt_eq_nil.mpr nobody, if_pos List.map_nil]

/-- Within capacity, the depth lists of a book are those of its ledger. -/
theorem Refines.getTopLevels_eq
    (refines : Refines book spec)
    (roomy : RoomyBook spec)
    (side : Side) (depth : Nat) :
    (book.ladder side).getTopLevels depth =
      .ok ((ledgerOfBook spec).depth spec.minPrice spec.maxPrice side depth) := by
  obtain ⟨addr, free, core⟩ := refines.core
  have holds := core.holds side
  have best := refines.best side
  have length := holds.length
  rw [core.minPrice side, core.maxPrice side] at length
  have count : (spec.maxPrice - spec.minPrice + 1).toNat =
    (book.ladder side).levels.length := by lia
  rw [depth_eq]
  unfold PriceLadder.getTopLevels
  cases bestPrice : bestOf (spec.orders side) with
  | none =>
      have noOrders : spec.orders side = [] := by simpa [bestOf] using bestPrice
      have nothing : (Ledger.pricesOf spec.minPrice spec.maxPrice side).filterMap
          (ledgerEntry (ledgerOfBook spec) side) = [] :=
        List.filterMap_eq_nil_iff.mpr fun price _ => ledgerEntry_eq_none (by simp [noOrders])
      rw [best, bestPrice, nothing, List.take_nil]
  | some price =>
      have least := least_of_best holds.sorted bestPrice
      have inRange : InRange (book.ladder side) price := by
        obtain ⟨head, atHead, rfl⟩ := Option.map_eq_some_iff.mp bestPrice
        exact holds.inRange head (List.mem_of_mem_head? atHead)
      have inside := holds.toShape.indexOf_lt inRange
      have indexPrice := Shape.indexOf_price inRange
      rw [core.minPrice side] at indexPrice
      simp only [best, bestPrice]
      by_cases nothing : depth = 0
      · rw [if_pos nothing, nothing, List.take_zero]
      rw [if_neg nothing, holds.toShape.index_eq inRange, holds.side_eq]
      -- Beyond the best price there are no orders, so the lists start there.
      cases side with
      | buy =>
          have above : ∀ index, indexOf (book.ladder .buy) price < index →
              ledgerEntry (ledgerOfBook spec) .buy (spec.minPrice + index) = none := by
            refine fun index beyond => ledgerEntry_eq_none fun order member same => ?_
            have := least order member
            simp only [orderPriority, priority] at this
            lia
          simp only
          rw [topLevelsDown_eq inside (Nat.pos_of_ne_zero nothing), Ledger.pricesOf,
            List.filterMap_map, Function.comp_def, count, filterMap_reverse_range inside above]
          refine congrArg (fun list => Except.ok (List.take depth list))
            (List.filterMap_congr fun index member => (refines.ledgerEntry_eq roomy .buy ?_).symm)
          rw [List.mem_reverse, List.mem_range] at member
          omega
      | sell =>
          have below : ∀ index < indexOf (book.ladder .sell) price,
              ledgerEntry (ledgerOfBook spec) .sell (spec.minPrice + index) = none := by
            refine fun index before => ledgerEntry_eq_none fun order member same => ?_
            have := least order member
            simp only [orderPriority, priority] at this
            lia
          simp only
          rw [topLevelsUp_eq (Nat.add_sub_cancel' inside.le).le (Nat.zero_le depth),
            Ledger.pricesOf, List.filterMap_map, Function.comp_def, count,
            filterMap_range inside.le below]
          refine congrArg (fun list => Except.ok (List.take depth list))
            (List.filterMap_congr fun index member => (refines.ledgerEntry_eq roomy .sell ?_).symm)
          rw [List.mem_range'_1] at member
          omega

end Refines

/-! ## Queries about one price -/

/-- The level of a price of the range counts what is queued there. -/
theorem levelAt_of_inRange
    {book : OrderBook} {spec : Reference.Book}
    (refines : Refines book spec)
    (roomy : RoomyBook spec)
    (side : Side) {price : Price}
    (inRange : spec.minPrice ≤ price ∧ price ≤ spec.maxPrice) :
    ∃ level, book.levelAt price side = .ok level ∧
      level.orderCount = (spec.queue side price).length ∧
      level.totalVolume = (volume (spec.queue side price)).toNat := by
  obtain ⟨addr, free, core⟩ := refines.core
  have onLadder := refines.inRange side inRange
  obtain ⟨level, access, _, holds⟩ := (core.holds side).level_of onLadder
  have few : (spec.queue side price).length < 4294967296 := roomy side price
  have count : (level.orderCount : Int) = (spec.queue side price).length % 4294967296 :=
    holds.toTallies.count
  have total : (level.totalVolume : Int) = volume (spec.queue side price) :=
    holds.toTallies.total_exact ((core.holds side).sound.queueAt side price) few
  refine ⟨level, ?_, ?_, ?_⟩
  · rw [OrderBook.levelAt, (core.holds side).toShape.getLevelAtPrice onLadder, ok_bind, access]
  · omega
  · lia

/-- Asking for a price outside the range fails an assertion. -/
theorem levelAt_of_not_inRange
    {book : OrderBook} {spec : Reference.Book}
    (refines : Refines book spec)
    (side : Side) {price : Price}
    (outside : ¬ (spec.minPrice ≤ price ∧ price ≤ spec.maxPrice)) :
    book.levelAt price side = .error .assertionFailed := by
  obtain ⟨addr, free, core⟩ := refines.core
  have offLadder : ¬ (price ≤ (book.ladder side).maxPrice ∧
      price ≥ (book.ladder side).minPrice) := by
    rw [core.minPrice side, core.maxPrice side]
    exact fun inside => outside inside.symm
  rw [OrderBook.levelAt, PriceLadder.getLevelAtPrice, if_pos offLadder, error_bind]

end Refinement
end MatchingEngine
