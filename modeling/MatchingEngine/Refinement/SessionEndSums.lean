import MatchingEngine.Model.SessionEndSums
import MatchingEngine.Refinement.BestInRange
import MatchingEngine.Refinement.SessionEnd
import MatchingEngine.Refinement.View

/-!
# The sums of a session end, from the queues

The sums that the loops compute are those of the quantities in the queues of the
levels that are visited.  As nothing negative is added, all of them fit their
accumulators when the last of each kind does, and then the report is exact.
-/

namespace MatchingEngine
namespace Refinement

open Reference (Order)
open Reference.Book (dayOrders)
open OrderBook (Registry)

/-! ## Sums of queues -/

/-- The sums over the DAY orders of a level, after so many orders and shares. -/
def levelSums : Nat → Int → List Order → List AccumulatorSum
  | _, _, [] => []
  | orders, shares, order :: rest =>
      .levelQuantity ((pruneStats orders shares).quantityPruned + order.quantity) ::
        .levelOrders ((pruneStats orders shares).ordersPruned + 1) ::
        levelSums (orders + 1) (shares + order.quantity) rest

/-- What the engine finds out about a level that it visits. -/
def queueStats (queue : List Order) : LevelPruneStats :=
  pruneStats (dayOrders queue).length (volume (dayOrders queue))

/-- The sums over a level. -/
def queueSums (result : DayOrderPruneResult) (queue : List Order) : List AccumulatorSum :=
  if Uncounted queue then []
  else levelSums 0 0 (dayOrders queue) ++
    .ordersPruned (result.ordersPruned + (queueStats queue).ordersPruned) ::
      .sharesErased (result.sharesErased + (queueStats queue).quantityPruned) ::
      if Uncounted (keptOrders queue) then
        [.priceLevelsErased (result.priceLevelsErased + 1)] else []

/-- The sums over the levels of a ladder. -/
def ladderSums : DayOrderPruneResult → List (List Order) → List AccumulatorSum
  | _, [] => []
  | result, queue :: queues =>
      queueSums result queue ++ ladderSums (addCounted result queue) queues

theorem ladderSums_append
    (result : DayOrderPruneResult) (first second : List (List Order)) :
    ladderSums result (first ++ second) =
      ladderSums result first ++ ladderSums (first.foldl addCounted result) second := by
  induction first generalizing result with
  | nil => rfl
  | cons queue first inductionHypothesis =>
      rw [List.cons_append, ladderSums, inductionHypothesis, ladderSums, List.append_assoc,
        List.foldl_cons]

/-! ## The loops compute these sums -/

section Loops

variable {heap : Heap} {registry : Registry} {ladders : Side → PriceLadder}
variable {addr : OrderID → BlockAddress} {free : List BlockAddress} {spec : Reference.Book}
variable {side : Side} {ladder : PriceLadder} {price : Price}

/-- The sums over a level, from the first order of `rest` on. -/
theorem level_pruneSums
    {rest front : List Order} {level : PriceLevel} {fuel : Nat}
    (orders : Nat) (shares : Int)
    (linked : Linked heap registry
      (Function.update ladders side (ladder.setLevel (indexOf ladder price) level)) addr free
      spec)
    (inRange : InRange ladder price)
    (split : queueAt side price (spec.orders side) = front ++ rest)
    (enough : rest.length ≤ fuel) :
    level.pruneSums ⟨side, indexOf ladder price⟩ OrderBook.retireOrder fuel
        (blocks addr rest).head? (pruneStats orders shares) registry heap =
      levelSums orders shares (dayOrders rest) := by
  induction rest generalizing front level fuel orders shares heap registry free spec with
  | nil =>
      cases fuel <;> rfl
  | cons order rest inductionHypothesis =>
      obtain ⟨fuel, rfl⟩ : ∃ less, fuel = less + 1 :=
        ⟨fuel - 1, by rw [List.length_cons] at enough; omega⟩
      obtain ⟨_, _, levelLinks⟩ := level_of_update linked inRange
      rw [split] at levelLinks
      obtain ⟨block, stored, contents⟩ := levelLinks.block_order
        (show order ∈ front ++ order :: rest by simp)
      have next : block.next = (blocks addr rest).head? :=
        (levelLinks.links_of_stored stored).1
      have lifetime : block.lifetime = order.lifetime :=
        congrArg RestingOrder.lifetime contents
      have quantity : block.quantity = order.quantity :=
        congrArg RestingOrder.quantity contents
      have head : (blocks addr (order :: rest)).head? = some (addr order.id) := rfl
      simp only [head, PriceLevel.pruneSums, Heap.order_eq_ok stored, lifetime, next, quantity]
      by_cases day : order.lifetime = .day
      · obtain ⟨outcome, level₁, heap₁, registry₁, heap₂, free₁, removed, retired, after,
          _⟩ := removeFromLevel linked inRange split
        have later := inductionHypothesis (orders + 1) (shares + order.quantity) after
          (queueAt_remove linked.distinct split) (Nat.le_of_succ_le_succ enough)
        rw [dayOrders_cons_of_day day, levelSums, ← later, if_pos day]
        simp only [removed, retired, pruneStats_next orders shares order.quantity]
      · rw [dayOrders_cons_of_gtc day, if_neg day]
        exact inductionHypothesis orders shares linked
          (show queueAt side price (spec.orders side) = (front ++ [order]) ++ rest by
            rw [split, List.append_assoc, List.singleton_append])
          (Nat.le_of_succ_le_succ enough)

/-- The sums over the level of an index. -/
theorem level_pruneSums_of_access
    {index fuel : Nat} {level : PriceLevel}
    (linked : Linked heap registry (Function.update ladders side ladder) addr free spec)
    (inside : index < ladder.levels.length)
    (access : ladder.level index = .ok level)
    (enough : (queueAt side (ladder.minPrice + index) (spec.orders side)).length ≤ fuel) :
    level.pruneSums ⟨side, index⟩ OrderBook.retireOrder fuel level.head {} registry heap =
      levelSums 0 0 (dayOrders (queueAt side (ladder.minPrice + index) (spec.orders side))) := by
  have links := linked.links side
  rw [Function.update_self] at links
  have inRange := links.toShape.inRange_of_lt inside
  have indexEquality : indexOf ladder (ladder.minPrice + index) = index :=
    Shape.indexOf_add index
  have stored : Linked heap registry (Function.update ladders side (ladder.setLevel
      (indexOf ladder (ladder.minPrice + index)) level)) addr free spec := by
    rw [indexEquality, setLevel_self access]
    exact linked
  obtain ⟨_, _, levelLinks⟩ := level_of_update stored inRange
  have head : level.head =
      (blocks addr (queueAt side (ladder.minPrice + index) (spec.orders side))).head? := by
    rw [levelLinks.head_eq, blocks, List.head?_map]
  have sums := level_pruneSums 0 0 stored inRange
    (show queueAt side (ladder.minPrice + index) (spec.orders side) =
      [] ++ queueAt side (ladder.minPrice + index) (spec.orders side) from rfl) enough
  rw [indexEquality] at sums
  rw [head]
  exact sums

/-- The sums over a ladder, from an index on. -/
theorem ladder_pruneSums
    {fuel count : Nat} (index : Nat) (dayResult : DayOrderPruneResult)
    (linked : Linked heap registry (Function.update ladders side ladder) addr free spec)
    (enough : ∀ price, (queueAt side price (spec.orders side)).length ≤ fuel)
    (covered : index + count = ladder.levels.length) :
    ladder.pruneSums fuel OrderBook.retireOrder count index dayResult registry heap =
      ladderSums dayResult ((List.range' index count).map fun (i : Nat) =>
        queueAt side (ladder.minPrice + i) (spec.orders side)) := by
  have links := linked.links side
  rw [Function.update_self] at links
  induction count generalizing index dayResult ladder registry heap free spec with
  | zero => rfl
  | succ count inductionHypothesis =>
      have inside : index < ladder.levels.length := by omega
      obtain ⟨level, access, _, levelLinks⟩ := links.level_at inside
      have counted := levelLinks.empty_iff
      simp only [List.range'_succ, List.map_cons, ladderSums, PriceLadder.pruneSums, access]
      by_cases vacant :
          Uncounted (queueAt side (ladder.minPrice + index) (spec.orders side))
      · rw [if_neg (by simp [counted.mpr vacant]), queueSums, if_pos vacant, List.nil_append,
          addCounted_of_uncounted vacant]
        exact inductionHypothesis (index + 1) dayResult linked enough (by omega) links
      · obtain ⟨level', registry₁, heap₁, free₁, pruned, emptied, linkedLevel, _⟩ :=
          pruneLevel linked inside access (enough _)
        have linksLevel := linkedLevel.links side
        rw [Function.update_self] at linksLevel
        have later := inductionHypothesis (index + 1) (addCounted dayResult
            (queueAt side (ladder.minPrice + index) (spec.orders side))) linkedLevel
          (fun price => (length_queueAt_pruneAmong_le price).trans (enough price))
          (by simp only [PriceLadder.setLevel, List.length_set]; omega) linksLevel
        rw [setLevel_minPrice, laterQueues_prunePrice] at later
        have sums := level_pruneSums_of_access linked inside access (enough _)
        rw [if_pos (by simpa using fun empty => vacant (counted.mp empty)), links.side_eq, sums,
          queueSums, if_neg vacant, ← later]
        simp only [pruned, emptied, addCounted, vacant, if_false, List.append_assoc,
          List.cons_append, queueStats]

end Loops

/-! ## When they fit -/

/-- The sums over a level fit when its DAY volume does. -/
theorem forall_levelSums_fits
    {orders : Nat} {shares : Int} {queue : List Order}
    (sound : Sound queue)
    (atLeastOne : orders ≤ shares)
    (sharesFit : shares ≤ 2147483647) :
    (∀ sum ∈ levelSums orders shares queue, sum.Fits) ↔ shares + volume queue ≤ 2147483647 := by
  induction queue generalizing orders shares with
  | nil => simpa [levelSums] using sharesFit
  | cons order rest inductionHypothesis =>
      obtain ⟨head, tail⟩ := Sound.cons.mp sound
      have tailVolume := (volume_bounds tail).1
      have exactShares : toInt32 shares = shares := toInt32_of_inInt32 ⟨by lia, sharesFit⟩
      have exactOrders : (toUInt64 (orders : Int) : Int) = orders :=
        toUInt64_of_inUInt64 ⟨by lia, by lia⟩
      simp only [levelSums, List.forall_mem_cons, AccumulatorSum.fits_levelQuantity,
        AccumulatorSum.fits_levelOrders, pruneStats, exactShares, exactOrders, volume_cons]
      unfold InInt32 InUInt64
      by_cases next : shares + order.quantity ≤ 2147483647
      · rw [inductionHypothesis tail (by push_cast; lia) next]
        lia
      · refine iff_of_false (fun fits => next fits.1.2) ?_
        lia

/-- A level that is visited has a DAY volume that its accumulator can hold. -/
def LevelFits (queue : List Order) : Prop :=
  ¬ Uncounted queue → volume (dayOrders queue) ≤ 2147483647

/-- What a level adds to a report, in unbounded numbers. -/
def addExact (result : DayOrderPruneResult) (queue : List Order) : DayOrderPruneResult :=
  if Uncounted queue then result
  else
    { ordersPruned := result.ordersPruned + (dayOrders queue).length
      sharesErased := result.sharesErased + (volume (dayOrders queue)).toNat
      priceLevelsErased :=
        if Uncounted (keptOrders queue) then result.priceLevelsErased + 1
        else result.priceLevelsErased }

/-- The numbers of a report are values of their types. -/
structure Representable (result : DayOrderPruneResult) : Prop where
  ordersPruned : result.ordersPruned < 18446744073709551616
  sharesErased : result.sharesErased < 18446744073709551616
  priceLevelsErased : result.priceLevelsErased < 4294967296

section Fit

variable {result : DayOrderPruneResult} {queue : List Order} {queues : List (List Order)}

theorem Representable.of_addExact (representable : Representable (addExact result queue)) :
    Representable result := by
  unfold addExact at representable
  split at representable
  · exact representable
  obtain ⟨orders, shares, levels⟩ := representable
  refine ⟨(Nat.le_add_right _ _).trans_lt orders, (Nat.le_add_right _ _).trans_lt shares, ?_⟩
  simp only at levels
  split at levels <;> omega

theorem Representable.of_foldl_addExact
    (representable : Representable (queues.foldl addExact result)) :
    Representable result := by
  induction queues generalizing result with
  | nil => exact representable
  | cons queue queues inductionHypothesis => exact (inductionHypothesis representable).of_addExact

theorem length_dayOrders_le (sound : Sound queue) :
    ((dayOrders queue).length : Int) ≤ volume (dayOrders queue) :=
  (volume_bounds (sound.sublist List.filter_sublist)).1

/-- The accumulators of a level whose DAY volume fits are exact. -/
theorem queueStats_of_fits
    (sound : Sound queue)
    (fits : volume (dayOrders queue) ≤ 2147483647) :
    ((queueStats queue).ordersPruned : Int) = (dayOrders queue).length ∧
      (queueStats queue).quantityPruned = volume (dayOrders queue) := by
  have length := length_dayOrders_le sound
  have orders : InUInt64 ((dayOrders queue).length : Int) := ⟨by lia, by lia⟩
  exact ⟨toUInt64_of_inUInt64 orders, toInt32_of_inInt32 ⟨by lia, fits⟩⟩

/-- The sums over a level fit when its DAY volume and the totals do. -/
theorem forall_queueSums_fits
    (sound : Sound queue)
    (representable : Representable result) :
    (∀ sum ∈ queueSums result queue, sum.Fits) ↔
      LevelFits queue ∧ Representable (addExact result queue) := by
  unfold queueSums addExact LevelFits
  by_cases vacant : Uncounted queue
  · simp [vacant, representable]
  have length := length_dayOrders_le sound
  have levelFits := forall_levelSums_fits (sound.sublist List.filter_sublist :
    Sound (dayOrders queue)) (show ((0 : Nat) : Int) ≤ 0 from le_rfl) (by decide)
  rw [if_neg vacant, if_neg vacant, List.forall_mem_append, levelFits, zero_add,
    forall_prop_of_true vacant]
  refine and_congr_right fun fits => ?_
  obtain ⟨exactOrders, exactShares⟩ := queueStats_of_fits sound fits
  simp only [List.forall_mem_cons, AccumulatorSum.fits_ordersPruned,
    AccumulatorSum.fits_sharesErased, exactOrders, exactShares]
  obtain ⟨orders, shares, levels⟩ := representable
  by_cases emptied : Uncounted (keptOrders queue)
  · rw [if_pos emptied, if_pos emptied, List.forall_mem_singleton,
      AccumulatorSum.fits_priceLevelsErased]
    unfold InUInt64 InUInt32
    constructor
    · rintro ⟨ordersFit, sharesFit, levelsFit⟩
      exact ⟨by lia, by lia, by lia⟩
    · rintro ⟨ordersFit, sharesFit, levelsFit⟩
      exact ⟨by lia, by lia, by lia⟩
  · rw [if_neg emptied, if_neg emptied]
    unfold InUInt64
    constructor
    · rintro ⟨ordersFit, sharesFit, _⟩
      exact ⟨by lia, by lia, levels⟩
    · rintro ⟨ordersFit, sharesFit, _⟩
      exact ⟨by lia, by lia, by simp⟩

/-- What fits is added up exactly. -/
theorem addCounted_eq_addExact
    (sound : Sound queue)
    (fits : LevelFits queue)
    (representable : Representable (addExact result queue)) :
    addCounted result queue = addExact result queue := by
  unfold addCounted addExact at *
  by_cases vacant : Uncounted queue
  · rw [if_pos vacant, if_pos vacant]
  rw [if_neg vacant] at representable ⊢
  obtain ⟨exactOrders, exactShares⟩ := queueStats_of_fits sound (fits vacant)
  have length := length_dayOrders_le sound
  obtain ⟨orders, shares, levels⟩ := representable
  unfold queueStats at exactOrders exactShares
  rw [if_neg vacant, exactOrders, exactShares]
  simp only [DayOrderPruneResult.mk.injEq] at orders shares levels ⊢
  refine ⟨?_, ?_, ?_⟩
  · unfold toUInt64
    lia
  · rw [← Nat.cast_add, toUInt64_natCast orders]
  · by_cases emptied : Uncounted (keptOrders queue)
    · rw [if_pos emptied] at levels
      rw [if_pos emptied, if_pos emptied]
      unfold toUInt32
      lia
    · rw [if_neg emptied, if_neg emptied]

/-- The sums over a ladder fit when the DAY volumes of its levels and the totals do, and then
the totals are exact. -/
theorem forall_ladderSums_fits
    (sound : ∀ queue ∈ queues, Sound queue)
    (representable : Representable result) :
    (∀ sum ∈ ladderSums result queues, sum.Fits) ↔
      (∀ queue ∈ queues, LevelFits queue) ∧ Representable (queues.foldl addExact result) := by
  induction queues generalizing result with
  | nil => simp [ladderSums, representable]
  | cons queue queues inductionHypothesis =>
      obtain ⟨head, tail⟩ := List.forall_mem_cons.mp sound
      rw [ladderSums, List.forall_mem_append, forall_queueSums_fits head representable,
        List.forall_mem_cons, List.foldl_cons, and_assoc, and_assoc]
      refine and_congr_right fun fits => ?_
      constructor
      · rintro ⟨here, later⟩
        rw [addCounted_eq_addExact head fits here] at later
        exact (inductionHypothesis tail here).mp later
      · rintro ⟨laterFit, total⟩
        have here := total.of_foldl_addExact
        rw [addCounted_eq_addExact head fits here]
        exact ⟨here, (inductionHypothesis tail here).mpr ⟨laterFit, total⟩⟩

theorem foldl_addCounted_eq_addExact
    (sound : ∀ queue ∈ queues, Sound queue)
    (fits : ∀ queue ∈ queues, LevelFits queue)
    (representable : Representable (queues.foldl addExact result)) :
    queues.foldl addCounted result = queues.foldl addExact result := by
  induction queues generalizing result with
  | nil => rfl
  | cons queue queues inductionHypothesis =>
      obtain ⟨head, tail⟩ := List.forall_mem_cons.mp sound
      obtain ⟨headFits, tailFit⟩ := List.forall_mem_cons.mp fits
      rw [List.foldl_cons] at representable
      rw [List.foldl_cons, List.foldl_cons,
        addCounted_eq_addExact head headFits representable.of_foldl_addExact]
      exact inductionHypothesis tail tailFit representable

/-- The totals, in unbounded numbers, are sums over the levels that are visited. -/
theorem foldl_addExact (result : DayOrderPruneResult) (queues : List (List Order)) :
    queues.foldl addExact result =
      { ordersPruned := result.ordersPruned +
          ((queues.filter fun queue => ¬ Uncounted queue).map fun queue =>
            (dayOrders queue).length).sum
        sharesErased := result.sharesErased +
          ((queues.filter fun queue => ¬ Uncounted queue).map fun queue =>
            (volume (dayOrders queue)).toNat).sum
        priceLevelsErased := result.priceLevelsErased +
          (queues.filter fun queue => ¬ Uncounted queue).countP fun queue =>
            Uncounted (keptOrders queue) } := by
  induction queues generalizing result with
  | nil => rfl
  | cons queue queues inductionHypothesis =>
      rw [List.foldl_cons, inductionHypothesis, addExact]
      by_cases vacant : Uncounted queue
      · simp [vacant]
      · by_cases emptied : Uncounted (keptOrders queue) <;>
          simp [vacant, emptied, Nat.add_assoc, Nat.add_comm 1]

end Fit

/-! ## Both sides -/

section Sides

variable {book book' : OrderBook} {spec : Reference.Book}
variable {side : Side} {result result' : DayOrderPruneResult}

/-- The queues of a side that `on_session_end` looks at. -/
def scannedQueues (book : OrderBook) (spec : Reference.Book) (side : Side) :
    List (List Order) :=
  if (book.ladder side).empty then [] else spec.levelQueues side

theorem sound_scannedQueues (sound : ∀ side, Sound (spec.orders side)) :
    ∀ queue ∈ scannedQueues book spec .buy ++ scannedQueues book spec .sell, Sound queue := by
  have oneSide : ∀ side, ∀ queue ∈ scannedQueues book spec side, Sound queue := by
    intro side queue member
    rw [scannedQueues] at member
    split at member
    · exact absurd member List.not_mem_nil
    · obtain ⟨index, _, rfl⟩ := List.mem_map.mp member
      exact (sound side).sublist List.filter_sublist
  exact List.forall_mem_append.mpr ⟨oneSide .buy, oneSide .sell⟩

theorem Carries.pruneSideSums
    (carries : Carries book spec)
    (side : Side) (result : DayOrderPruneResult) :
    book.pruneSideSums side result = ladderSums result (scannedQueues book spec side) := by
  obtain ⟨addr, free, linked⟩ := carries.linked
  rw [OrderBook.pruneSideSums, scannedQueues]
  by_cases noBest : (book.ladder side).empty = true
  · rw [if_pos noBest, if_pos noBest, ladderSums]
  rw [if_neg noBest, if_neg noBest, ← linked.queues_eq side]
  have started := linked
  rw [← Function.update_eq_self side book.ladder] at started
  exact ladder_pruneSums 0 result started (linked.length_queueAt_le side) (Nat.zero_add _)

/-- The report on a side. -/
theorem Carries.report_pruneSide
    (carries : Carries book spec)
    (pruned : book.pruneSide side result = .ok (result', book')) :
    result' = (scannedQueues book spec side).foldl addCounted result := by
  obtain ⟨addr, free, linked⟩ := carries.linked
  rw [scannedQueues]
  rcases OrderBook.pruneSide_ok pruned with ⟨noBest, rfl, _⟩ | ⟨best, _, _, _, prunedLadder, _⟩
  · rw [if_pos noBest, List.foldl_nil]
  · obtain ⟨_, _, _, _, loop, _⟩ := linked.pruneSide side result
    rw [if_neg best]
    obtain ⟨_, loop', _⟩ := pruneDayOrders_ok prunedLadder
    exact congrArg Prod.fst (Except.ok.inj (loop'.symm.trans loop))

/-- What `on_session_end` leaves of a queue. -/
def survivors (book : OrderBook) (side : Side) (queue : List Order) : List Order :=
  if (book.ladder side).empty ∨ Uncounted queue then queue else keptOrders queue

theorem queueAt_pruned (price : Price) :
    queueAt side price ((pruneAmong spec side (Pruned spec side)).orders side) =
      if Uncounted (queueAt side price (spec.orders side)) then
        queueAt side price (spec.orders side)
      else keptOrders (queueAt side price (spec.orders side)) := by
  by_cases vacant : Uncounted (queueAt side price (spec.orders side))
  · rw [if_pos vacant]
    refine queueAt_pruneAmong fun order _ orderPrice counted => ?_
    rw [Pruned, orderPrice] at counted
    exact counted vacant
  · rw [if_neg vacant, orders_pruneAmong, queueAt_filter]
    refine List.filter_congr fun order inQueue => ?_
    have counted : Pruned spec side order := by
      rw [Pruned, (mem_queueAt.mp inQueue).2]
      exact vacant
    simp [counted]

/-- A book that is left by the loop over one side. -/
theorem Carries.survivors_pruneSide
    (carries : Carries book spec)
    (pruned : book.pruneSide side result = .ok (result', book')) :
    ∃ spec', Carries book' spec' ∧ spec'.minPrice = spec.minPrice ∧
      spec'.maxPrice = spec.maxPrice ∧
      (∀ price, queueAt side price (spec'.orders side) =
        survivors book side (queueAt side price (spec.orders side))) ∧
      spec'.orders side.opposite = spec.orders side.opposite := by
  by_cases noBest : (book.ladder side).empty = true
  · rw [OrderBook.pruneSide, if_pos noBest] at pruned
    obtain ⟨_, rfl⟩ := Prod.mk.inj (Except.ok.inj pruned)
    exact ⟨spec, carries, rfl, rfl, fun price => (if_pos (Or.inl noBest)).symm, rfl⟩
  · have after : Carries book' (pruneAmong spec side (Pruned spec side)) := by
      rcases carries.pruneSide pruned with ⟨none, _⟩ | after
      · exact absurd (Option.isNone_iff_eq_none.mpr none) noBest
      · exact after
    refine ⟨_, after, Reference.Book.setOrders_minPrice ..,
      Reference.Book.setOrders_maxPrice .., fun price => ?_,
      (Reference.Book.orders_setOrders ..).trans (if_neg (Side.opposite_ne side))⟩
    rw [queueAt_pruned, survivors]
    simp [noBest]

/-- The session end of a book whose best prices are in range, whatever its counters say. -/
theorem Carries.onSessionEnd
    (carries : Carries book spec)
    (bounded : OnLadders Bounded book) :
    ∃ after spec',
      book.onSessionEnd = .ok ((scannedQueues book spec .buy ++
        scannedQueues book spec .sell).foldl addCounted {}, after) ∧
      book.sessionEndSums = ladderSums {} (scannedQueues book spec .buy ++
        scannedQueues book spec .sell) ∧
      Carries after spec' ∧ spec'.minPrice = spec.minPrice ∧
      ∀ side price, queueAt side price (spec'.orders side) =
        survivors book side (queueAt side price (spec.orders side)) := by
  obtain ⟨bidsResult, book₁, prunedBids⟩ :=
    carries.exists_pruneSide .buy {} bounded.bids.best
  have sameAsks : book₁.ladder .sell = book.ladder .sell :=
    ladder_pruneSide prunedBids (by decide)
  have bidsReport := carries.report_pruneSide prunedBids
  obtain ⟨spec₁, carries₁, minPrice₁, maxPrice₁, bids₁, asks₁⟩ :=
    carries.survivors_pruneSide prunedBids
  obtain ⟨asksResult, book₂, prunedAsks⟩ := carries₁.exists_pruneSide .sell bidsResult
    (by rw [sameAsks]; exact bounded.asks.best)
  have asksReport := carries₁.report_pruneSide prunedAsks
  obtain ⟨spec₂, carries₂, minPrice₂, _, asks₂, bids₂⟩ :=
    carries₁.survivors_pruneSide prunedAsks
  have sameQueues : scannedQueues book₁ spec₁ .sell = scannedQueues book spec .sell := by
    unfold scannedQueues Reference.Book.levelQueues Reference.Book.queue
    rw [sameAsks, minPrice₁, maxPrice₁, show spec₁.orders .sell = spec.orders .sell from asks₁]
  refine ⟨book₂, spec₂, ?_, ?_, carries₂, minPrice₂.trans minPrice₁, fun side price => ?_⟩
  · rw [List.foldl_append, ← bidsReport, ← sameQueues, ← asksReport]
    simp only [OrderBook.onSessionEnd, prunedBids, ok_bind, prunedAsks]
  · rw [OrderBook.sessionEndSums, prunedBids, carries.pruneSideSums, ladderSums_append]
    simp only [carries₁.pruneSideSums, sameQueues, bidsReport]
  · cases side with
    | buy => rw [show spec₂.orders .buy = spec₁.orders .buy from bids₂, bids₁ price]
    | sell =>
        rw [asks₂ price, show spec₁.orders .sell = spec.orders .sell from asks₁, survivors,
          sameAsks, survivors]

end Sides

end Refinement
end MatchingEngine
