import MatchingEngine.Refinement.Matching

/-!
# Session end prunes the DAY orders

The loop over a level removes orders while it walks the list; its invariant is
that the level holds what has been kept, followed by the suffix still to be
visited.  The loop over a ladder visits the levels whose counters are not zero
and adds them up.  Where no level holds more orders than its counter can count,
the loop over both sides gives the report and the book of the reference
operation.
-/

namespace MatchingEngine
namespace Refinement

open Reference (Order priority orderPriority)
open Reference.Book (dayOrders addPruned)
open OrderBook (Registry)

/-! ## Sums in fixed width -/

theorem toInt32_add (sum value : Int) : toInt32 (toInt32 sum + value) = toInt32 (sum + value) := by
  unfold toInt32
  omega

theorem toUInt64_add_one (count : Nat) :
    toUInt64 ((toUInt64 (count : Int) : Int) + 1) = toUInt64 ((count + 1 : Nat) : Int) := by
  unfold toUInt64
  omega

/-- The statistics after so many orders of so many shares. -/
def pruneStats (orders : Nat) (shares : Int) : LevelPruneStats :=
  { ordersPruned := toUInt64 (orders : Int), quantityPruned := toInt32 shares }

theorem pruneStats_next (orders : Nat) (shares quantity : Int) :
    LevelPruneStats.mk (toUInt64 ((pruneStats orders shares).ordersPruned + 1))
        (toInt32 ((pruneStats orders shares).quantityPruned + quantity)) =
      pruneStats (orders + 1) (shares + quantity) := by
  simp only [pruneStats, toInt32_add, toUInt64_add_one]

theorem dayOrders_cons_of_day
    {order : Order} (day : order.lifetime = .day) (queue : List Order) :
    dayOrders (order :: queue) = order :: dayOrders queue :=
  List.filter_cons_of_pos (by simpa using day)

theorem dayOrders_cons_of_gtc
    {order : Order} (notDay : order.lifetime ≠ .day) (queue : List Order) :
    dayOrders (order :: queue) = dayOrders queue :=
  List.filter_cons_of_neg (by simpa using notDay)

/-! ## Pruning some orders -/

/-- The book without the DAY orders of a side that are among some orders. -/
def pruneAmong (spec : Reference.Book) (side : Side) (among : Order → Prop)
    [DecidablePred among] : Reference.Book :=
  spec.setOrders side
    ((spec.orders side).filter fun order => ¬ (order.lifetime = .day ∧ among order))

section Among

variable {spec : Reference.Book} {side : Side}
variable {among others : Order → Prop} [DecidablePred among] [DecidablePred others]

theorem orders_pruneAmong :
    (pruneAmong spec side among).orders side =
      (spec.orders side).filter fun order => ¬ (order.lifetime = .day ∧ among order) :=
  Reference.Book.orders_setOrders_self ..

theorem pruneAmong_congr
    (same : ∀ order ∈ spec.orders side, order.lifetime = .day →
      (among order ↔ others order)) :
    pruneAmong spec side among = pruneAmong spec side others := by
  refine congrArg _ (List.filter_congr fun order member => ?_)
  rw [decide_eq_decide]
  exact not_congr (and_congr_right (same order member))

theorem pruneAmong_of_none
    (none : ∀ order ∈ spec.orders side, order.lifetime = .day → ¬ among order) :
    pruneAmong spec side among = spec := by
  have kept : (spec.orders side).filter
      (fun order => ¬ (order.lifetime = .day ∧ among order)) = spec.orders side :=
    List.filter_eq_self.mpr fun order member =>
      decide_eq_true fun pruned => none order member pruned.1 pruned.2
  rw [pruneAmong, kept, Reference.Book.setOrders_orders]

theorem pruneAmong_pruneAmong :
    pruneAmong (pruneAmong spec side among) side others =
      pruneAmong spec side fun order => among order ∨ others order := by
  unfold pruneAmong
  rw [Reference.Book.setOrders_setOrders, Reference.Book.orders_setOrders_self,
    List.filter_filter]
  refine congrArg _ (List.filter_congr fun order _ => ?_)
  rw [← Bool.decide_and, decide_eq_decide]
  tauto

/-- Removing a DAY order prunes it. -/
theorem remove_pruneAmong
    {order : Order} {rest : List Order}
    (distinct : spec.Distinct)
    (member : order ∈ spec.orders side)
    (day : order.lifetime = .day) :
    pruneAmong (spec.remove order.id) side (· ∈ rest) =
      pruneAmong spec side (· ∈ order :: rest) := by
  have removed : spec.remove order.id = pruneAmong spec side (· = order) := by
    rw [distinct.remove_eq_setOrders member]
    refine congrArg _ (List.filter_congr fun other inSide => ?_)
    rw [decide_eq_decide]
    refine not_congr ⟨fun equal => ?_, fun pruned => congrArg Order.id pruned.2⟩
    obtain ⟨_, rfl⟩ := distinct.eq_of_id_eq inSide member equal
    exact ⟨day, rfl⟩
  rw [removed, pruneAmong_pruneAmong]
  exact pruneAmong_congr fun other _ _ => List.mem_cons.symm

theorem orders_pruneAmong_sublist (other : Side) :
    ((pruneAmong spec side among).orders other).Sublist (spec.orders other) :=
  Reference.Book.orders_setOrders_sublist List.filter_sublist other

/-- The queue of a price none of whose DAY orders is pruned. -/
theorem queueAt_pruneAmong
    {price : Price}
    (none : ∀ order ∈ spec.orders side, order.price = price → ¬ among order) :
    queueAt side price ((pruneAmong spec side among).orders side) =
      queueAt side price (spec.orders side) := by
  rw [orders_pruneAmong, queueAt_filter]
  refine List.filter_eq_self.mpr fun order inQueue => ?_
  obtain ⟨member, orderPrice⟩ := mem_queueAt.mp inQueue
  simp [none order member orderPrice]

/-- Pruning one price leaves the queues of the others alone. -/
theorem queueAt_prunePrice_of_ne
    {price other : Price}
    (different : other ≠ price) :
    queueAt side other ((pruneAmong spec side fun order => order.price = price).orders side) =
      queueAt side other (spec.orders side) :=
  queueAt_pruneAmong fun _ _ orderPrice same => different (orderPrice.symm.trans same)

/-- Pruning one price leaves the queues of the levels after it alone. -/
theorem laterQueues_prunePrice (minPrice : Price) (index count : Nat) :
    (List.range' (index + 1) count).map (fun (i : Nat) =>
        queueAt side (minPrice + i) ((pruneAmong spec side fun order =>
          order.price = minPrice + index).orders side)) =
      (List.range' (index + 1) count).map fun (i : Nat) =>
        queueAt side (minPrice + i) (spec.orders side) := by
  refine List.map_congr_left fun i later => queueAt_prunePrice_of_ne ?_
  have after := (List.mem_range'_1.mp later).1
  lia

theorem length_queueAt_pruneAmong_le (price : Price) :
    (queueAt side price ((pruneAmong spec side among).orders side)).length ≤
      (queueAt side price (spec.orders side)).length := by
  rw [orders_pruneAmong, queueAt_filter]
  exact List.length_filter_le _ _

end Among

/-! ## One level -/

section Level

variable {heap : Heap} {registry : Registry} {ladders : Side → PriceLadder}
variable {addr : OrderID → BlockAddress} {free : List BlockAddress} {spec : Reference.Book}
variable {side : Side} {ladder : PriceLadder} {price : Price}

/-- The level that was stored last is the one at its price. -/
theorem level_of_update
    {level : PriceLevel}
    (linked : Linked heap registry
      (Function.update ladders side (ladder.setLevel (indexOf ladder price) level)) addr free
      spec)
    (inRange : InRange ladder price) :
    (ladder.setLevel (indexOf ladder price) level).level (indexOf ladder price) = .ok level ∧
      level.price = price ∧
      LevelLinks heap addr ⟨side, indexOf ladder price⟩ level
        (queueAt side price (spec.orders side)) := by
  have links := linked.links side
  rw [Function.update_self] at links
  obtain ⟨found, access, levelPrice, levelLinks⟩ := links.level_of inRange
  have inside : indexOf ladder price < ladder.levels.length := by
    have updated := links.toShape.indexOf_lt inRange
    simp only [PriceLadder.setLevel, List.length_set] at updated
    exact updated
  have stored : (ladder.setLevel (indexOf ladder price) level).level
      (indexOf ladder price) = .ok level := by
    simp only [PriceLadder.level, PriceLadder.setLevel]
    rw [List.getElem?_set_self inside]
  obtain rfl : found = level := Except.ok.inj (access.symm.trans stored)
  exact ⟨stored, levelPrice, levelLinks⟩

/-- Removing one order from the level that was stored last. -/
theorem removeFromLevel
    {order : Order} {front rest : List Order} {level : PriceLevel}
    (linked : Linked heap registry
      (Function.update ladders side (ladder.setLevel (indexOf ladder price) level)) addr free
      spec)
    (inRange : InRange ladder price)
    (split : queueAt side price (spec.orders side) = front ++ order :: rest) :
    ∃ outcome level' heap' registry' heap'' free',
      level.removeOrder ⟨side, indexOf ladder price⟩ (addr order.id) heap =
        .ok (outcome, level', heap') ∧
      OrderBook.retireOrder (addr order.id) registry heap' = .ok (registry', heap'') ∧
      Linked heap'' registry'
        (Function.update ladders side (ladder.setLevel (indexOf ladder price) level')) addr
        free' (spec.remove order.id) ∧
      (Core heap registry
          (Function.update ladders side (ladder.setLevel (indexOf ladder price) level)) addr
          free spec →
        Roomy side (spec.orders side) →
        Core heap'' registry'
          (Function.update ladders side (ladder.setLevel (indexOf ladder price) level')) addr
          free' (spec.remove order.id)) := by
  obtain ⟨access, levelPrice, levelLinks⟩ := level_of_update linked inRange
  rw [split] at levelLinks
  have inQueue : order ∈ queueAt side price (spec.orders side) := by
    rw [split]
    exact List.mem_append_right front List.mem_cons_self
  obtain ⟨member, rfl⟩ := mem_queueAt.mp inQueue
  obtain ⟨level', heap', removedOrder, removed⟩ := levelLinks.removeOrder
  have sameIndex : indexOf (Function.update ladders side
      (ladder.setLevel (indexOf ladder order.price) level) side) order.price =
        indexOf ladder order.price := by
    rw [Function.update_self]
    rfl
  have overwritten : (ladder.setLevel (indexOf ladder order.price) level).setLevel
      (indexOf ladder order.price) level' =
        ladder.setLevel (indexOf ladder order.price) level' := by
    simp only [PriceLadder.setLevel, List.set_set]
  rw [← sameIndex] at removed
  obtain ⟨pool, heap'', deallocated, after⟩ := linked.detach member split levelPrice removed
  rw [sameIndex, Function.update_self, Function.update_idem, overwritten] at after
  refine ⟨_, level', heap', _, heap'', _, removedOrder, ?_, after, fun core roomy => ?_⟩
  · simp only [OrderBook.retireOrder, Heap.order_eq_ok removed.block, deallocated, ok_bind]
    rfl
  · have accessed : (Function.update ladders side
        (ladder.setLevel (indexOf ladder order.price) level) side).level
          (indexOf (Function.update ladders side
            (ladder.setLevel (indexOf ladder order.price) level) side) order.price) =
            .ok level := by
      rw [sameIndex, Function.update_self]
      exact access
    have levelHolds := core.levelHolds accessed member
    rw [split] at levelHolds
    obtain ⟨pool', heap₂, deallocated', coreAfter⟩ :=
      core.detach roomy member split levelPrice levelHolds removed
    obtain ⟨rfl, rfl⟩ := Prod.mk.inj (Except.ok.inj (deallocated'.symm.trans deallocated))
    rwa [sameIndex, Function.update_self, Function.update_idem, overwritten] at coreAfter

/-- The loop over a level, from the first order of `rest` on. -/
theorem pruneLoop
    {rest front : List Order} {level : PriceLevel} {fuel : Nat}
    (orders : Nat) (shares : Int)
    (linked : Linked heap registry
      (Function.update ladders side (ladder.setLevel (indexOf ladder price) level)) addr free
      spec)
    (inRange : InRange ladder price)
    (split : queueAt side price (spec.orders side) = front ++ rest)
    (enough : rest.length ≤ fuel) :
    ∃ level' registry' heap' free',
      PriceLevel.pruneLoop ⟨side, indexOf ladder price⟩ OrderBook.retireOrder fuel
          (blocks addr rest).head? (pruneStats orders shares) level registry heap =
        .ok (pruneStats (orders + (dayOrders rest).length)
          (shares + volume (dayOrders rest)), level', registry', heap') ∧
      Linked heap' registry'
        (Function.update ladders side (ladder.setLevel (indexOf ladder price) level')) addr
        free' (pruneAmong spec side (· ∈ rest)) ∧
      (Core heap registry
          (Function.update ladders side (ladder.setLevel (indexOf ladder price) level)) addr
          free spec →
        Roomy side (spec.orders side) →
        Core heap' registry'
          (Function.update ladders side (ladder.setLevel (indexOf ladder price) level')) addr
          free' (pruneAmong spec side (· ∈ rest))) := by
  induction rest generalizing front level fuel orders shares heap registry free spec with
  | nil =>
      refine ⟨level, registry, heap, free, ?_, ?_⟩
      · cases fuel <;> simp [PriceLevel.pruneLoop, blocks, dayOrders]
      · rw [pruneAmong_of_none fun order _ _ => List.not_mem_nil]
        exact ⟨linked, fun core _ => core⟩
  | cons order rest inductionHypothesis =>
      obtain ⟨fuel, rfl⟩ : ∃ less, fuel = less + 1 :=
        ⟨fuel - 1, by rw [List.length_cons] at enough; omega⟩
      obtain ⟨_, _, levelLinks⟩ := level_of_update linked inRange
      rw [split] at levelLinks
      have inQueue : order ∈ queueAt side price (spec.orders side) := by
        rw [split]
        exact List.mem_append_right front List.mem_cons_self
      have member := (mem_queueAt.mp inQueue).1
      obtain ⟨block, stored, contents⟩ := levelLinks.block_order
        (show order ∈ front ++ order :: rest by simp)
      have next : block.next = (blocks addr rest).head? :=
        (levelLinks.links_of_stored stored).1
      have lifetime : block.lifetime = order.lifetime :=
        congrArg RestingOrder.lifetime contents
      have quantity : block.quantity = order.quantity :=
        congrArg RestingOrder.quantity contents
      have head : (blocks addr (order :: rest)).head? = some (addr order.id) := rfl
      simp only [head, PriceLevel.pruneLoop, Heap.order_eq_ok stored, ok_bind, lifetime, next,
        quantity]
      by_cases day : order.lifetime = .day
      · obtain ⟨outcome, level₁, heap₁, registry₁, heap₂, free₁, removed, retired, after,
          coreAfter⟩ := removeFromLevel linked inRange split
        obtain ⟨level', registry', heap', free', loop, linkedAfter, coreLoop⟩ :=
          inductionHypothesis (orders + 1) (shares + order.quantity) after
            (queueAt_remove linked.distinct split) (Nat.le_of_succ_le_succ enough)
        rw [remove_pruneAmong linked.distinct member day] at linkedAfter coreLoop
        refine ⟨level', registry', heap', free', ?_, linkedAfter, fun core roomy => ?_⟩
        · simp only [day, if_true, removed, retired, ok_bind,
            pruneStats_next orders shares order.quantity]
          refine loop.trans ?_
          rw [dayOrders_cons_of_day day, List.length_cons, volume_cons, Nat.add_assoc,
            Nat.add_comm 1, Int.add_assoc]
        · refine coreLoop (coreAfter core roomy) (roomy.sublist ?_)
          rw [Reference.Book.orders_remove]
          exact List.filter_sublist
      · obtain ⟨level', registry', heap', free', loop, linkedAfter, coreLoop⟩ :=
          inductionHypothesis orders shares linked
            (show queueAt side price (spec.orders side) = (front ++ [order]) ++ rest by
              rw [split, List.append_assoc, List.singleton_append])
            (Nat.le_of_succ_le_succ enough)
        have sameOrders : pruneAmong spec side (· ∈ order :: rest) =
            pruneAmong spec side (· ∈ rest) := by
          refine pruneAmong_congr fun other _ isDay => ?_
          rw [List.mem_cons, or_iff_right]
          rintro rfl
          exact day isDay
        rw [sameOrders]
        refine ⟨level', registry', heap', free', ?_, linkedAfter, coreLoop⟩
        simp only [day, if_false]
        refine loop.trans ?_
        rw [dayOrders_cons_of_gtc day]

theorem setLevel_self {index : Nat} {level : PriceLevel}
    (access : ladder.level index = .ok level) :
    ladder.setLevel index level = ladder := by
  unfold PriceLadder.level at access
  cases found : ladder.levels[index]? with
  | none => simp [found] at access
  | some stored =>
      obtain rfl : stored = level := by simpa [found] using access
      obtain ⟨inside, rfl⟩ := List.getElem?_eq_some_iff.mp found
      simp only [PriceLadder.setLevel, List.set_getElem_self]

/-- The orders of a queue that are not DAY orders. -/
def keptOrders (orders : List Order) : List Order :=
  orders.filter fun order => order.lifetime ≠ .day

/-- Pruning one level. -/
theorem pruneLevel
    {index fuel : Nat} {level : PriceLevel}
    (linked : Linked heap registry (Function.update ladders side ladder) addr free spec)
    (inside : index < ladder.levels.length)
    (access : ladder.level index = .ok level)
    (enough : (queueAt side (ladder.minPrice + index) (spec.orders side)).length ≤ fuel) :
    ∃ level' registry' heap' free',
      level.pruneDayOrders ⟨side, index⟩ fuel OrderBook.retireOrder registry heap =
        .ok (pruneStats
          (dayOrders (queueAt side (ladder.minPrice + index) (spec.orders side))).length
          (volume (dayOrders (queueAt side (ladder.minPrice + index) (spec.orders side)))),
          level', registry', heap') ∧
      (level'.empty = true ↔
        Uncounted (keptOrders (queueAt side (ladder.minPrice + index) (spec.orders side)))) ∧
      Linked heap' registry' (Function.update ladders side (ladder.setLevel index level')) addr
        free' (pruneAmong spec side fun order => order.price = ladder.minPrice + index) ∧
      (Core heap registry (Function.update ladders side ladder) addr free spec →
        Roomy side (spec.orders side) →
        Core heap' registry' (Function.update ladders side (ladder.setLevel index level')) addr
          free' (pruneAmong spec side fun order => order.price = ladder.minPrice + index)) := by
  have links := linked.links side
  rw [Function.update_self] at links
  have inRange := links.toShape.inRange_of_lt inside
  have indexEquality : indexOf ladder (ladder.minPrice + index) = index :=
    Shape.indexOf_add index
  have sameLadder : ladder.setLevel (indexOf ladder (ladder.minPrice + index)) level =
      ladder := by
    rw [indexEquality, setLevel_self access]
  have stored : Linked heap registry (Function.update ladders side (ladder.setLevel
      (indexOf ladder (ladder.minPrice + index)) level)) addr free spec := by
    rw [sameLadder]
    exact linked
  obtain ⟨_, _, levelLinks⟩ := level_of_update stored inRange
  have head : level.head =
      (blocks addr (queueAt side (ladder.minPrice + index) (spec.orders side))).head? := by
    rw [levelLinks.head_eq, blocks, List.head?_map]
  obtain ⟨level', registry', heap', free', loop, linkedAfter, coreLoop⟩ :=
    pruneLoop 0 0 stored inRange
      (show queueAt side (ladder.minPrice + index) (spec.orders side) =
        [] ++ queueAt side (ladder.minPrice + index) (spec.orders side) from rfl) enough
  have ofPrice : pruneAmong spec side
        (· ∈ queueAt side (ladder.minPrice + index) (spec.orders side)) =
      pruneAmong spec side fun order => order.price = ladder.minPrice + index :=
    pruneAmong_congr fun order member _ => mem_queueAt.trans (and_iff_right member)
  rw [indexEquality, Nat.zero_add, zero_add] at loop
  rw [ofPrice] at linkedAfter coreLoop
  obtain ⟨_, _, levelAfter⟩ := level_of_update linkedAfter inRange
  have queueAfter : queueAt side (ladder.minPrice + index) ((pruneAmong spec side fun order =>
      order.price = ladder.minPrice + index).orders side) =
        keptOrders (queueAt side (ladder.minPrice + index) (spec.orders side)) := by
    rw [orders_pruneAmong, queueAt_filter]
    refine List.filter_congr fun order inQueue => ?_
    simp [(mem_queueAt.mp inQueue).2]
  rw [queueAfter] at levelAfter
  rw [sameLadder, indexEquality] at coreLoop
  rw [indexEquality] at linkedAfter
  refine ⟨level', registry', heap', free', ?_, levelAfter.empty_iff, linkedAfter, coreLoop⟩
  rw [PriceLevel.pruneDayOrders, head]
  exact loop

/-- What the engine adds up for a level whose counter is not zero. -/
def addCounted (result : DayOrderPruneResult) (queue : List Order) : DayOrderPruneResult :=
  if Uncounted queue then result
  else
    { ordersPruned := toUInt64 (result.ordersPruned +
        (pruneStats (dayOrders queue).length (volume (dayOrders queue))).ordersPruned)
      sharesErased := toUInt64 (result.sharesErased +
        (pruneStats (dayOrders queue).length (volume (dayOrders queue))).quantityPruned)
      priceLevelsErased :=
        if Uncounted (keptOrders queue) then toUInt32 (result.priceLevelsErased + 1)
        else result.priceLevelsErased }

theorem addCounted_of_uncounted
    {queue : List Order}
    (uncounted : Uncounted queue)
    (result : DayOrderPruneResult) :
    addCounted result queue = result :=
  if_pos uncounted

/-- Nothing is kept of a queue that consists of DAY orders. -/
theorem keptOrders_eq_nil {queue : List Order} :
    keptOrders queue = [] ↔ dayOrders queue = queue := by
  rw [keptOrders, dayOrders, List.filter_eq_nil_iff, List.filter_eq_self]
  simp

/-- What the engine adds up for a level that is not too full is what the reference
adds for its queue. -/
theorem addCounted_eq
    {queue : List Order}
    (result : DayOrderPruneResult)
    (capacity : queue.length < 4294967296) :
    addCounted result queue = addPruned result queue := by
  have shorter : (dayOrders queue).length ≤ queue.length := List.length_filter_le _ _
  have keptShorter : (keptOrders queue).length ≤ queue.length := List.length_filter_le _ _
  have exact : toUInt64 ((dayOrders queue).length : Int) = (dayOrders queue).length :=
    toUInt64_natCast (by omega)
  simp only [addCounted, addPruned, pruneStats, uncounted_iff capacity, exact,
    uncounted_iff (keptShorter.trans_lt capacity), keptOrders_eq_nil]
  rfl

/-- The prices whose orders are pruned: those whose levels do not count zero. -/
def Pruned (spec : Reference.Book) (side : Side) (order : Order) : Prop :=
  ¬ Uncounted (queueAt side order.price (spec.orders side))

instance (spec : Reference.Book) (side : Side) : DecidablePred (Pruned spec side) :=
  fun _ => inferInstanceAs (Decidable (¬ _))

/-- Where the level of a price counts zero, pruning starts above it. -/
theorem pruneAmong_above
    (vacant : Uncounted (queueAt side price (spec.orders side))) :
    pruneAmong spec side (fun order => price + 1 ≤ order.price ∧ Pruned spec side order) =
      pruneAmong spec side fun order => price ≤ order.price ∧ Pruned spec side order := by
  refine pruneAmong_congr fun order _ _ => and_congr_left fun pruned => ?_
  have different : order.price ≠ price := by
    intro same
    rw [Pruned, same] at pruned
    exact pruned vacant
  lia

/-- Pruning a price first, and then those above it. -/
theorem pruneAmong_here_above
    (occupied : ¬ Uncounted (queueAt side price (spec.orders side))) :
    pruneAmong (pruneAmong spec side fun order => order.price = price) side (fun order =>
        price + 1 ≤ order.price ∧
          Pruned (pruneAmong spec side fun order => order.price = price) side order) =
      pruneAmong spec side fun order => price ≤ order.price ∧ Pruned spec side order := by
  rw [pruneAmong_pruneAmong]
  refine pruneAmong_congr fun order _ _ => ?_
  by_cases here : order.price = price
  · simp only [here, true_or, le_refl, true_and, Pruned, true_iff]
    exact occupied
  · rw [Pruned, Pruned, queueAt_prunePrice_of_ne here, or_iff_right here]
    refine and_congr_left fun _ => ?_
    lia

/-- The loop over a ladder, from an index on. -/
theorem pruneLevels
    {fuel count : Nat} (index : Nat) (dayResult : DayOrderPruneResult)
    (linked : Linked heap registry (Function.update ladders side ladder) addr free spec)
    (enough : ∀ price, (queueAt side price (spec.orders side)).length ≤ fuel)
    (covered : index + count = ladder.levels.length) :
    ∃ ladder' registry' heap' free',
      PriceLadder.pruneLevels fuel OrderBook.retireOrder count index dayResult ladder registry
          heap =
        .ok (((List.range' index count).map fun (i : Nat) =>
          queueAt side (ladder.minPrice + i) (spec.orders side)).foldl addCounted dayResult,
          ladder', registry', heap') ∧
      ladder'.bestPrice = ladder.bestPrice ∧
      Linked heap' registry' (Function.update ladders side ladder') addr free'
        (pruneAmong spec side fun order =>
          ladder.minPrice + index ≤ order.price ∧ Pruned spec side order) ∧
      (Core heap registry (Function.update ladders side ladder) addr free spec →
        Roomy side (spec.orders side) →
        Core heap' registry' (Function.update ladders side ladder') addr free'
          (pruneAmong spec side fun order =>
            ladder.minPrice + index ≤ order.price ∧ Pruned spec side order)) := by
  have links := linked.links side
  rw [Function.update_self] at links
  induction count generalizing index dayResult ladder registry heap free spec with
  | zero =>
      have nothing : pruneAmong spec side (fun order =>
          ladder.minPrice + index ≤ order.price ∧ Pruned spec side order) = spec := by
        refine pruneAmong_of_none fun order member _ pruned => ?_
        have upper := (links.inRange order member).2
        have length := links.length
        have lower := pruned.1
        lia
      refine ⟨ladder, registry, heap, free, rfl, rfl, ?_⟩
      rw [nothing]
      exact ⟨linked, fun core _ => core⟩
  | succ count inductionHypothesis =>
      have inside : index < ladder.levels.length := by omega
      obtain ⟨level, access, _, levelLinks⟩ := links.level_at inside
      have counted := levelLinks.empty_iff
      have nextPrice : ladder.minPrice + (index + 1 : Nat) = ladder.minPrice + index + 1 := by
        push_cast
        lia
      simp only [List.range'_succ, List.map_cons, List.foldl_cons]
      by_cases vacant :
          Uncounted (queueAt side (ladder.minPrice + index) (spec.orders side))
      · obtain ⟨ladder', registry', heap', free', loop, best, linkedAfter, coreLoop⟩ :=
          inductionHypothesis (index + 1) dayResult linked enough (by omega) links
        simp only [nextPrice, pruneAmong_above vacant] at linkedAfter coreLoop
        refine ⟨ladder', registry', heap', free', ?_, best, linkedAfter, coreLoop⟩
        rw [addCounted_of_uncounted vacant, ← loop, PriceLadder.pruneLevels, access, ok_bind,
          if_neg (by simp [counted.mpr vacant])]
      · obtain ⟨level', registry₁, heap₁, free₁, pruned, emptied, linkedLevel, coreLevel⟩ :=
          pruneLevel linked inside access (enough _)
        have linksLevel := linkedLevel.links side
        rw [Function.update_self] at linksLevel
        obtain ⟨ladder', registry', heap', free', loop, best, linkedAfter, coreLoop⟩ :=
          inductionHypothesis (index + 1) (addCounted dayResult
            (queueAt side (ladder.minPrice + index) (spec.orders side))) linkedLevel
            (fun price => (length_queueAt_pruneAmong_le price).trans (enough price))
            (by simp only [PriceLadder.setLevel, List.length_set]; omega) linksLevel
        rw [setLevel_minPrice, laterQueues_prunePrice] at loop
        simp only [setLevel_minPrice, nextPrice, pruneAmong_here_above vacant]
          at linkedAfter coreLoop
        refine ⟨ladder', registry', heap', free', ?_, best.trans rfl, linkedAfter,
          fun core roomy => coreLoop (coreLevel core roomy) ?_⟩
        · rw [← loop, PriceLadder.pruneLevels, access, ok_bind,
            if_pos (by simpa using fun empty => vacant (counted.mp empty)), links.side_eq,
            pruned, ok_bind, addCounted, if_neg vacant]
          simp only [emptied]
        · rw [orders_pruneAmong]
          exact roomy.sublist List.filter_sublist

end Level

/-! ## One side -/

variable {book : OrderBook} {spec : Reference.Book}

theorem foldl_addPruned_of_empty
    {queues : List (List Order)}
    (empty : ∀ queue ∈ queues, queue = [])
    (result : DayOrderPruneResult) :
    queues.foldl addPruned result = result := by
  induction queues with
  | nil => rfl
  | cons queue queues inductionHypothesis =>
      rw [List.foldl_cons, empty queue List.mem_cons_self, addPruned, if_pos rfl]
      exact inductionHypothesis fun other member => empty other (List.mem_cons_of_mem _ member)

/-- The queues of the levels of a ladder, from the first. -/
theorem Linked.queues_eq
    {addr : OrderID → BlockAddress} {free : List BlockAddress}
    (linked : Linked book.heap (registryOf book) book.ladder addr free spec)
    (side : Side) :
    (List.range' 0 (book.ladder side).levels.length).map (fun (i : Nat) =>
        queueAt side ((book.ladder side).minPrice + i) (spec.orders side)) =
      spec.levelQueues side := by
  have length := (linked.links side).length
  rw [linked.minPrice side, linked.maxPrice side] at length
  rw [Reference.Book.levelQueues, ← length, linked.minPrice side, Int.toNat_natCast,
    List.range_eq_range']
  rfl

/-- What the loop over the ladder of a side does to the members of the book. -/
theorem Linked.pruneSide
    {addr : OrderID → BlockAddress} {free : List BlockAddress}
    (linked : Linked book.heap (registryOf book) book.ladder addr free spec)
    (side : Side) (result : DayOrderPruneResult) :
    ∃ ladder' registry' heap' free',
      PriceLadder.pruneLevels book.memoryPool.currentlyAllocated OrderBook.retireOrder
          (book.ladder side).levels.length 0 result (book.ladder side) (registryOf book)
          book.heap =
        .ok ((spec.levelQueues side).foldl addCounted result, ladder', registry', heap') ∧
      ladder'.bestPrice = (book.ladder side).bestPrice ∧
      Linked heap' registry' (Function.update book.ladder side ladder') addr free'
        (pruneAmong spec side (Pruned spec side)) ∧
      (Core book.heap (registryOf book) book.ladder addr free spec →
        Roomy side (spec.orders side) →
        Core heap' registry' (Function.update book.ladder side ladder') addr free'
          (pruneAmong spec side (Pruned spec side))) := by
  have started := linked
  rw [← Function.update_eq_self side book.ladder] at started
  have pruned := pruneLevels 0 result started (linked.length_queueAt_le side) (Nat.zero_add _)
  have allPrices : pruneAmong spec side (fun order =>
      (book.ladder side).minPrice + (0 : Nat) ≤ order.price ∧ Pruned spec side order) =
        pruneAmong spec side (Pruned spec side) := by
    refine pruneAmong_congr fun order member _ => and_iff_right ?_
    have lower := (linked.inRange member).1
    push_cast
    lia
  simp only [Function.update_eq_self, linked.queues_eq, allPrices] at pruned
  exact pruned

/-- Pruning a side prunes the levels that do not count zero, unless the side has no
best price. -/
theorem Carries.pruneSide
    (carries : Carries book spec)
    {book' : OrderBook} {side : Side} {result result' : DayOrderPruneResult}
    (pruned : book.pruneSide side result = .ok (result', book')) :
    ((book.ladder side).bestPrice = none ∧ book' = book) ∨
      Carries book' (pruneAmong spec side (Pruned spec side)) := by
  obtain ⟨addr, free, linked⟩ := carries.linked
  rcases OrderBook.pruneSide_ok pruned with
    ⟨noBest, _, rfl⟩ | ⟨_, levels, _, _, prunedLadder, rfl⟩
  · exact Or.inl ⟨Option.isNone_iff_eq_none.mp noBest, rfl⟩
  · obtain ⟨emptied, registry', heap', _, loop, _, after, _⟩ := linked.pruneSide side result
    obtain ⟨emptied', loop', refreshed⟩ := pruneDayOrders_ok prunedLadder
    cases loop.symm.trans loop'
    have links := after.links side
    rw [Function.update_self] at links
    obtain ⟨best, rfl⟩ := eq_withBest_of_refreshBest refreshed
    exact Or.inr (carries.of_linked (after.withBest best)
      (fun other different => (Reference.Book.orders_setOrders ..).trans (if_neg different))
      (fun price isBest => links.rests_of_refreshBest refreshed isBest)
      (Reference.Book.setOrders_minPrice ..) (Reference.Book.setOrders_maxPrice ..))

/-- Pruning a side leaves the ladder of the other side alone. -/
theorem ladder_pruneSide
    {book' : OrderBook} {side other : Side} {result result' : DayOrderPruneResult}
    (pruned : book.pruneSide side result = .ok (result', book'))
    (different : other ≠ side) :
    book'.ladder other = book.ladder other := by
  rcases OrderBook.pruneSide_ok pruned with ⟨_, _, rfl⟩ | ⟨_, levels, registry, heap, _, rfl⟩
  · rfl
  · rw [ladder_setLadder, Function.update_of_ne different]
    cases other <;> rfl

/-- A side whose best price is in range can be pruned. -/
theorem Carries.exists_pruneSide
    (carries : Carries book spec)
    (side : Side) (result : DayOrderPruneResult)
    (best : ∀ price, (book.ladder side).bestPrice = some price →
      InRange (book.ladder side) price) :
    ∃ result' book', book.pruneSide side result = .ok (result', book') := by
  obtain ⟨addr, free, linked⟩ := carries.linked
  obtain ⟨ladder', registry', heap', free', loop, sameBest, after, _⟩ :=
    linked.pruneSide side result
  have links := after.links side
  rw [Function.update_self] at links
  suffices pruned : ∃ answer, (book.ladder side).pruneDayOrders
      book.memoryPool.currentlyAllocated OrderBook.retireOrder result (registryOf book)
      book.heap = .ok answer by
    obtain ⟨answer, pruned⟩ := pruned
    rw [OrderBook.pruneSide]
    split
    · exact ⟨_, _, rfl⟩
    · exact ⟨_, _, congrArg (· >>= _) pruned⟩
  rw [PriceLadder.pruneDayOrders, loop, ok_bind]
  simp only
  cases isBest : ladder'.bestPrice with
  | none => exact ⟨_, rfl⟩
  | some price =>
      have minPrice := after.minPrice side
      have maxPrice := after.maxPrice side
      rw [Function.update_self] at minPrice maxPrice
      have inRange : InRange ladder' price := by
        have old := best price (sameBest.symm.trans isBest)
        unfold InRange at old ⊢
        rw [linked.minPrice side, linked.maxPrice side] at old
        rw [minPrice, maxPrice, pruneAmong, Reference.Book.setOrders_minPrice,
          Reference.Book.setOrders_maxPrice]
        exact old
      obtain ⟨level, access, _⟩ := links.level_of inRange
      simp only [links.toShape.getLevelAtPrice inRange, access, ok_bind]
      split
      · obtain ⟨refreshed, refresh⟩ := links.updateBestPriceFromGiven inRange
        rw [refresh]
        exact ⟨_, rfl⟩
      · exact ⟨_, rfl⟩

/-- Where the counters are exact, all DAY orders of the side are pruned. -/
theorem pruneAmong_of_roomy
    {side : Side}
    (roomy : Roomy side (spec.orders side)) :
    pruneAmong spec side (Pruned spec side) =
      spec.setOrders side (keptOrders (spec.orders side)) := by
  refine congrArg _ (List.filter_congr fun order member => ?_)
  have counted : Pruned spec side order := by
    rw [Pruned, uncounted_iff (roomy order.price)]
    exact List.ne_nil_of_mem (mem_queueAt.mpr ⟨member, rfl⟩)
  rw [decide_eq_decide, and_iff_left counted]

theorem foldl_addCounted
    {side : Side}
    (roomy : Roomy side (spec.orders side))
    (result : DayOrderPruneResult) :
    (spec.levelQueues side).foldl addCounted result =
      (spec.levelQueues side).foldl addPruned result := by
  rw [Reference.Book.levelQueues, List.foldl_map, List.foldl_map]
  exact List.foldl_ext _ _ _ fun result index _ => addCounted_eq result (roomy _)

/-- Pruning the ladder of a side that holds an order. -/
theorem pruneDayOrders
    (refines : Refines book spec)
    (roomy : RoomyBook spec)
    {side : Side} {head : Order} {tail : List Order}
    (orders : spec.orders side = head :: tail)
    (result : DayOrderPruneResult) :
    ∃ ladder' registry' heap' addr free',
      (book.ladder side).pruneDayOrders book.memoryPool.currentlyAllocated
          OrderBook.retireOrder result (registryOf book) book.heap =
        .ok ((spec.levelQueues side).foldl addPruned result,
          { ladder' with bestPrice := bestOf (keptOrders (spec.orders side)) },
          registry', heap') ∧
      Core heap' registry' (Function.update book.ladder side ladder') addr free'
        (spec.setOrders side (keptOrders (spec.orders side))) := by
  obtain ⟨addr, free, core⟩ := refines.core
  obtain ⟨ladder', registry', heap', free', loop, sameBest, _, coreAfter⟩ :=
    core.toLinked.pruneSide side result
  have after := coreAfter core (roomy side)
  rw [pruneAmong_of_roomy (roomy side)] at after
  rw [foldl_addCounted (roomy side)] at loop
  have holds := after.holds side
  rw [Function.update_self, Reference.Book.orders_setOrders_self] at holds
  have inRange : InRange ladder' head.price := by
    have old := core.inRange (show head ∈ spec.orders side from orders ▸ List.mem_cons_self)
    have newMin := after.minPrice side
    have newMax := after.maxPrice side
    rw [Function.update_self, Reference.Book.setOrders_minPrice] at newMin
    rw [Function.update_self, Reference.Book.setOrders_maxPrice] at newMax
    unfold InRange at old ⊢
    rwa [newMin, newMax, ← core.minPrice side, ← core.maxPrice side]
  have roomyKept : Roomy side (keptOrders (spec.orders side)) :=
    (roomy side).sublist List.filter_sublist
  obtain ⟨level, access, _, levelHolds⟩ := holds.level_of inRange
  have emptied := levelHolds.toTallies.empty_iff (roomyKept head.price)
  have best : bestOf (spec.orders side) = some head.price := by
    rw [orders]
    rfl
  have least : ∀ order ∈ keptOrders (spec.orders side),
      priority side head.price ≤ orderPriority side order := fun order member =>
    least_of_best (core.holds side).sorted best order (List.mem_of_mem_filter member)
  have ladderBest : ladder'.bestPrice = some head.price := by
    rw [sameBest, refines.best side, best]
  refine ⟨ladder', registry', heap', addr, free', ?_, after⟩
  rw [PriceLadder.pruneDayOrders, loop, ok_bind]
  simp only [ladderBest, holds.toShape.getLevelAtPrice inRange, access, ok_bind]
  by_cases vacant : queueAt side head.price (keptOrders (spec.orders side)) = []
  · rw [if_pos (emptied.mpr vacant),
      holds.updateBestPriceFromGiven roomyKept inRange least, ok_bind]
  · rw [if_neg fun empty => vacant (emptied.mp empty),
      LadderHolds.bestOf_eq_some holds.sorted least vacant, ← ladderBest]

/-- Pruning one side of the book. -/
theorem pruneSide
    (refines : Refines book spec)
    (roomy : RoomyBook spec)
    (side : Side) (result : DayOrderPruneResult) :
    ∃ book',
      book.pruneSide side result =
        .ok ((spec.levelQueues side).foldl addPruned result, book') ∧
      Refines book' (spec.setOrders side (keptOrders (spec.orders side))) := by
  have best := refines.best side
  cases orders : spec.orders side with
  | nil =>
      have sameBook : spec.setOrders side (keptOrders []) = spec := by
        conv => rhs; rw [← Reference.Book.setOrders_orders spec side]
        rw [orders]
        rfl
      have noQueues : ∀ queue ∈ spec.levelQueues side, queue = [] := by
        intro queue member
        obtain ⟨index, _, rfl⟩ := List.mem_map.mp member
        rw [Reference.Book.queue, orders]
        rfl
      refine ⟨book, ?_, ?_⟩
      · rw [OrderBook.pruneSide, if_pos (by simp [PriceLadder.empty, best, bestOf, orders]),
          foldl_addPruned_of_empty noQueues]
      · rw [sameBook]
        exact refines
  | cons head tail =>
      obtain ⟨ladder', registry', heap', addr, free', pruned, after⟩ :=
        pruneDayOrders refines roomy orders result
      rw [orders] at pruned after
      refine ⟨_, ?_, refines.of_core (after.withBest (bestOf (keptOrders (head :: tail))))
        (Reference.Book.setOrders_minPrice ..) (Reference.Book.setOrders_maxPrice ..)
        (fun other different => (Reference.Book.orders_setOrders ..).trans (if_neg different))
        (by rw [Reference.Book.orders_setOrders_self])⟩
      have occupied : ¬ (book.ladder side).empty = true := by
        simp [PriceLadder.empty, best, bestOf, orders]
      rw [OrderBook.pruneSide, if_neg occupied]
      exact congrArg (· >>= _) pruned

/-- The session end. -/
theorem onSessionEnd
    (refines : Refines book spec)
    (roomy : RoomyBook spec) :
    ∃ book',
      book.onSessionEnd = .ok (spec.sessionEnd.1, book') ∧
      Refines book' spec.sessionEnd.2 := by
  obtain ⟨book₁, prunedBids, refines₁⟩ := pruneSide refines roomy .buy {}
  have roomy₁ : RoomyBook (spec.setOrders .buy (keptOrders (spec.orders .buy))) :=
    roomy.of_sublist (Reference.Book.orders_setOrders_sublist List.filter_sublist)
  obtain ⟨book₂, prunedAsks, refines₂⟩ := pruneSide refines₁ roomy₁ .sell
    ((spec.levelQueues .buy).foldl addPruned {})
  refine ⟨book₂, ?_, refines₂⟩
  simp only [OrderBook.onSessionEnd, prunedBids, ok_bind, prunedAsks]
  rw [Reference.Book.sessionEnd, List.foldl_append]
  rfl

end Refinement
end MatchingEngine
