import MatchingEngine.Reference.Legality
import MatchingEngine.Refinement.Carries

/-!
# Matching fills a taker from the sorted list of makers

`Refines` relates a book of the source to a reference book, with exact best
prices.  The matching loop is shown to keep it, and to compute the fill of the
reference book, by induction on the list of makers of the opposite side.
-/

namespace MatchingEngine
namespace Refinement

open Reference (Order priority orderPriority Downward)
open OrderBook (Registry)

/-! ## Books -/

/-- A book of the source stands for a reference book. -/
structure Refines (book : OrderBook) (spec : Reference.Book) : Prop where
  core : ∃ addr free, Core book.heap (registryOf book) book.ladder addr free spec
  best : ∀ side, (book.ladder side).bestPrice = bestOf (spec.orders side)
  minPrice : book.minPrice = spec.minPrice
  maxPrice : book.maxPrice = spec.maxPrice

theorem Refines.carries
    {book : OrderBook} {spec : Reference.Book}
    (refines : Refines book spec) :
    Carries book spec := by
  obtain ⟨addr, free, core⟩ := refines.core
  exact ⟨⟨addr, free, core.toLinked⟩, served_of_best refines.best, refines.minPrice,
    refines.maxPrice⟩

/-- A reference book that a book stands for is valid. -/
theorem Refines.valid
    {book : OrderBook} {spec : Reference.Book}
    (refines : Refines book spec) :
    spec.Valid := by
  obtain ⟨addr, free, core⟩ := refines.core
  refine ⟨fun side => (core.holds side).sorted, core.distinct,
    fun side order member => ((core.holds side).sound order member).1,
    fun side order member => ?_⟩
  rw [← core.minPrice side, ← core.maxPrice side]
  exact core.inRange member

/-- No level of the book holds as many orders as its counter can count. -/
def RoomyBook (spec : Reference.Book) : Prop :=
  ∀ side, Roomy side (spec.orders side)

theorem RoomyBook.of_sublist
    {spec spec' : Reference.Book}
    (roomy : RoomyBook spec)
    (sublist : ∀ side, (spec'.orders side).Sublist (spec.orders side)) :
    RoomyBook spec' := fun side =>
  (roomy side).sublist (sublist side)

theorem RoomyBook.remove
    {spec : Reference.Book}
    (roomy : RoomyBook spec)
    (id : OrderID) :
    RoomyBook (spec.remove id) :=
  roomy.of_sublist fun side => by
    rw [Reference.Book.orders_remove]
    exact List.filter_sublist

/-- The cached best prices are not part of `Core`. -/
theorem Core.withBest
    {heap : Heap} {registry : Registry} {ladders : Side → PriceLadder}
    {addr : OrderID → BlockAddress} {free : List BlockAddress} {spec : Reference.Book}
    {side : Side} {ladder : PriceLadder}
    (core : Core heap registry (Function.update ladders side ladder) addr free spec)
    (best : Option Price) :
    Core heap registry (Function.update ladders side { ladder with bestPrice := best })
      addr free spec where
  toLinked := core.toLinked.withBest best
  sound := core.sound
  unwrapped other := by
    have unwrapped := core.unwrapped other
    by_cases same : other = side
    · subst same
      rw [Function.update_self] at unwrapped ⊢
      exact unwrapped
    · rw [Function.update_of_ne same] at unwrapped ⊢
      exact unwrapped

/-- Putting a book together from its new members, one ladder of which has
changed. -/
theorem Refines.of_core
    {book : OrderBook} {spec spec' : Reference.Book}
    (refines : Refines book spec)
    {side : Side} {ladder : PriceLadder} {heap' : Heap} {registry' : Registry}
    {addr : OrderID → BlockAddress} {free : List BlockAddress}
    (core : Core heap' registry' (Function.update book.ladder side ladder) addr free spec')
    (sameMinPrice : spec'.minPrice = spec.minPrice)
    (sameMaxPrice : spec'.maxPrice = spec.maxPrice)
    (otherSide : ∀ other, other ≠ side → spec'.orders other = spec.orders other)
    (best : ladder.bestPrice = bestOf (spec'.orders side)) :
    Refines
      ({ book with
        heap := heap'
        memoryPool := registry'.memoryPool
        idToOrderMap := registry'.idToOrderMap }.setLadder side ladder)
      spec' where
  core := ⟨addr, free, by
    rw [setLadder_heap, registryOf_setLadder, ladder_setLadder]
    exact core⟩
  best other := by
    rw [ladder_setLadder]
    by_cases same : other = side
    · subst same
      rw [Function.update_self]
      exact best
    · rw [Function.update_of_ne same, otherSide other same]
      exact refines.best other
  minPrice := by
    rw [setLadder_minPrice, sameMinPrice]
    exact refines.minPrice
  maxPrice := by
    rw [setLadder_maxPrice, sameMaxPrice]
    exact refines.maxPrice

/-- Any lists of a book that stands for a reference book have exact counters. -/
theorem Refines.core_of_linked
    {book : OrderBook} {spec : Reference.Book} {addr : OrderID → BlockAddress}
    {free : List BlockAddress}
    (refines : Refines book spec)
    (linked : Linked book.heap (registryOf book) book.ladder addr free spec) :
    Core book.heap (registryOf book) book.ladder addr free spec := by
  obtain ⟨_, _, core⟩ := refines.core
  exact ⟨linked, core.sound, core.unwrapped⟩

/-- The operation returns the expected answer and a book that carries the expected
orders.  That book stands for the expected one if the book before it stands for a
roomy one and the quantities are sound. -/
def Follows {α : Type} (book : OrderBook) (spec : Reference.Book) (soundQuantities : Prop)
    (result : Except Fault (α × OrderBook)) (expected : α × Reference.Book) : Prop :=
  ∃ book', result = .ok (expected.1, book') ∧ Carries book' expected.2 ∧
    (soundQuantities → Refines book spec → RoomyBook spec → Refines book' expected.2)

/-! ## The best price after a removal -/

/-- No remaining order beats a price that was the best one. -/
theorem least_of_best
    {side : Side} {orders : List Order} {price : Price}
    (sorted : KeyedList.Ordered (orderPriority side) orders)
    (best : bestOf orders = some price) :
    ∀ order ∈ orders, priority side price ≤ orderPriority side order := by
  cases orders with
  | nil => simp
  | cons head rest =>
      obtain rfl : head.price = price := by simpa [bestOf] using best
      obtain ⟨least, _⟩ := KeyedList.ordered_cons.mp sorted
      intro order member
      rcases List.mem_cons.mp member with rfl | inRest
      · exact le_rfl
      · exact least order inRest

/-- Dropping orders of one price keeps the best price, unless it was that price
and no order of it remains. -/
theorem bestOf_filter
    {side : Side} {orders : List Order} {price : Price} {keep : Order → Bool}
    (sorted : KeyedList.Ordered (orderPriority side) orders)
    (dropped : ∀ order ∈ orders, order.price ≠ price → keep order = true)
    (remains : ¬ (queueAt side price (orders.filter keep) = [] ∧
      bestOf orders = some price)) :
    bestOf (orders.filter keep) = bestOf orders := by
  by_cases best : bestOf orders = some price
  · rw [best]
    refine LadderHolds.bestOf_eq_some (sorted.filter keep) (fun order member => ?_)
      fun none => remains ⟨none, best⟩
    exact least_of_best sorted best order (List.mem_of_mem_filter member)
  · cases orders with
    | nil => rfl
    | cons head rest =>
        have headKept : keep head = true :=
          dropped head List.mem_cons_self fun same => best (by simp [bestOf, same])
        simp [bestOf, headKept]

/-- The refresh of the best price after orders of one price have been dropped. -/
theorem LadderHolds.refresh
    {heap : Heap} {addr : OrderID → BlockAddress} {ladder : PriceLadder} {side : Side}
    {orders : List Order} {keep : Order → Bool}
    (holds : LadderHolds heap addr ladder side (orders.filter keep))
    (price : Price)
    (roomy : Roomy side orders)
    (inRange : InRange ladder price)
    (sorted : KeyedList.Ordered (orderPriority side) orders)
    (dropped : ∀ order ∈ orders, order.price ≠ price → keep order = true)
    (best : ladder.bestPrice = bestOf orders)
    {vacant : Prop} [Decidable vacant]
    (emptied : vacant ↔ queueAt side price (orders.filter keep) = []) :
    (if vacant ∧ ladder.bestPrice = some price then
        ladder.updateBestPriceFromGiven price
      else .ok ladder) =
      .ok { ladder with bestPrice := bestOf (orders.filter keep) } := by
  by_cases gone : vacant ∧ ladder.bestPrice = some price
  · rw [if_pos gone]
    refine holds.updateBestPriceFromGiven (roomy.sublist List.filter_sublist) inRange
      fun order member => ?_
    exact least_of_best sorted (best.symm.trans gone.2) order
      (List.mem_of_mem_filter member)
  · rw [emptied, best] at gone
    rw [if_neg (by rwa [emptied, best]), bestOf_filter sorted dropped gone, ← best]

/-- The book without an order, once the best price has been refreshed. -/
theorem Refines.of_removed
    {book : OrderBook} {spec : Reference.Book} {side : Side} {order : Order}
    {front rest : List Order} {level level' : PriceLevel} {heap' heap'' : Heap}
    {pool : MemoryPool} {addr : OrderID → BlockAddress} {free : List BlockAddress}
    {best : Option Price}
    (refines : Refines book spec)
    (roomy : RoomyBook spec)
    (linked : Linked book.heap (registryOf book) book.ladder addr free spec)
    (member : order ∈ spec.orders side)
    (split : queueAt side order.price (spec.orders side) = front ++ order :: rest)
    (access : (book.ladder side).level (indexOf (book.ladder side) order.price) = .ok level)
    (levelPrice : level.price = order.price)
    (removed : LevelLinks.Removed book.heap addr
      ⟨side, indexOf (book.ladder side) order.price⟩ level front order rest level' heap')
    (deallocated : book.memoryPool.deallocate (some (addr order.id)) heap' = .ok (pool, heap''))
    (refresh :
      (if level'.empty = true ∧ (book.ladder side).bestPrice = some order.price then
          ((book.ladder side).setLevel (indexOf (book.ladder side) order.price)
            level').updateBestPriceFromGiven order.price
        else .ok ((book.ladder side).setLevel (indexOf (book.ladder side) order.price) level')) =
        .ok { (book.ladder side).setLevel (indexOf (book.ladder side) order.price) level' with
          bestPrice := best }) :
    Refines
      ({ book with
        heap := heap''
        memoryPool := pool
        idToOrderMap := book.idToOrderMap.erase order.id }.setLadder side
          { (book.ladder side).setLevel (indexOf (book.ladder side) order.price) level' with
            bestPrice := best })
      (spec.remove order.id) := by
  have core := refines.core_of_linked linked
  have levelHolds : LevelHolds book.heap addr
      ⟨side, indexOf (book.ladder side) order.price⟩ level (front ++ order :: rest) :=
    split ▸ core.levelHolds access member
  have sound := split ▸ (core.sound side).queueAt side order.price
  have room : (front ++ order :: rest).length < 4294967296 := split ▸ roomy side _
  obtain ⟨pool', heap₂, deallocated', after⟩ :=
    core.detach (roomy side) member split levelPrice levelHolds removed
  obtain ⟨rfl, rfl⟩ := Prod.mk.inj (Except.ok.inj (deallocated'.symm.trans deallocated))
  have holdsAfter := after.holds side
  rw [Function.update_self, Reference.Book.orders_remove] at holdsAfter
  have queueAfter := queueAt_remove core.distinct split
  rw [Reference.Book.orders_remove] at queueAfter
  have emptied : level'.empty = true ↔ front ++ rest = [] :=
    (levelHolds.of_removed sound room removed).toTallies.empty_iff
      (lt_of_le_of_lt (by simp) room)
  have exactRefresh := holdsAfter.refresh order.price (roomy side)
    (core.inRange member) (core.holds side).sorted
    (fun other inSide different =>
      decide_eq_true (core.distinct.id_ne_of_price_ne inSide member different))
    (refines.best side) (queueAfter ▸ emptied)
  obtain rfl : best = bestOf ((spec.orders side).filter fun other => other.id ≠ order.id) :=
    congrArg PriceLadder.bestPrice (Except.ok.inj (refresh.symm.trans exactRefresh))
  exact refines.of_core (after.withBest _) rfl rfl
    (fun other different => core.distinct.orders_remove_of_ne member different)
    (by rw [Reference.Book.orders_remove])

/-! ## One maker -/

/-- The best maker is at the front of its queue. -/
theorem queueAt_front
    (side : Side) {orders tail : List Order} {head : Order}
    (split : orders = head :: tail) :
    queueAt side head.price orders = head :: queueAt side head.price tail := by
  rw [split]
  exact KeyedList.bucket_cons_self head tail

/-- A reduction keeps every price. -/
theorem bestOf_reduce (spec : Reference.Book) (id : OrderID) (amount : Quantity) (side : Side) :
    bestOf ((spec.reduce id amount).orders side) = bestOf (spec.orders side) := by
  rw [Reference.Book.orders_reduce, bestOf, bestOf, List.head?_map, Option.map_map]
  refine congrArg (fun price => Option.map price _) (funext fun order => ?_)
  simp only [Function.comp_apply]
  split <;> rfl

namespace Carries

variable {book : OrderBook} {spec : Reference.Book} {side : Side}
variable {head : Order} {rest : List Order}

/-- The level of an order at the front of its queue. -/
theorem front
    (carries : Carries book spec)
    (queue : queueAt side head.price (spec.orders side) = head :: rest) :
    ∃ level addr free,
      Linked book.heap (registryOf book) book.ladder addr free spec ∧
      head ∈ spec.orders side ∧
      (book.ladder side).level (indexOf (book.ladder side) head.price) = .ok level ∧
      level.price = head.price ∧
      LevelLinks book.heap addr ⟨side, indexOf (book.ladder side) head.price⟩ level
        (head :: rest) := by
  obtain ⟨addr, free, linked⟩ := carries.linked
  have member := mem_of_queueAt_cons queue
  obtain ⟨level, access, levelPrice, levelLinks⟩ :=
    (linked.links side).level_of (linked.inRange member)
  exact ⟨level, addr, free, linked, member, access, levelPrice, queue ▸ levelLinks⟩

/-- Taking part of a maker at the front of its queue. -/
theorem takeFromMaker
    (carries : Carries book spec)
    (queue : queueAt side head.price (spec.orders side) = head :: rest)
    {level : PriceLevel}
    (access : (book.ladder side).level (indexOf (book.ladder side) head.price) = .ok level)
    {amount : Quantity}
    (range : InInt32 (head.quantity - amount)) :
    ∃ book',
      book.takeFromMaker ⟨side, indexOf (book.ladder side) head.price⟩ level amount =
        .ok book' ∧
      Carries book' (spec.reduce head.id amount) ∧ book'.memoryPool = book.memoryPool ∧
      (0 < amount → amount < head.quantity → Refines book spec → RoomyBook spec →
        Refines book' (spec.reduce head.id amount)) := by
  obtain ⟨level₀, addr, free, linked, member, access₀, levelPrice, levelLinks⟩ :=
    carries.front queue
  obtain rfl : level = level₀ := Except.ok.inj (access.symm.trans access₀)
  have atFront : queueAt side head.price (spec.orders side) = [] ++ head :: rest := queue
  obtain ⟨level', heap', taken, reduced⟩ := levelLinks.takeSharesFromFirst range
  have after := linked.shrink member atFront levelPrice reduced
  refine ⟨_, ?_, carries.of_linked after
      (fun other different => carries.distinct.orders_reduce_of_ne member different amount)
      (fun price isBest => queueAt_reduce_ne_nil (carries.served side price isBest) _ _) rfl rfl,
    by simp [registryOf], fun positive below refines roomy => ?_⟩
  · simp only [OrderBook.takeFromMaker, taken, ok_bind]
    rfl
  · have core := refines.core_of_linked linked
    exact refines.of_core (core.shrink (roomy side) member atFront positive below levelPrice
        (atFront ▸ core.levelHolds access member) reduced) rfl rfl
      (fun other different => core.distinct.orders_reduce_of_ne member different amount)
      ((refines.best side).trans (bestOf_reduce ..).symm)

/-- Using up a maker at the front of its queue. -/
theorem retireMaker
    (carries : Carries book spec)
    (queue : queueAt side head.price (spec.orders side) = head :: rest)
    {level : PriceLevel}
    (access : (book.ladder side).level (indexOf (book.ladder side) head.price) = .ok level) :
    ∃ book',
      book.retireMaker ⟨side, indexOf (book.ladder side) head.price⟩ level head.price
        head.id = .ok book' ∧
      Carries book' (spec.remove head.id) ∧ HasFree book' ∧
      ((book.ladder side).bestPrice = some head.price → Refines book spec → RoomyBook spec →
        Refines book' (spec.remove head.id)) := by
  obtain ⟨level₀, addr, free, linked, member, access₀, levelPrice, levelLinks⟩ :=
    carries.front queue
  obtain rfl : level = level₀ := Except.ok.inj (access.symm.trans access₀)
  have atFront : queueAt side head.price (spec.orders side) = [] ++ head :: rest := queue
  obtain ⟨level', heap', popped, removed⟩ := levelLinks.popFront
  obtain ⟨pool, heap'', deallocated, after⟩ := linked.detach member atFront levelPrice removed
  have deallocated : book.memoryPool.deallocate (some (addr head.id)) heap' =
      .ok (pool, heap'') := deallocated
  have firstFree : pool.firstFree = some (addr head.id) := after.pool.chain.1
  have linksAfter := after.links side
  rw [Function.update_self] at linksAfter
  obtain ⟨best, refresh⟩ := linksAfter.refresh (linked.inRange member) (level'.empty = true)
  have served : ∀ price, best = some price →
      queueAt side price ((spec.remove head.id).orders side) ≠ [] :=
    linksAfter.rests_of_refresh refresh fun occupied old isBest =>
      carries.queueAt_remove_ne_nil member atFront removed.links isBest
        fun vacant => occupied vacant.1
  refine ⟨_, ?_, carries.of_linked (after.withBest best)
      (fun other different => carries.distinct.orders_remove_of_ne member different) served
      rfl rfl,
    by simp [HasFree, firstFree], fun isBest refines roomy => ?_⟩
  · simp only [OrderBook.retireMaker, popped, ok_bind, deallocated]
    by_cases vacant : level'.empty = true
    · rw [if_pos vacant] at refresh
      rw [if_pos vacant, refresh]
      rfl
    · rw [if_neg vacant] at refresh
      rw [if_neg vacant, ← Except.ok.inj refresh]
      rfl
  · refine refines.of_removed roomy linked member atFront access levelPrice removed deallocated ?_
    simp only [isBest, and_true]
    exact refresh

end Carries

namespace Refines

variable {book : OrderBook} {spec : Reference.Book} {side : Side}
variable {head : Order} {tail : List Order}

/-- Taking part of the best maker. -/
theorem takeFromMaker
    (refines : Refines book spec)
    (roomy : RoomyBook spec)
    (orders : spec.orders side = head :: tail)
    {level : PriceLevel}
    (access : (book.ladder side).level (indexOf (book.ladder side) head.price) = .ok level)
    {amount : Quantity}
    (positive : 0 < amount)
    (below : amount < head.quantity) :
    ∃ book',
      book.takeFromMaker ⟨side, indexOf (book.ladder side) head.price⟩ level amount =
        .ok book' ∧
      Refines book' (spec.setOrders side (head.reduce amount :: tail)) ∧
      book'.memoryPool = book.memoryPool := by
  obtain ⟨_, _, core⟩ := refines.core
  have sound := core.sound side head (orders ▸ List.mem_cons_self)
  obtain ⟨book', taken, _, samePool, refines'⟩ :=
    refines.carries.takeFromMaker (queueAt_front side orders) access
      (show InInt32 (head.quantity - amount) by unfold InInt32; lia)
  refine ⟨book', taken, ?_, samePool⟩
  rw [← core.distinct.reduce_head orders]
  exact refines' positive below refines roomy

/-- Using the best maker up. -/
theorem retireMaker
    (refines : Refines book spec)
    (roomy : RoomyBook spec)
    (orders : spec.orders side = head :: tail)
    {level : PriceLevel}
    (access : (book.ladder side).level (indexOf (book.ladder side) head.price) = .ok level) :
    ∃ book',
      book.retireMaker ⟨side, indexOf (book.ladder side) head.price⟩ level head.price
        head.id = .ok book' ∧
      Refines book' (spec.setOrders side tail) ∧ HasFree book' := by
  have best : (book.ladder side).bestPrice = some head.price := by
    rw [refines.best side, orders]
    rfl
  obtain ⟨book', retired, _, freed, refines'⟩ :=
    refines.carries.retireMaker (queueAt_front side orders) access
  refine ⟨book', retired, ?_, freed⟩
  rw [← refines.carries.distinct.remove_head orders]
  exact refines' best refines roomy

end Refines

/-! ## The matching loop -/

/-- What a matching loop has done when it ends. -/
structure Matched
    (book : OrderBook) (outcome : Fill.Outcome Order) (start : SubmissionResult)
    (demand : Quantity) (exit : OrderBook.LoopExit) : Prop where
  untouched : outcome.taken = [] → exit.book = book
  keepsFree : HasFree book → HasFree exit.book
  requested : exit.subResult.quantityRequested = start.quantityRequested
  filled : exit.subResult.quantityFilled = start.quantityFilled + outcome.total
  executions : exit.subResult.executions =
    start.executions ++ outcome.taken.map Reference.Book.execution
  returned : exit.returned = true →
    exit.subResult.status = .filled ∧ outcome.total = demand
  left : exit.returned = false →
    exit.remainingShares = demand - outcome.total ∧ exit.subResult.status = start.status

/-- What the loop does after a maker has been used up, seen from before it. -/
theorem Matched.afterMaker
    {book book' : OrderBook} {outcome : Fill.Outcome Order} {start : SubmissionResult}
    {demand : Quantity} {exit : OrderBook.LoopExit} {head : Order}
    (matched : Matched book' outcome
      (OrderBook.recordExecution start head.id head.price head.quantity)
      (demand - head.quantity) exit)
    (freed : HasFree book')
    (filled : toInt32 (start.quantityFilled + head.quantity) =
      start.quantityFilled + head.quantity) :
    Matched book ⟨(head, head.quantity) :: outcome.taken, outcome.rest⟩ start demand exit := by
  have total : (Fill.Outcome.mk ((head, head.quantity) :: outcome.taken) outcome.rest).total =
      head.quantity + outcome.total :=
    Fill.total_cons ..
  refine ⟨by simp, fun _ => matched.keepsFree freed, matched.requested, ?_, ?_,
    fun hasReturned => ?_, fun hasLeft => ?_⟩
  · rw [matched.filled, total, OrderBook.recordExecution, filled]
    lia
  · rw [matched.executions]
    simp [OrderBook.recordExecution, Reference.Book.execution]
  · obtain ⟨status, exact⟩ := matched.returned hasReturned
    refine ⟨status, ?_⟩
    rw [total, exact]
    lia
  · obtain ⟨left, status⟩ := matched.left hasLeft
    refine ⟨?_, status⟩
    rw [left, total]
    lia

/-- A maker that outlasts the taker fills it. -/
theorem Matched.of_outlasting
    {book book' : OrderBook} {start : SubmissionResult} {demand : Quantity} {head : Order}
    {rest : List Order}
    (samePool : book'.memoryPool = book.memoryPool)
    (filled : toInt32 (start.quantityFilled + demand) = start.quantityFilled + demand) :
    Matched book ⟨[(head, demand)], rest⟩ start demand
      ⟨true, book', demand,
        { OrderBook.recordExecution start head.id head.price demand with status := .filled }⟩ where
  untouched := by simp
  keepsFree hasFree := by
    unfold HasFree
    rw [samePool]
    exact hasFree
  requested := rfl
  filled := by simp [OrderBook.recordExecution, filled]
  executions := by simp [OrderBook.recordExecution, Reference.Book.execution]
  returned _ := ⟨rfl, by simp⟩
  left := by simp

/-- A book without the best order of a side. -/
theorem RoomyBook.setOrders_tail
    {spec : Reference.Book} {side : Side} {head : Order} {tail : List Order}
    (roomy : RoomyBook spec)
    (makers : spec.orders side = head :: tail) :
    RoomyBook (spec.setOrders side tail) :=
  roomy.of_sublist (Reference.Book.orders_setOrders_sublist
    (makers ▸ List.sublist_cons_self head tail))

section Loop

variable {book : OrderBook} {spec : Reference.Book} {side : Side} {takes : Price → Bool}

/-- Without a fill the reference book stays as it is. -/
theorem afterMatching_of_rest
    {demand : Quantity}
    (refines : Refines book spec)
    (downward : Downward side takes)
    (untouched : (spec.matching side takes demand).rest =
      (spec.orders side).filter fun order => takes order.price) :
    spec.afterMatching side takes demand = spec := by
  unfold Reference.Book.afterMatching
  rw [untouched, refines.valid.partition downward, Reference.Book.setOrders_orders]

/-- An iteration that finds nothing to do. -/
theorem Matched.of_nothing
    (rest : List Order) (demand : Quantity) (start : SubmissionResult) :
    Matched book ⟨[], rest⟩ start demand ⟨false, book, demand, start⟩ where
  untouched _ := rfl
  keepsFree := id
  requested := rfl
  filled := by simp
  executions := by simp
  returned := by simp
  left _ := by simp

/-- An iteration with a maker that the taker accepts. -/
theorem Carries.matchingLoop_of_accepted
    {head : Order} {rest : List Order} {demand : Quantity}
    (carries : Carries book spec)
    (queue : queueAt side head.price (spec.orders side) = head :: rest)
    (best : (book.ladder side).bestPrice = some head.price)
    (accepted : takes head.price = true)
    (wanted : 0 < demand)
    (fuel : Nat) (start : SubmissionResult) :
    ∃ level,
      (book.ladder side).level (indexOf (book.ladder side) head.price) = .ok level ∧
      OrderBook.matchingLoop side takes (fuel + 1) book demand start =
        (if demand < head.quantity then do
          let book ← book.takeFromMaker ⟨side, indexOf (book.ladder side) head.price⟩ level
            demand
          .ok ⟨true, book, demand,
            { OrderBook.recordExecution start head.id head.price demand with
              status := .filled }⟩
        else do
          let book ← book.retireMaker ⟨side, indexOf (book.ladder side) head.price⟩ level
            head.price head.id
          OrderBook.matchingLoop side takes fuel book (toInt32 (demand - head.quantity))
            (OrderBook.recordExecution start head.id head.price head.quantity)) := by
  obtain ⟨level, addr, free, linked, member, access, levelPrice, levelLinks⟩ :=
    carries.front queue
  have getLevel := (linked.links side).toShape.getLevelAtPrice (linked.inRange member)
  have front : level.front = some (addr head.id) := levelLinks.head_eq
  obtain ⟨block, stored, contents⟩ := levelLinks.block_order List.mem_cons_self
  have blockId : block.id = head.id := congrArg RestingOrder.id contents
  have blockQuantity : block.quantity = head.quantity :=
    congrArg RestingOrder.quantity contents
  refine ⟨level, access, ?_⟩
  simp [OrderBook.matchingLoop, wanted, best, accepted, getLevel, access, front,
    Heap.order_eq_ok stored, blockQuantity, blockId]

/-- The loop stops where the reference has nothing to do. -/
theorem matchingLoop_of_nothing
    {demand : Quantity} {fuel : Nat} {start : SubmissionResult}
    (refines : Refines book spec)
    (downward : Downward side takes)
    (nothing : spec.matching side takes demand =
      ⟨[], (spec.orders side).filter fun order => takes order.price⟩)
    (stops : OrderBook.matchingLoop side takes fuel book demand start =
      .ok ⟨false, book, demand, start⟩) :
    ∃ exit,
      OrderBook.matchingLoop side takes fuel book demand start = .ok exit ∧
      Refines exit.book (spec.afterMatching side takes demand) ∧
      Matched book (spec.matching side takes demand) start demand exit := by
  refine ⟨_, stops, ?_, nothing ▸ Matched.of_nothing _ demand start⟩
  rw [afterMatching_of_rest refines downward (congrArg Fill.Outcome.rest nothing)]
  exact refines

/-- The matching loop fills the taker from the sorted list of makers. -/
theorem matchingLoop
    (refines : Refines book spec)
    (roomy : RoomyBook spec)
    (downward : Downward side takes)
    {fuel : Nat}
    (enough : (spec.orders side).length < fuel)
    (demand : Quantity) (start : SubmissionResult)
    (filledRange : 0 ≤ start.quantityFilled)
    (range : start.quantityFilled + max 0 demand ≤ 2147483647) :
    ∃ exit,
      OrderBook.matchingLoop side takes fuel book demand start = .ok exit ∧
      Refines exit.book (spec.afterMatching side takes demand) ∧
      Matched book (spec.matching side takes demand) start demand exit := by
  induction makers : spec.orders side generalizing fuel book spec demand start with
  | nil =>
      obtain ⟨fuel, rfl⟩ : ∃ rest, fuel = rest + 1 := ⟨fuel - 1, by omega⟩
      have best : (book.ladder side).bestPrice = none := by
        rw [refines.best side, makers]
        rfl
      apply matchingLoop_of_nothing refines downward
      · simp [Reference.Book.matching, makers]
      · simp [OrderBook.matchingLoop, best]
  | cons head tail inductionHypothesis =>
      obtain ⟨fuel, rfl⟩ : ∃ rest, fuel = rest + 1 := ⟨fuel - 1, by omega⟩
      have best : (book.ladder side).bestPrice = some head.price := by
        rw [refines.best side, makers]
        rfl
      by_cases wanted : 0 < demand
      case neg =>
        apply matchingLoop_of_nothing refines downward
        · exact Fill.fill_of_nonpos (not_lt.mp wanted) _
        · simp [OrderBook.matchingLoop, wanted]
      cases accepted : takes head.price with
      | false =>
          have noMaker : (spec.orders side).filter (fun order => takes order.price) = [] := by
            refine List.filter_eq_nil_iff.mpr fun order member taken => ?_
            have least := least_of_best (refines.valid.sorted side)
              ((refines.best side).symm.trans best) order member
            simp [downward head.price order.price least taken] at accepted
          apply matchingLoop_of_nothing refines downward
          · rw [Reference.Book.matching, noMaker, Fill.fill_nil]
          · simp [OrderBook.matchingLoop, wanted, best, accepted]
      | true =>
          obtain ⟨level, access, iteration⟩ := refines.carries.matchingLoop_of_accepted
            (queueAt_front side makers) best accepted wanted fuel start
          rw [iteration]
          have positive := refines.valid.positive side head (makers ▸ List.mem_cons_self)
          by_cases larger : demand < head.quantity
          · -- The maker outlasts the taker.
            obtain ⟨book', taken, refines', samePool⟩ :=
              refines.takeFromMaker roomy makers access wanted larger
            have outcome := Reference.Book.matching_of_outlasting makers accepted wanted larger
            have filled : toInt32 (start.quantityFilled + demand) =
                start.quantityFilled + demand :=
              toInt32_of_inInt32 (by unfold InInt32; lia)
            rw [if_pos larger, taken, ok_bind, refines.valid.afterMatching_of_outlasting downward
              makers accepted wanted larger, outcome]
            exact ⟨_, rfl, refines', .of_outlasting samePool filled⟩
          · -- The maker is used up, and the loop goes on with the others.
            obtain ⟨book', retired, refines', freed⟩ := refines.retireMaker roomy makers access
            have usedUp := not_lt.mp larger
            have tailOrders : (spec.setOrders side tail).orders side = tail :=
              Reference.Book.orders_setOrders_self ..
            have remaining : toInt32 (demand - head.quantity) = demand - head.quantity :=
              toInt32_of_inInt32 (by unfold InInt32; lia)
            have filled : toInt32 (start.quantityFilled + head.quantity) =
                start.quantityFilled + head.quantity :=
              toInt32_of_inInt32 (by unfold InInt32; lia)
            obtain ⟨exit, loop, refinesExit, matched⟩ := inductionHypothesis refines'
              (roomy.setOrders_tail makers)
              (show ((spec.setOrders side tail).orders side).length < fuel by
                rw [tailOrders]
                rw [makers, List.length_cons] at enough
                omega)
              (demand - head.quantity)
              (OrderBook.recordExecution start head.id head.price head.quantity)
              (by simp only [OrderBook.recordExecution, filled]; lia)
              (by simp only [OrderBook.recordExecution, filled]; lia) tailOrders
            rw [if_neg larger, retired, ok_bind, remaining, loop,
              Reference.Book.afterMatching_of_usedUp makers accepted wanted usedUp,
              Reference.Book.matching_of_usedUp makers accepted wanted usedUp]
            exact ⟨exit, rfl, refinesExit, matched.afterMaker freed filled⟩

theorem queueAt_length (side : Side) (price : Price) (orders : List Order) :
    (queueAt side price orders).length = (orders.map Order.price).count price := by
  rw [List.count_eq_countP, List.countP_map, queueAt, KeyedList.bucket,
    ← List.countP_eq_length_filter]
  refine List.countP_congr fun order _ => ?_
  simp [orderPriority]

theorem RoomyBook.afterMatching
    (roomy : RoomyBook spec)
    (refines : Refines book spec)
    (downward : Downward side takes)
    (demand : Quantity) :
    RoomyBook (spec.afterMatching side takes demand) := by
  intro other price
  refine lt_of_le_of_lt ?_ (roomy other price)
  rw [queueAt_length, queueAt_length]
  exact (refines.valid.afterMatching_map_sublist Order.price downward
    (fun _ _ => rfl) demand other).count_le price

/-- Running the matching loop, from the number of live orders as its bound. -/
theorem runMatching
    (refines : Refines book spec)
    (roomy : RoomyBook spec)
    (downward : Downward side takes)
    {quantity : Quantity}
    (range : quantity ≤ 2147483647) :
    ∃ exit,
      book.runMatching side takes quantity = .ok exit ∧
      Refines exit.book (spec.afterMatching side takes quantity) ∧
      Matched book (spec.matching side takes quantity) { quantityRequested := quantity }
        quantity exit := by
  obtain ⟨addr, free, core⟩ := refines.core
  have enough : (spec.orders side).length < book.memoryPool.currentlyAllocated + 1 :=
    Nat.lt_succ_of_le (core.toLinked.length_orders_le side)
  exact matchingLoop refines roomy downward enough quantity _ le_rfl (by simpa using range)

/-- The submission result of a finished loop, with a status. -/
theorem Matched.report
    {outcome : Fill.Outcome Order} {quantity : Quantity} {exit : OrderBook.LoopExit}
    (matched : Matched book outcome { quantityRequested := quantity } quantity exit)
    (status : SubmitStatus) :
    { exit.subResult with status } = Reference.Book.report outcome quantity status := by
  simp only [Reference.Book.report, SubmissionResult.mk.injEq, true_and]
  exact ⟨matched.requested, by simpa using matched.filled, by simpa using matched.executions⟩

/-- A loop that has returned has filled the taker. -/
theorem Matched.report_returned
    {outcome : Fill.Outcome Order} {quantity : Quantity} {exit : OrderBook.LoopExit}
    (matched : Matched book outcome { quantityRequested := quantity } quantity exit)
    (returned : exit.returned = true) :
    exit.subResult = Reference.Book.report outcome quantity .filled := by
  rw [← matched.report, ← (matched.returned returned).1]

end Loop

end Refinement
end MatchingEngine
