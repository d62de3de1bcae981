import MatchingEngine.Library.Allocation
import MatchingEngine.Reference.Accounts
import MatchingEngine.Refinement.Run

/-!
# What a taker gets, and what it pays

Every maker gives a taker what the demand leaves after the makers with priority
over it.  No other choice among the makers that the taker accepts gets more of
the demand, and none that gets as much has a better price for the taker.
-/

namespace MatchingEngine
namespace Properties

open OrderBook (BookRun PublicCalls sampleSession sampleRun_public)
open Reference (Order Downward downward_accepts downward_all orderPriority)
open Reference.Book (accepts)
open Refinement

variable {events : List (Event OrderBook Operation Output)} {book next : OrderBook}
variable {spec : Reference.Book} {makerSide : Side} {takes : Price → Bool} {quantity : Quantity}

/-! ## Amounts -/

/-- Executions give every maker that is accepted what the demand leaves after the orders
in front of it, at most its size, and give nothing to others.  In total they are the
demand, or all that is accepted if that is less. -/
structure Allocates
    (spec : Reference.Book) (makerSide : Side) (takes : Price → Bool) (quantity : Quantity)
    (executions : List ExecutionResult) : Prop where
  amounts : ∀ front order back, spec.orders makerSide = front ++ order :: back →
    executedAgainst order.id executions =
      if takes order.price then
        max 0 (min order.quantity (quantity - (front.map Order.quantity).sum))
      else 0
  makers : ∀ execution ∈ executions, ∃ order ∈ spec.orders makerSide,
    order.id = execution.makerOrderID ∧ order.price = execution.makerPrice
  total : (executions.map ExecutionResult.executedQuantity).sum =
    max 0 (min quantity
      (((spec.orders makerSide).filter fun order => takes order.price).map Order.quantity).sum)

/-- A matching in a valid book allocates its demand. -/
theorem allocates_matching
    (valid : spec.Valid)
    (downward : Downward makerSide takes)
    (quantity : Quantity) :
    Allocates spec makerSide takes quantity
      ((spec.matching makerSide takes quantity).taken.map Reference.Book.execution) := by
  refine ⟨fun front order back split => ?_, fun execution member => ?_, ?_⟩
  · have sorted := valid.sorted makerSide
    have distinct := valid.distinct.side makerSide
    rw [split] at sorted distinct
    rw [List.map_append, List.map_cons, List.nodup_middle, List.nodup_cons, ← List.map_append]
      at distinct
    have others : ∀ other ∈ front ++ back, decide (other.id = order.id) = false :=
      fun other member => decide_eq_false fun same =>
        distinct.1 (List.mem_map.mpr ⟨other, member, same⟩)
    rw [Reference.Book.executedAgainst_taken]
    change (spec.matching makerSide takes quantity).takenFrom
      (fun maker => decide (maker.id = order.id)) = _
    rw [Reference.Book.matching, split, List.filter_append]
    by_cases accepted : takes order.price = true
    · -- The orders in front have prices that are no worse, so they are accepted too.
      have frontAccepted : front.filter (fun maker => takes maker.price) = front :=
        List.filter_eq_self.mpr fun maker member => downward maker.price order.price
          ((List.pairwise_append.mp sorted).2.2 maker member order List.mem_cons_self) accepted
      have positive : ∀ maker ∈ front ++ order :: back.filter (fun maker => takes maker.price),
          0 < maker.quantity := by
        intro maker member
        apply valid.positive makerSide
        rw [split]
        exact (((List.filter_sublist).cons_cons order).append_left front).subset member
      have kept : (order :: back).filter (fun maker => takes maker.price) =
          order :: back.filter fun maker => takes maker.price :=
        List.filter_cons_of_pos accepted
      rw [frontAccepted, kept, if_pos accepted]
      exact Fill.takenFrom_fill positive (decide_eq_true rfl)
        (fun other member => others other (List.mem_append_left _ member))
        fun other member =>
          others other (List.mem_append_right _ (List.mem_of_mem_filter member))
    · have dropped : (order :: back).filter (fun maker => takes maker.price) =
          back.filter fun maker => takes maker.price :=
        List.filter_cons_of_neg accepted
      rw [dropped, if_neg accepted, ← List.filter_append]
      exact Fill.takenFrom_eq_zero
        (fun other member => others other (List.mem_of_mem_filter member)) quantity
  · obtain ⟨entry, taken, rfl⟩ := List.mem_map.mp member
    exact ⟨entry.1, List.mem_of_mem_filter (Fill.mem_of_mem_taken taken), rfl, rfl⟩
  · rw [List.map_map]
    exact Fill.total_fill fun order member =>
      valid.positive makerSide order (List.mem_of_mem_filter member)

/-! ## Submissions -/

/-- An accepted limit order that is not killed reports one matching. -/
theorem submitLimit_report
    {request : LimitOrderRequest}
    (accepted : ¬ spec.Rejects request)
    (notKilled : (spec.submitLimit request).1.status ≠ .killed) :
    ∃ status, (spec.submitLimit request).1 = Reference.Book.report
      (spec.matching request.side.opposite (accepts request.side request.price)
        request.quantity) request.quantity status := by
  rw [Reference.Book.submitLimit, if_neg accepted] at notKilled ⊢
  cases tif : request.tif with
  | gtc | day | ioc => exact ⟨_, rfl⟩
  | fok =>
      simp only [tif, Reference.Book.submitAllOrNothing] at notKilled ⊢
      split at notKilled
      next filled =>
        rw [if_pos filled]
        exact ⟨_, rfl⟩
      next => exact absurd rfl notKilled

theorem submitMarket_report
    {request : MarketOrderRequest}
    (fresh : ¬ spec.Contains request.id) :
    ∃ status, (spec.submitMarket request).1 = Reference.Book.report
      (spec.matching request.side.opposite (fun _ => true) request.quantity)
      request.quantity status := by
  rw [Reference.Book.submitMarket, if_neg fresh]
  exact ⟨_, rfl⟩

/-- An accepted submission of a side takes the prices that it accepts, and returns. -/
inductive TakerResult (book : OrderBook) :
    Side → (Price → Bool) → Quantity → SubmissionResult → Prop
  | limit
      {request : LimitOrderRequest} {result : SubmissionResult} {next : OrderBook}
      (positive : (Operation.submitLimitOrder request).PositiveQuantities)
      (accepted : ¬ book.rejects request)
      (returned : book.submitLimitOrder request = .ok (result, next))
      (notKilled : result.status ≠ .killed) :
      TakerResult book request.side (accepts request.side request.price) request.quantity result
  | market
      {request : MarketOrderRequest} {result : SubmissionResult} {next : OrderBook}
      (positive : (Operation.submitMarketOrder request).PositiveQuantities)
      (fresh : request.id ∉ book.idToOrderMap)
      (returned : book.submitMarketOrder request = .ok (result, next)) :
      TakerResult book request.side (fun _ => true) request.quantity result

/-- What an accepted submission returns is the report of one matching. -/
theorem TakerResult.report
    {side : Side} {result : SubmissionResult}
    (taker : TakerResult book side takes quantity result)
    (run : BookRun PublicCalls events book) :
    1 ≤ quantity ∧ Downward side.opposite takes ∧ ∃ status, result = Reference.Book.report
      (book.view.matching side.opposite takes quantity) quantity status := by
  have sane := Sane.of_run safeCalls_publicCalls run
  cases taker with
  | @limit request result next positive accepted returned notKilled =>
      have notRejected := (rejects_iff sane.refines request).not.mp accepted
      rw [← sane.submitLimitOrder_result positive returned] at notKilled ⊢
      exact ⟨positive.1, downward_accepts _ _, submitLimit_report notRejected notKilled⟩
  | @market request result next positive fresh returned =>
      rw [← sane.submitMarketOrder_result positive returned]
      exact ⟨positive.1, downward_all _,
        submitMarket_report (sane.refines.mem_idMap.not.mp fresh)⟩

/-! ## A taker -/

/-- A bid for five shares in the book of the sample session. -/
def sampleTaker : LimitOrderRequest := ⟨7, 4, 5, .buy, .ioc⟩

/-- What the sample taker is answered. -/
def sampleResult : SubmissionResult where
  quantityRequested := 5
  quantityFilled := 5
  status := .filled
  executions := [⟨1, 3, 3⟩, ⟨2, 4, 2⟩]

theorem sampleTakerResult :
    TakerResult sampleSession.2 .buy (accepts .buy 4) 5 sampleResult := by
  have answer : (sampleSession.2.submitLimitOrder sampleTaker).map Prod.fst = .ok sampleResult := by
    decide +kernel
  cases returned : sampleSession.2.submitLimitOrder sampleTaker with
  | error fault =>
      rw [returned] at answer
      cases answer
  | ok pair =>
      rw [returned] at answer
      obtain ⟨result, next⟩ := pair
      obtain rfl : result = sampleResult := Except.ok.inj answer
      exact @TakerResult.limit sampleSession.2 sampleTaker sampleResult next (by decide)
        (by decide +kernel) returned (by decide)

/-- In every reachable book, an accepted submission gets from every maker exactly what
its quantity leaves after the makers with priority over that one. -/
theorem allocation_exact
    {side : Side} {result : SubmissionResult}
    (run : BookRun PublicCalls events book)
    (taker : TakerResult book side takes quantity result) :
    Allocates book.view side.opposite takes quantity result.executions := by
  obtain ⟨refines, _⟩ := Sane.of_run safeCalls_publicCalls run
  obtain ⟨_, downward, _, rfl⟩ := taker.report run
  exact allocates_matching refines.valid downward quantity

theorem allocation_exact_sample :
    Allocates sampleSession.2.view .sell (accepts .buy 4) 5 sampleResult.executions :=
  allocation_exact sampleRun_public sampleTakerResult

/-! ## Prices -/

/-- What a taker of a side pays or receives for its executions. -/
def paid (executions : List ExecutionResult) : Int :=
  (executions.map fun execution => execution.makerPrice * execution.executedQuantity).sum

/-- Of two amounts, the first is at least as good for a taker of the side: a buyer pays
them, and a seller receives them. -/
def AtLeastAsGood : Side → Int → Int → Prop
  | .buy, first, second => first ≤ second
  | .sell, first, second => second ≤ first

/-- The orders from which a taker may get its shares. -/
def offersTo (book : OrderBook) (side : Side) (takes : Price → Bool) : List Order :=
  (book.view.orders side.opposite).filter fun order => takes order.price

theorem sum_map_neg {α : Type*} (items : List α) (value : α → Int) :
    (items.map fun item => -value item).sum = -(items.map value).sum := by
  rw [List.sum_neg, List.map_map]
  rfl

/-- In every reachable book, an accepted submission gets as many shares as any choice of
shares from the orders that it accepts, within its quantity; and any choice that gets as
many has a price that is no better. -/
theorem best_execution
    {side : Side} {result : SubmissionResult}
    (run : BookRun PublicCalls events book)
    (taker : TakerResult book side takes quantity result)
    (amount : Order → Quantity)
    (feasible : Fill.Feasible Order.quantity amount (offersTo book side takes)) :
    (((offersTo book side takes).map amount).sum ≤ quantity →
      ((offersTo book side takes).map amount).sum ≤ result.quantityFilled) ∧
    (((offersTo book side takes).map amount).sum = result.quantityFilled →
      AtLeastAsGood side (paid result.executions)
        ((offersTo book side takes).map fun order => order.price * amount order).sum) := by
  obtain ⟨refines, _⟩ := Sane.of_run safeCalls_publicCalls run
  have valid := refines.valid
  obtain ⟨_, downward, status, rfl⟩ := taker.report run
  constructor
  · intro atMost
    apply feasible.sum_le_total
    · exact fun order member =>
        valid.positive side.opposite order (List.mem_of_mem_filter member)
    · exact atMost
  · intro same
    have sorted := (valid.sorted side.opposite).filter fun order => takes order.price
    have cost := (Reference.Book.divides_matching book.view side.opposite takes quantity).cost_le
      sorted feasible same
    simp only [Reference.Book.report, paid, List.map_map, Function.comp_def,
      Reference.Book.execution]
    cases side with
    | buy => exact cost
    | sell =>
        -- The makers of a seller have the negated prices as priorities.
        simp only [Fill.Outcome.cost, Side.opposite, orderPriority, Reference.priority, neg_mul,
          sum_map_neg] at cost
        exact Int.le_of_neg_le_neg cost

/-- Three shares from each of the two asks are dearer. -/
theorem best_execution_sample :
    AtLeastAsGood .buy (paid sampleResult.executions)
      ((offersTo sampleSession.2 .buy (accepts .buy 4)).map fun order =>
        order.price * if order.id = 1 then 2 else 3).sum :=
  (best_execution sampleRun_public sampleTakerResult
    (fun order => if order.id = 1 then 2 else 3) (by decide +kernel)).2 (by decide +kernel)

end Properties
end MatchingEngine
