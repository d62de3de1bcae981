import Mathlib.Algebra.Order.BigOperators.Group.List
import Mathlib.Algebra.Order.Group.Nat
import Mathlib.Data.Nat.Cast.Basic
import MatchingEngine.Refinement.Replay
import MatchingEngine.Refinement.SessionEndSums

/-!
# The totals of a session end

The shares of the DAY orders of one level are added up in 32 bits.  The report of a
session end is exact just when that is enough for every level, the totals fit their own
types, and no counter of a level that holds DAY orders stands at zero.
-/

namespace MatchingEngine
namespace Properties

open OrderBook (BookRun UnboundedRun PublicCalls sampleConfig sampleSession sampleRun_public)
open Reference (Order)
open Reference.Book (dayOrders)
open Refinement

/-! ## Totals -/

/-- The levels of both sides. -/
def levels (book : OrderBook) : List LevelAddress :=
  let onSide (side : Side) : List LevelAddress :=
    (List.range (book.ladder side).levels.length).map (LevelAddress.mk side)
  onSide .buy ++ onSide .sell

/-- The orders of a level, from its head on. -/
def ordersOn (book : OrderBook) (place : LevelAddress) : List Order :=
  book.pricedOrders place.side place.index

/-- Number of DAY orders that rest in the book. -/
def numDayOrders (book : OrderBook) : Nat :=
  ((levels book).map fun place => (dayOrders (ordersOn book place)).length).sum

/-- Sum of the quantities of the DAY orders that rest in the book. -/
def dayVolume (book : OrderBook) : Int :=
  ((levels book).map fun place => volume (dayOrders (ordersOn book place))).sum

/-- Number of levels that held an order before and hold none after. -/
def numEmptied (before after : OrderBook) : Nat :=
  (levels before).countP fun place => ordersOn before place ≠ [] ∧ ordersOn after place = []

/-- A report says what has become of the DAY orders. -/
structure ReportExact (before after : OrderBook) (report : DayOrderPruneResult) : Prop where
  ordersPruned : report.ordersPruned = numDayOrders before
  sharesErased : (report.sharesErased : Int) = dayVolume before
  priceLevelsErased : report.priceLevelsErased = numEmptied before after

/-- A session end reports exact totals, and no sum on the way overflows. -/
def SessionEndExact (book : OrderBook) : Prop :=
  ∃ report after, book.onSessionEnd = .ok (report, after) ∧ ReportExact book after report ∧
    ∀ sum ∈ book.sessionEndSums, sum.Fits

/-! ## When they are exact -/

/-- A session end looks at a level: its side has a best price, and its counter is not
zero. -/
def Scanned (book : OrderBook) (place : LevelAddress) : Prop :=
  (book.ladder place.side).empty = false ∧ ¬ Uncounted (ordersOn book place)

instance (book : OrderBook) : DecidablePred (Scanned book) :=
  fun _ => inferInstanceAs (Decidable (_ ∧ _))

/-- The DAY orders of a book can be counted in the types of the source. -/
structure Countable (book : OrderBook) : Prop where
  /-- A level with DAY orders is looked at. -/
  scanned : ∀ place ∈ levels book, dayOrders (ordersOn book place) ≠ [] → Scanned book place
  /-- The counter of a level on which GTC orders stay does not become zero. -/
  kept : ∀ place ∈ levels book, dayOrders (ordersOn book place) ≠ [] →
    Uncounted (keptOrders (ordersOn book place)) → keptOrders (ordersOn book place) = []
  /-- The DAY volume of every level is a quantity. -/
  levelVolume : ∀ place ∈ levels book,
    volume (dayOrders (ordersOn book place)) ≤ 2147483647
  /-- The DAY volume of the book is a volume. -/
  totalVolume : dayVolume book < 18446744073709551616
  /-- The number of levels of DAY orders only is a `std::uint32_t`. -/
  emptied : ((levels book).countP fun place =>
    dayOrders (ordersOn book place) ≠ [] ∧ keptOrders (ordersOn book place) = []) < 4294967296

section Counting

variable {α : Type*} {p q : α → Prop} [DecidablePred p] [DecidablePred q]

/-- A sum over some members of a list is the sum over all of them exactly if the others
are zero. -/
theorem sum_filter_eq_iff (items : List α) (count : α → Nat) :
    ((items.filter (p ·)).map count).sum = (items.map count).sum ↔
      ∀ item ∈ items, count item ≠ 0 → p item := by
  rw [← List.sum_map_filter_add_sum_map_filter_not p count items, left_eq_add,
    List.sum_eq_zero_iff_forall_eq_nat]
  simp only [List.forall_mem_map, List.mem_filter, decide_eq_true_eq, and_imp]
  exact forall₂_congr fun item _ => by tauto

/-- Of two conditions one of which is stronger, both hold equally often exactly if they
agree. -/
theorem countP_eq_iff
    (stronger : ∀ item, p item → q item)
    (items : List α) :
    items.countP (p ·) = items.countP (q ·) ↔ ∀ item ∈ items, q item → p item := by
  constructor
  · intro same item member holds
    have sublist : (items.filter (p ·)).Sublist (items.filter (q ·)) :=
      List.monotone_filter_right items fun item => by simpa using stronger item
    rw [List.countP_eq_length_filter, List.countP_eq_length_filter] at same
    have inFilter : item ∈ items.filter (q ·) := List.mem_filter.mpr ⟨member, by simpa⟩
    rw [← sublist.eq_of_length same] at inFilter
    simpa using (List.mem_filter.mp inFilter).2
  · intro agree
    refine List.countP_congr fun item member => ?_
    simpa using ⟨stronger item, agree item member⟩

end Counting

section Book

variable {book after : OrderBook} {spec spec' : Reference.Book}

/-- The queues that a session end scans and does not pass over. -/
theorem filter_scannedQueues (carries : Carries book spec) :
    ((scannedQueues book spec .buy ++ scannedQueues book spec .sell).filter fun queue =>
        ¬ Uncounted queue) =
      ((levels book).filter (Scanned book ·)).map (ordersOn book) := by
  obtain ⟨addr, free, linked⟩ := carries.linked
  have oneSide : ∀ side, ((scannedQueues book spec side).filter fun queue =>
      ¬ Uncounted queue) =
        (((List.range (book.ladder side).levels.length).map (LevelAddress.mk side)).filter
          (Scanned book ·)).map (ordersOn book) := by
    intro side
    have sameQueues : ((List.range (book.ladder side).levels.length).map
        (LevelAddress.mk side)).map (ordersOn book) = spec.levelQueues side := by
      rw [← linked.queues_eq side, List.map_map, ← List.range_eq_range', linked.minPrice side]
      exact List.map_congr_left fun index _ => carries.pricedOrders_eq side index
    rw [scannedQueues, ← sameQueues]
    by_cases noBest : (book.ladder side).empty = true
    · rw [if_pos noBest]
      simp [Scanned, noBest]
    · rw [if_neg noBest, List.filter_map]
      refine congrArg _ (List.filter_congr fun place member => ?_)
      obtain ⟨index, _, rfl⟩ := List.mem_map.mp member
      simp [Scanned, noBest]
  rw [List.filter_append, oneSide, oneSide, levels, List.filter_append, List.map_append]

theorem sound_ordersOn (orderly : Orderly book spec) (place : LevelAddress) :
    Sound (ordersOn book place) := by
  rw [ordersOn, orderly.carries.pricedOrders_eq]
  exact (orderly.sound place.side).sublist List.filter_sublist

theorem toNat_dayVolume (orderly : Orderly book spec) :
    dayVolume book = ((((levels book).map fun place =>
      (volume (dayOrders (ordersOn book place))).toNat).sum : Nat) : Int) := by
  rw [dayVolume, ← Nat.coe_castAddMonoidHom, map_list_sum, List.map_map]
  refine congrArg List.sum (List.map_congr_left fun place _ => ?_)
  have length := length_dayOrders_le (sound_ordersOn orderly place)
  simp only [Function.comp_apply, Nat.coe_castAddMonoidHom]
  lia

/-- The totals of the levels that a session end looks at, in unbounded numbers. -/
def scannedTotals (book : OrderBook) : DayOrderPruneResult where
  ordersPruned := (((levels book).filter (Scanned book ·)).map fun place =>
    (dayOrders (ordersOn book place)).length).sum
  sharesErased := (((levels book).filter (Scanned book ·)).map fun place =>
    (volume (dayOrders (ordersOn book place))).toNat).sum
  priceLevelsErased := (levels book).countP fun place =>
    Scanned book place ∧ Uncounted (keptOrders (ordersOn book place))

theorem foldl_scannedQueues (carries : Carries book spec) :
    (scannedQueues book spec .buy ++ scannedQueues book spec .sell).foldl addExact {} =
      scannedTotals book := by
  rw [foldl_addExact, filter_scannedQueues carries, scannedTotals]
  simp only [List.map_map, List.countP_map, List.countP_filter, Nat.zero_add, Function.comp_def,
    Bool.decide_and, Bool.and_comm]

theorem forall_levelFits_iff (carries : Carries book spec) :
    (∀ queue ∈ scannedQueues book spec .buy ++ scannedQueues book spec .sell, LevelFits queue) ↔
      ∀ place ∈ levels book, Scanned book place →
        volume (dayOrders (ordersOn book place)) ≤ 2147483647 := by
  have visited : (∀ queue ∈ (scannedQueues book spec .buy ++ scannedQueues book spec .sell).filter
      fun queue => ¬ Uncounted queue, volume (dayOrders queue) ≤ 2147483647) ↔
        ∀ queue ∈ scannedQueues book spec .buy ++ scannedQueues book spec .sell,
          LevelFits queue := by
    simp only [List.mem_filter, decide_eq_true_eq, and_imp, LevelFits]
  rw [← visited, filter_scannedQueues carries]
  simp only [List.forall_mem_map, List.mem_filter, decide_eq_true_eq, and_imp]

/-- What a session end leaves on a level. -/
theorem ordersOn_after
    (carries : Carries book spec) (carriesAfter : Carries after spec')
    (sameMin : spec'.minPrice = spec.minPrice)
    (left : ∀ side price, queueAt side price (spec'.orders side) =
      survivors book side (queueAt side price (spec.orders side)))
    (place : LevelAddress) :
    ordersOn after place =
      if Scanned book place then keptOrders (ordersOn book place) else ordersOn book place := by
  have queue : ordersOn book place =
      queueAt place.side (spec.minPrice + place.index) (spec.orders place.side) :=
    carries.pricedOrders_eq place.side place.index
  rw [ordersOn, carriesAfter.pricedOrders_eq, sameMin, left, ← queue, survivors, ← ite_not]
  exact if_congr (by simp [Scanned]) rfl rfl

/-- A level that is emptied has been looked at, and its counter has become zero. -/
theorem counted_of_emptied
    (left : ∀ place, ordersOn after place =
      if Scanned book place then keptOrders (ordersOn book place) else ordersOn book place)
    (place : LevelAddress)
    (emptied : ordersOn book place ≠ [] ∧ ordersOn after place = []) :
    Scanned book place ∧ Uncounted (keptOrders (ordersOn book place)) := by
  rw [left place] at emptied
  by_cases scanned : Scanned book place
  · rw [if_pos scanned] at emptied
    refine ⟨scanned, ?_⟩
    rw [emptied.2]
    exact Nat.zero_mod _
  · rw [if_neg scanned] at emptied
    exact absurd emptied.2 emptied.1

theorem keptOrders_of_no_day {queue : List Order} (none : dayOrders queue = []) :
    keptOrders queue = queue := by
  refine List.filter_eq_self.mpr fun order member => ?_
  simpa using List.filter_eq_nil_iff.mp none order member

theorem numDayOrders_le (orderly : Orderly book spec) :
    (numDayOrders book : Int) ≤ dayVolume book := by
  rw [toNat_dayVolume orderly, numDayOrders]
  refine Int.ofNat_le.mpr (List.sum_le_sum fun place _ => ?_)
  have length := length_dayOrders_le (sound_ordersOn orderly place)
  lia

section Left

variable (left : ∀ place, ordersOn after place =
  if Scanned book place then keptOrders (ordersOn book place) else ordersOn book place)

include left

/-- Exact totals that fit count the DAY orders. -/
theorem Countable.of_exact
    (fits : ∀ place ∈ levels book, Scanned book place →
      volume (dayOrders (ordersOn book place)) ≤ 2147483647)
    (representable : Representable (scannedTotals book))
    (exact : ReportExact book after (scannedTotals book)) :
    Countable book := by
  have scanned : ∀ place ∈ levels book, dayOrders (ordersOn book place) ≠ [] →
      Scanned book place := fun place member day =>
    (sum_filter_eq_iff _ _).mp exact.ordersPruned place member
      fun none => day (List.length_eq_zero_iff.mp none)
  have emptied := (countP_eq_iff (counted_of_emptied left) (levels book)).mp
    exact.priceLevelsErased.symm
  constructor
  · exact scanned
  · intro place member day uncounted
    have seen := scanned place member day
    have nothing := (emptied place member ⟨seen, uncounted⟩).2
    rwa [left place, if_pos seen] at nothing
  · intro place member
    by_cases day : dayOrders (ordersOn book place) = []
    · rw [day]
      decide
    · exact fits place member (scanned place member day)
  · rw [← exact.sharesErased]
    exact_mod_cast representable.sharesErased
  · refine (List.countP_mono_left fun place member onlyDay => ?_).trans_lt
      representable.priceLevelsErased
    obtain ⟨day, nothing⟩ := of_decide_eq_true onlyDay
    refine decide_eq_true ⟨scanned place member day, ?_⟩
    rw [nothing]
    exact Nat.zero_mod _

/-- DAY orders that can be counted are counted. -/
theorem Countable.reportExact
    (orderly : Orderly book spec)
    (countable : Countable book) :
    ReportExact book after (scannedTotals book) ∧ Representable (scannedTotals book) := by
  -- A level that is left with its counter at zero held DAY orders only.
  have onlyDay : ∀ place ∈ levels book,
      Scanned book place ∧ Uncounted (keptOrders (ordersOn book place)) →
        dayOrders (ordersOn book place) ≠ [] ∧ keptOrders (ordersOn book place) = [] := by
    rintro place member ⟨scanned, uncounted⟩
    have day : dayOrders (ordersOn book place) ≠ [] := fun none =>
      scanned.2 (keptOrders_of_no_day none ▸ uncounted)
    exact ⟨day, countable.kept place member day uncounted⟩
  have exact : ReportExact book after (scannedTotals book) := by
    refine ⟨(sum_filter_eq_iff _ _).mpr fun place member some => ?_, ?_, ?_⟩
    · exact countable.scanned place member fun none => some (by rw [none, List.length_nil])
    · rw [toNat_dayVolume orderly]
      refine congrArg _ ((sum_filter_eq_iff _ _).mpr fun place member some => ?_)
      refine countable.scanned place member fun none => some ?_
      rw [none]
      rfl
    · refine ((countP_eq_iff (counted_of_emptied left) _).mpr ?_).symm
      intro place member counted
      obtain ⟨day, nothing⟩ := onlyDay place member counted
      rw [left place, if_pos counted.1]
      refine ⟨fun none => day ?_, nothing⟩
      rw [none]
      rfl
  refine ⟨exact, ?_, ?_, ?_⟩
  · have atLeastOne := numDayOrders_le orderly
    have total := countable.totalVolume
    rw [exact.ordersPruned]
    lia
  · have total := countable.totalVolume
    rw [← exact.sharesErased] at total
    exact_mod_cast total
  · refine (List.countP_mono_left fun place member counted => ?_).trans_lt countable.emptied
    exact decide_eq_true (onlyDay place member (of_decide_eq_true counted))

end Left

/-- A session end of an orderly book reports exact totals just when its DAY orders can be
counted. -/
theorem sessionEndExact_iff_countable
    (orderly : Orderly book spec)
    (bounded : OnLadders Bounded book) :
    SessionEndExact book ↔ Countable book := by
  obtain ⟨after, spec', ended, sums, carriesAfter, sameMin, survive⟩ :=
    orderly.carries.onSessionEnd bounded
  have left := ordersOn_after orderly.carries carriesAfter sameMin survive
  have sound : ∀ queue ∈ scannedQueues book spec .buy ++ scannedQueues book spec .sell,
      Sound queue := sound_scannedQueues orderly.sound
  have representable : Representable {} := ⟨by decide, by decide, by decide⟩
  have fits := forall_ladderSums_fits sound representable
  rw [foldl_scannedQueues orderly.carries, forall_levelFits_iff orderly.carries, ← sums] at fits
  have totals := @foldl_addCounted_eq_addExact {} _ sound
  rw [foldl_scannedQueues orderly.carries, forall_levelFits_iff orderly.carries] at totals
  constructor
  · rintro ⟨report, after', ended', exact, sumsFit⟩
    obtain ⟨rfl, rfl⟩ := Prod.mk.inj (Except.ok.inj (ended.symm.trans ended'))
    obtain ⟨levelsFit, totalsFit⟩ := fits.mp sumsFit
    rw [totals levelsFit totalsFit] at exact
    exact Countable.of_exact left levelsFit totalsFit exact
  · intro countable
    obtain ⟨exact, totalsFit⟩ := countable.reportExact left orderly
    have levelsFit : ∀ place ∈ levels book, Scanned book place →
        volume (dayOrders (ordersOn book place)) ≤ 2147483647 :=
      fun place member _ => countable.levelVolume place member
    refine ⟨_, after, ended, ?_, fits.mpr ⟨levelsFit, totalsFit⟩⟩
    rw [totals levelsFit totalsFit]
    exact exact

end Book

/-- In every reachable book, the report of a session end is exact just when the DAY orders
can be counted. -/
theorem session_end_exact_iff
    {events : List (Event OrderBook Operation Output)} {book : OrderBook}
    (run : UnboundedRun PublicCalls events book) :
    SessionEndExact book ↔ Countable book := by
  obtain ⟨spec, orderly⟩ := orderly_of_run run
  exact sessionEndExact_iff_countable orderly (bounded_of_run run)

/-- The DAY orders of the sample session can be counted. -/
theorem session_end_exact_sample : SessionEndExact sampleSession.2 :=
  (session_end_exact_iff sampleRun_public.unbounded).mpr
    ⟨by decide +kernel, by decide +kernel, by decide +kernel, by decide +kernel,
      by decide +kernel⟩

/-- Two DAY orders on one level, of one share more than a quantity can be. -/
def fullLevelCalls : List Operation :=
  [.submitLimitOrder ⟨1, 0, 2147483647, .buy, .day⟩, .submitLimitOrder ⟨2, 0, 1, .buy, .day⟩]

/-- The events of that session, and the book at its end. -/
def fullLevelSession : List (Event OrderBook Operation Output) × OrderBook :=
  (OrderBook.session sampleConfig fullLevelCalls).toOption.get (by decide +kernel)

/-- Their shares are reported as `2 ^ 64 - 2 ^ 31`. -/
theorem full_level_misreported :
    UnboundedRun PublicCalls fullLevelSession.1 fullLevelSession.2 ∧
      ¬ SessionEndExact fullLevelSession.2 ∧
      dayVolume fullLevelSession.2 = 2147483648 ∧
      (fullLevelSession.2.onSessionEnd.map fun ended => ended.1.sharesErased) =
        .ok 18446744071562067968 := by
  have run : BookRun PublicCalls fullLevelSession.1 fullLevelSession.2 :=
    OrderBook.run_of_session sampleConfig fullLevelCalls rfl (by decide +kernel)
      (by decide +kernel)
  have rests : dayVolume fullLevelSession.2 = 2147483648 := by decide +kernel
  have reported : (fullLevelSession.2.onSessionEnd.map fun ended => ended.1.sharesErased) =
      .ok 18446744071562067968 := by
    decide +kernel
  refine ⟨run.unbounded, ?_, rests, reported⟩
  rintro ⟨report, after, ended, exact, _⟩
  rw [ended] at reported
  have shares := exact.sharesErased
  rw [rests, show report.sharesErased = 18446744071562067968 from Except.ok.inj reported] at shares
  exact absurd shares (by decide)

end Properties
end MatchingEngine
