import Mathlib.Algebra.BigOperators.Ring.List
import Mathlib.Algebra.Order.BigOperators.Group.List
import Mathlib.Tactic.Linarith
import Mathlib.Tactic.Ring
import MatchingEngine.Library.Fill

/-!
# What a fill gives to each offer, and what it costs

An offer gives what the demand leaves after the offers in front of it, at most
its size.  No choice of amounts gets more of the demand, and when the offers are
sorted by price, no choice that gets as much costs less.
-/

namespace MatchingEngine
namespace Fill

variable {α : Type*} {size : α → Int} {shrink : α → Int → α}

/-! ## Amounts -/

/-- What an outcome has taken from the offers of a kind. -/
def Outcome.takenFrom (outcome : Outcome α) (kind : α → Bool) : Int :=
  ((outcome.taken.filter fun entry => kind entry.1).map Prod.snd).sum

theorem takenFrom_eq_zero
    {kind : α → Bool} {offers : List α}
    (others : ∀ offer ∈ offers, kind offer = false)
    (demand : Int) :
    (fill size shrink demand offers).takenFrom kind = 0 := by
  have nothing : (fill size shrink demand offers).taken.filter (fun entry => kind entry.1) = [] :=
    List.filter_eq_nil_iff.mpr fun entry member => by
      simp [others entry.1 (mem_of_mem_taken member)]
  rw [Outcome.takenFrom, nothing, List.map_nil, List.sum_nil]

theorem takenFrom_cons
    (kind : α → Bool) (entry : α × Int) (taken : List (α × Int)) (rest : List α) :
    (Outcome.mk (entry :: taken) rest).takenFrom kind =
      (if kind entry.1 then entry.2 else 0) + (Outcome.mk taken rest).takenFrom kind := by
  simp only [Outcome.takenFrom, List.filter_cons]
  split
  · rw [List.map_cons, List.sum_cons]
  · rw [zero_add]

/-- The only offer of a kind gives what the demand leaves after the offers in front of
it, at most its size. -/
theorem takenFrom_fill
    {kind : α → Bool} {front back : List α} {offer : α} {demand : Int}
    (positive : ∀ other ∈ front ++ offer :: back, 0 < size other)
    (ofKind : kind offer = true)
    (inFront : ∀ other ∈ front, kind other = false)
    (behind : ∀ other ∈ back, kind other = false) :
    (fill size shrink demand (front ++ offer :: back)).takenFrom kind =
      max 0 (min (size offer) (demand - offered size front)) := by
  induction front generalizing demand with
  | nil =>
      have offerPositive : 0 < size offer := positive offer (by simp)
      have later := @takenFrom_eq_zero α size shrink kind back behind
      rw [List.nil_append, offered_nil]
      by_cases wanted : 0 < demand
      · by_cases outlasts : demand < size offer
        · rw [fill_cons_of_lt wanted outlasts, takenFrom_cons, if_pos ofKind]
          simp only [Outcome.takenFrom, List.filter_nil, List.map_nil, List.sum_nil]
          omega
        · rw [fill_cons_of_le wanted (not_lt.mp outlasts), takenFrom_cons, if_pos ofKind]
          change size offer + (fill size shrink (demand - size offer) back).takenFrom kind = _
          rw [later]
          omega
      · rw [fill_of_nonpos (not_lt.mp wanted)]
        simp only [Outcome.takenFrom, List.filter_nil, List.map_nil, List.sum_nil]
        omega
  | cons head front inductionHypothesis =>
      obtain ⟨headOther, frontOther⟩ := List.forall_mem_cons.mp inFront
      obtain ⟨headPositive, tailPositive⟩ := List.forall_mem_cons.mp positive
      have offerPositive : 0 < size offer := tailPositive offer (by simp)
      have frontNonneg : 0 ≤ offered size front := offered_nonneg fun other member =>
        tailPositive other (List.mem_append_left _ member)
      have headIsOther : ¬ kind head = true := by simp [headOther]
      rw [List.cons_append, offered_cons]
      by_cases wanted : 0 < demand
      · by_cases outlasts : demand < size head
        · rw [fill_cons_of_lt wanted outlasts, takenFrom_cons, if_neg headIsOther]
          simp only [Outcome.takenFrom, List.filter_nil, List.map_nil, List.sum_nil]
          omega
        · rw [fill_cons_of_le wanted (not_lt.mp outlasts), takenFrom_cons, if_neg headIsOther]
          change 0 + (fill size shrink (demand - size head)
            (front ++ offer :: back)).takenFrom kind = _
          rw [inductionHypothesis tailPositive frontOther]
          omega
      · rw [fill_of_nonpos (not_lt.mp wanted)]
        simp only [Outcome.takenFrom, List.filter_nil, List.map_nil, List.sum_nil]
        omega

/-! ## Cost -/

section Cost

variable {price amount : α → Int} {bound : Int} {offers : List α}

theorem sum_mul_le
    (below : ∀ offer ∈ offers, price offer ≤ bound)
    (nonneg : ∀ offer ∈ offers, 0 ≤ amount offer) :
    (offers.map fun offer => price offer * amount offer).sum ≤
      bound * (offers.map amount).sum := by
  rw [← List.sum_map_mul_left]
  apply List.sum_le_sum
  exact fun offer member =>
    mul_le_mul_of_nonneg_right (below offer member) (nonneg offer member)

theorem le_sum_mul
    (above : ∀ offer ∈ offers, bound ≤ price offer)
    (nonneg : ∀ offer ∈ offers, 0 ≤ amount offer) :
    bound * (offers.map amount).sum ≤
      (offers.map fun offer => price offer * amount offer).sum := by
  rw [← List.sum_map_mul_left]
  apply List.sum_le_sum
  exact fun offer member =>
    mul_le_mul_of_nonneg_right (above offer member) (nonneg offer member)

/-- The cost of what an outcome has taken. -/
def Outcome.cost (price : α → Int) (outcome : Outcome α) : Int :=
  (outcome.taken.map fun entry => price entry.1 * entry.2).sum

/-- Amounts that can be taken from the offers. -/
def Feasible (size amount : α → Int) (offers : List α) : Prop :=
  ∀ offer ∈ offers, 0 ≤ amount offer ∧ amount offer ≤ size offer

instance (size amount : α → Int) (offers : List α) : Decidable (Feasible size amount offers) :=
  inferInstanceAs (Decidable (∀ offer ∈ offers, _))

/-- No feasible amounts get more of the demand than a fill. -/
theorem Feasible.sum_le_total
    {demand : Int}
    (feasible : Feasible size amount offers)
    (positive : ∀ offer ∈ offers, 0 < size offer)
    (atMost : (offers.map amount).sum ≤ demand) :
    (offers.map amount).sum ≤ (fill size shrink demand offers).total := by
  have atMostOffered : (offers.map amount).sum ≤ offered size offers :=
    List.sum_le_sum fun offer member => (feasible offer member).2
  rw [total_fill positive]
  omega

/-- To take less of the cheap offers and as much more of the dear ones is no cheaper. -/
theorem Feasible.cost_le_of_threshold
    {used untouched : List α}
    (feasible : Feasible size amount (used ++ untouched))
    (cheap : ∀ offer ∈ used, price offer ≤ bound)
    (dear : ∀ offer ∈ untouched, bound ≤ price offer) :
    (used.map fun offer => price offer * size offer).sum +
        bound * (((used ++ untouched).map amount).sum - offered size used) ≤
      ((used ++ untouched).map fun offer => price offer * amount offer).sum := by
  have spared := sum_mul_le cheap fun offer member =>
    Int.sub_nonneg_of_le (feasible offer (List.mem_append_left _ member)).2
  have extra := le_sum_mul dear fun offer member =>
    (feasible offer (List.mem_append_right _ member)).1
  have costs : (used.map fun offer => price offer * size offer).sum =
      (used.map fun offer => price offer * amount offer).sum +
        (used.map fun offer => price offer * (size offer - amount offer)).sum := by
    rw [← List.sum_map_add]
    simp only [← mul_add, add_sub_cancel]
  have sizes : offered size used =
      (used.map amount).sum + (used.map fun offer => size offer - amount offer).sum := by
    rw [← List.sum_map_add, offered]
    simp only [add_sub_cancel]
  rw [List.map_append, List.sum_append, List.map_append, List.sum_append, costs, sizes]
  linarith

/-- Some price separates the front of a sorted list from the rest of it. -/
theorem exists_threshold
    {front back : List α}
    (sorted : (front ++ back).Pairwise fun near far => price near ≤ price far) :
    ∃ bound, (∀ offer ∈ front, price offer ≤ bound) ∧
      ∀ offer ∈ back, bound ≤ price offer := by
  obtain ⟨frontSorted, _, across⟩ := List.pairwise_append.mp sorted
  rcases List.eq_nil_or_concat' front with rfl | ⟨front, last, rfl⟩
  · cases back with
    | nil => exact ⟨0, by simp, by simp⟩
    | cons first back =>
        exact ⟨price first, by simp,
          List.forall_mem_cons.mpr ⟨le_rfl, (List.pairwise_cons.mp sorted).1⟩⟩
  · refine ⟨price last, fun offer member => ?_, across last (by simp)⟩
    rcases List.mem_append.mp member with inFront | isLast
    · exact (List.pairwise_append.mp frontSorted).2.2 offer inFront last List.mem_cons_self
    · rw [List.mem_singleton.mp isLast]

/-- A fill from offers that are sorted by price costs no more than any other choice of
amounts that gets as much. -/
theorem Divides.cost_le
    {outcome : Outcome α}
    (divides : Divides size shrink offers outcome)
    (sorted : offers.Pairwise fun near far => price near ≤ price far)
    (feasible : Feasible size amount offers)
    (same : (offers.map amount).sum = outcome.total) :
    outcome.cost price ≤ (offers.map fun offer => price offer * amount offer).sum := by
  have costUsed : ∀ used : List α,
      ((used.map fun offer => (offer, size offer)).map fun entry => price entry.1 * entry.2).sum =
        (used.map fun offer => price offer * size offer).sum := by
    intro used
    rw [List.map_map]
    rfl
  cases divides with
  | whole used untouched =>
      obtain ⟨bound, cheap, dear⟩ := exists_threshold sorted
      have costs := feasible.cost_le_of_threshold cheap dear
      rw [same, Outcome.total, sum_used, sub_self, mul_zero, add_zero] at costs
      rw [Outcome.cost, costUsed]
      exact costs
  | partly used last taken untouched positive below =>
      obtain ⟨_, lastSorted, across⟩ := List.pairwise_append.mp sorted
      have cheap : ∀ offer ∈ used, price offer ≤ price last := fun offer member =>
        across offer member last List.mem_cons_self
      have dear : ∀ offer ∈ last :: untouched, price last ≤ price offer :=
        List.forall_mem_cons.mpr ⟨le_rfl, (List.pairwise_cons.mp lastSorted).1⟩
      have costs := feasible.cost_le_of_threshold cheap dear
      rw [same, Outcome.total, List.map_append, List.sum_append, sum_used, List.map_singleton,
        List.sum_singleton, add_sub_cancel_left] at costs
      rw [Outcome.cost, List.map_append, List.sum_append, costUsed, List.map_singleton,
        List.sum_singleton]
      exact costs

end Cost

end Fill
end MatchingEngine
