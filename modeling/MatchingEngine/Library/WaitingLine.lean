import Mathlib.Algebra.BigOperators.Group.List.Basic
import Mathlib.Algebra.Order.Group.Int
import Mathlib.Algebra.Ring.Int.Defs
import Mathlib.Data.List.Forall2

/-!
# Waiting lines

After some time a waiting line consists of those who are left of it, in their
order, and behind them of those who have joined it since.  Whoever has waited all
the time therefore has only those ahead that are left of those who were ahead
before.
-/

namespace MatchingEngine
namespace WaitingLine

variable {α β : Type*}

/-- The later line is what is left of the earlier one, with newcomers behind it. -/
def Advances (remains : α → α → Prop) (joined : α → Prop) (earlier later : List α) : Prop :=
  ∃ left newcomers, later = left ++ newcomers ∧
    List.SublistForall₂ remains left earlier ∧ ∀ newcomer ∈ newcomers, joined newcomer

section SublistForall₂

variable {remains : α → β → Prop}

theorem sublistForall₂_append
    {firstLater secondLater : List α} {firstEarlier secondEarlier : List β}
    (first : List.SublistForall₂ remains firstLater firstEarlier)
    (second : List.SublistForall₂ remains secondLater secondEarlier) :
    List.SublistForall₂ remains (firstLater ++ secondLater) (firstEarlier ++ secondEarlier) := by
  rw [List.sublistForall₂_iff] at first second ⊢
  obtain ⟨firstKept, firstRemains, firstSublist⟩ := first
  obtain ⟨secondKept, secondRemains, secondSublist⟩ := second
  exact ⟨firstKept ++ secondKept, List.rel_append firstRemains secondRemains,
    firstSublist.append secondSublist⟩

/-- Where two lists met in the earlier line, what is left of them meets. -/
theorem sublistForall₂_append_right
    {later : List α} {firstEarlier secondEarlier : List β}
    (remaining : List.SublistForall₂ remains later (firstEarlier ++ secondEarlier)) :
    ∃ first second, later = first ++ second ∧
      List.SublistForall₂ remains first firstEarlier ∧
      List.SublistForall₂ remains second secondEarlier := by
  induction firstEarlier generalizing later with
  | nil => exact ⟨[], later, rfl, .nil, remaining⟩
  | cons earlier firstEarlier inductionHypothesis =>
      cases remaining with
      | nil => exact ⟨[], [], rfl, .nil, .nil⟩
      | cons remainsHead remainsTail =>
          obtain ⟨first, second, rfl, inFirst, inSecond⟩ := inductionHypothesis remainsTail
          exact ⟨_ :: first, second, rfl, .cons remainsHead inFirst, inSecond⟩
      | cons_right remainsTail =>
          obtain ⟨first, second, rfl, inFirst, inSecond⟩ := inductionHypothesis remainsTail
          exact ⟨first, second, rfl, .cons_right inFirst, inSecond⟩

/-- Whoever is left was in the earlier line, behind those of whom the ones ahead are
left, and before those of whom the ones behind are left. -/
theorem sublistForall₂_split
    {front back : List α} {item : α} {earlier : List β}
    (remaining : List.SublistForall₂ remains (front ++ item :: back) earlier) :
    ∃ frontBefore original backBefore, earlier = frontBefore ++ original :: backBefore ∧
      remains item original ∧ List.SublistForall₂ remains front frontBefore ∧
      List.SublistForall₂ remains back backBefore := by
  induction earlier generalizing front with
  | nil =>
      cases front <;> cases remaining
  | cons head earlier inductionHypothesis =>
      cases front with
      | nil =>
          cases remaining with
          | cons remainsHead remainsTail =>
              exact ⟨[], head, earlier, rfl, remainsHead, .nil, remainsTail⟩
          | cons_right remainsTail =>
              obtain ⟨frontBefore, original, backBefore, rfl, parts, inFront, inBack⟩ :=
                @inductionHypothesis [] remainsTail
              exact ⟨head :: frontBefore, original, backBefore, rfl, parts, .nil, inBack⟩
      | cons first front =>
          cases remaining with
          | cons remainsHead remainsTail =>
              obtain ⟨frontBefore, original, backBefore, rfl, parts, inFront, inBack⟩ :=
                inductionHypothesis remainsTail
              exact ⟨head :: frontBefore, original, backBefore, rfl, parts,
                .cons remainsHead inFront, inBack⟩
          | cons_right remainsTail =>
              obtain ⟨frontBefore, original, backBefore, rfl, parts, inFront, inBack⟩ :=
                @inductionHypothesis (first :: front) remainsTail
              exact ⟨head :: frontBefore, original, backBefore, rfl, parts,
                .cons_right inFront, inBack⟩

/-- What is left of those that are picked out by what stays the same. -/
theorem sublistForall₂_filter
    {later : List α} {earlier : List β} {keepsLater : α → Bool} {keepsEarlier : β → Bool}
    (remaining : List.SublistForall₂ remains later earlier)
    (same : ∀ after before, remains after before → keepsLater after = keepsEarlier before) :
    List.SublistForall₂ remains (later.filter keepsLater) (earlier.filter keepsEarlier) := by
  rw [List.sublistForall₂_iff] at remaining ⊢
  obtain ⟨kept, remainsKept, sublist⟩ := remaining
  refine ⟨kept.filter keepsEarlier, ?_, sublist.filter keepsEarlier⟩
  apply List.rel_filter _ remainsKept
  intro after before afterRemains
  exact Bool.eq_iff_iff.mp (same after before afterRemains)

theorem sublistForall₂_imp
    {weaker : α → β → Prop} {later : List α} {earlier : List β}
    (remaining : List.SublistForall₂ remains later earlier)
    (weaken : ∀ after before, remains after before → weaker after before) :
    List.SublistForall₂ weaker later earlier := by
  rw [List.sublistForall₂_iff] at remaining ⊢
  obtain ⟨kept, remainsKept, sublist⟩ := remaining
  exact ⟨kept, remainsKept.imp weaken, sublist⟩

theorem length_le_of_sublistForall₂
    {later : List α} {earlier : List β}
    (remaining : List.SublistForall₂ remains later earlier) :
    later.length ≤ earlier.length := by
  obtain ⟨kept, remainsKept, sublist⟩ := List.sublistForall₂_iff.mp remaining
  calc later.length = kept.length := remainsKept.length_eq
    _ ≤ earlier.length := sublist.length_le

theorem sum_nonneg
    {line : List α} {size : α → Int}
    (nonneg : ∀ waiting ∈ line, 0 ≤ size waiting) :
    0 ≤ (line.map size).sum := by
  induction line with
  | nil => exact Int.le_refl 0
  | cons first line inductionHypothesis =>
      obtain ⟨firstNonneg, lineNonneg⟩ := List.forall_mem_cons.mp nonneg
      rw [List.map_cons, List.sum_cons]
      exact Int.add_nonneg firstNonneg (inductionHypothesis lineNonneg)

/-- If nobody grows, those who are left are no larger together than all were. -/
theorem sum_le_of_sublistForall₂
    {later : List α} {earlier : List β} {sizeLater : α → Int} {sizeEarlier : β → Int}
    (remaining : List.SublistForall₂ remains later earlier)
    (smaller : ∀ after before, remains after before → sizeLater after ≤ sizeEarlier before)
    (nonneg : ∀ before ∈ earlier, 0 ≤ sizeEarlier before) :
    (later.map sizeLater).sum ≤ (earlier.map sizeEarlier).sum := by
  induction remaining with
  | nil => exact sum_nonneg nonneg
  | cons related _ inductionHypothesis =>
      have smallerRest := inductionHypothesis (List.forall_mem_cons.mp nonneg).2
      rw [List.map_cons, List.map_cons, List.sum_cons, List.sum_cons]
      exact Int.add_le_add (smaller _ _ related) smallerRest
  | cons_right _ inductionHypothesis =>
      obtain ⟨firstNonneg, restNonneg⟩ := List.forall_mem_cons.mp nonneg
      have smallerRest := inductionHypothesis restNonneg
      rw [List.map_cons, List.sum_cons]
      omega

end SublistForall₂

variable {remains : α → α → Prop} {joined : α → Prop} {earlier middle later : List α}

theorem Advances.of_sublistForall₂
    (remaining : List.SublistForall₂ remains later earlier) :
    Advances remains joined earlier later :=
  ⟨later, [], (List.append_nil later).symm, remaining, by simp⟩

theorem Advances.append
    (advances : Advances remains joined earlier later)
    {newcomers : List α}
    (joins : ∀ newcomer ∈ newcomers, joined newcomer) :
    Advances remains joined earlier (later ++ newcomers) := by
  obtain ⟨left, others, rfl, remaining, othersJoined⟩ := advances
  refine ⟨left, others ++ newcomers, List.append_assoc .., remaining, ?_⟩
  exact List.forall_mem_append.mpr ⟨othersJoined, joins⟩

theorem Advances.mono
    {weaker : α → α → Prop} {joinedBefore : α → Prop}
    (advances : Advances remains joinedBefore earlier later)
    (weakenRemains : ∀ after before, remains after before → weaker after before)
    (weakenJoined : ∀ item, joinedBefore item → joined item) :
    Advances weaker joined earlier later := by
  obtain ⟨left, newcomers, parts, remaining, allJoined⟩ := advances
  exact ⟨left, newcomers, parts, sublistForall₂_imp remaining weakenRemains,
    fun newcomer member => weakenJoined newcomer (allJoined newcomer member)⟩

/-- A line that advances twice advances: newcomers of the first time may be left or
gone. -/
theorem Advances.trans
    (first : Advances remains joined earlier middle)
    (second : Advances remains joined middle later)
    (transitive : ∀ after between before,
      remains after between → remains between before → remains after before)
    (stays : ∀ after before, remains after before → joined before → joined after) :
    Advances remains joined earlier later := by
  obtain ⟨left, newcomers, rfl, remaining, allJoined⟩ := first
  obtain ⟨leftLater, newcomersLater, rfl, remainingLater, allJoinedLater⟩ := second
  obtain ⟨fromLeft, fromNewcomers, rfl, inLeft, inNewcomers⟩ :=
    sublistForall₂_append_right remainingLater
  have transitiveRelation : IsTrans α remains := ⟨transitive⟩
  refine ⟨fromLeft, fromNewcomers ++ newcomersLater, List.append_assoc ..,
    List.SublistForall₂.is_trans.trans _ _ _ inLeft remaining, ?_⟩
  refine List.forall_mem_append.mpr ⟨fun newcomer member => ?_, allJoinedLater⟩
  obtain ⟨front, back, rfl⟩ := List.append_of_mem member
  obtain ⟨_, before, _, rfl, afterRemains, _⟩ := sublistForall₂_split inNewcomers
  exact stays newcomer before afterRemains (allJoined before (by simp))

/-- Whoever has not joined since was in the earlier line, and those who are ahead now
are left of those who were ahead then. -/
theorem Advances.split
    {front back : List α} {item : α}
    (advances : Advances remains joined earlier (front ++ item :: back))
    (waited : ¬ joined item) :
    ∃ frontBefore original backBefore, earlier = frontBefore ++ original :: backBefore ∧
      remains item original ∧ List.SublistForall₂ remains front frontBefore ∧
      Advances remains joined backBefore back := by
  obtain ⟨left, newcomers, parts, remaining, allJoined⟩ := advances
  rcases List.append_eq_append_iff.mp parts with
    ⟨between, rfl, rest⟩ | ⟨between, rfl, rest⟩
  · cases between with
    | nil =>
        exact absurd (allJoined item (by rw [← List.nil_append newcomers, ← rest]; simp)) waited
    | cons first between =>
        rw [List.cons_append, List.cons.injEq] at rest
        obtain ⟨rfl, rfl⟩ := rest
        obtain ⟨frontBefore, original, backBefore, rfl, itemRemains, inFront, inBack⟩ :=
          sublistForall₂_split remaining
        exact ⟨frontBefore, original, backBefore, rfl, itemRemains, inFront,
          between, newcomers, rfl, inBack, allJoined⟩
  · exact absurd (allJoined item (by rw [rest]; simp)) waited

/-- A line may be told by what is known of those who wait. -/
theorem advances_map_iff
    {known : β → α} {earlier later : List β} :
    Advances remains joined (earlier.map known) (later.map known) ↔
      Advances (fun after before => remains (known after) (known before))
        (fun item => joined (known item)) earlier later := by
  constructor
  · rintro ⟨left, newcomers, parts, remaining, allJoined⟩
    obtain ⟨leftKnown, newcomersKnown, rfl, rfl, rfl⟩ := List.map_eq_append_iff.mp parts
    rw [List.sublistForall₂_map_left_iff, List.sublistForall₂_map_right_iff] at remaining
    exact ⟨leftKnown, newcomersKnown, rfl, remaining, List.forall_mem_map.mp allJoined⟩
  · rintro ⟨left, newcomers, rfl, remaining, allJoined⟩
    refine ⟨left.map known, newcomers.map known, List.map_append, ?_,
      List.forall_mem_map.mpr allJoined⟩
    rw [List.sublistForall₂_map_left_iff, List.sublistForall₂_map_right_iff]
    exact remaining

end WaitingLine
end MatchingEngine
