import Mathlib.Algebra.BigOperators.Group.List.Basic
import Mathlib.Algebra.Order.Group.Int
import Mathlib.Algebra.Ring.Int.Defs

/-!
# Filling a demand from a list of offers

`fill` walks a list of offers in order and takes from each of them what is
still wanted, at most the whole offer.  It records what it took from whom and
leaves the offers that were not used up.  The lemmas account for every unit:
what is taken is the demand or all there is, and what is taken and what is left
are together what was offered.
-/

namespace MatchingEngine
namespace Fill

variable {α : Type*} (size : α → Int) (shrink : α → Int → α)

/-- What was taken from which offer, and the offers that remain. -/
structure Outcome (α : Type*) where
  taken : List (α × Int)
  rest : List α

/-- Units taken in total. -/
def Outcome.total (outcome : Outcome α) : Int :=
  (outcome.taken.map Prod.snd).sum

/-- Units on offer. -/
def offered (offers : List α) : Int :=
  (offers.map size).sum

/-- Take up to `demand` units from the offers in order.  An offer larger than
the demand stays with its remainder. -/
def fill : Int → List α → Outcome α
  | _, [] => ⟨[], []⟩
  | demand, offer :: offers =>
      if demand ≤ 0 then ⟨[], offer :: offers⟩
      else if demand < size offer then
        ⟨[(offer, demand)], shrink offer demand :: offers⟩
      else
        let later := fill (demand - size offer) offers
        ⟨(offer, size offer) :: later.taken, later.rest⟩

variable {size shrink}

@[simp] theorem offered_nil : offered size [] = 0 := rfl

@[simp] theorem offered_cons (offer : α) (offers : List α) :
    offered size (offer :: offers) = size offer + offered size offers := by
  simp [offered]

theorem offered_append (first second : List α) :
    offered size (first ++ second) = offered size first + offered size second := by
  simp [offered]

theorem offered_nonneg
    {offers : List α}
    (positive : ∀ offer ∈ offers, 0 < size offer) :
    0 ≤ offered size offers := by
  induction offers with
  | nil => simp
  | cons offer offers inductionHypothesis =>
      have headPositive := positive offer List.mem_cons_self
      have tailNonneg := inductionHypothesis fun other member =>
        positive other (List.mem_cons_of_mem _ member)
      rw [offered_cons]
      omega

/-- Fewer offers offer at most as much. -/
theorem offered_le_of_sublist
    {shorter longer : List α}
    (positive : ∀ offer ∈ longer, 0 < size offer)
    (sublist : shorter.Sublist longer) :
    offered size shorter ≤ offered size longer := by
  induction sublist with
  | slnil => exact le_rfl
  | cons offer _ inductionHypothesis =>
      have tail := inductionHypothesis fun other member =>
        positive other (List.mem_cons_of_mem _ member)
      have head := positive offer List.mem_cons_self
      rw [offered_cons]
      omega
  | cons_cons offer _ inductionHypothesis =>
      have tail := inductionHypothesis fun other member =>
        positive other (List.mem_cons_of_mem _ member)
      rw [offered_cons, offered_cons]
      omega

/-- What is offered by two disjoint kinds of offers together. -/
theorem offered_filter_or
    {both first second : α → Bool} {offers : List α}
    (covered : ∀ offer ∈ offers, both offer = (first offer || second offer))
    (disjoint : ∀ offer ∈ offers, first offer = true → second offer = false) :
    offered size (offers.filter both) =
      offered size (offers.filter first) + offered size (offers.filter second) := by
  induction offers with
  | nil => rfl
  | cons offer offers inductionHypothesis =>
      have tail := inductionHypothesis
        (fun other member => covered other (List.mem_cons_of_mem _ member))
        (fun other member => disjoint other (List.mem_cons_of_mem _ member))
      have headCovered := covered offer List.mem_cons_self
      have headDisjoint := disjoint offer List.mem_cons_self
      simp only [List.filter_cons, headCovered]
      cases isFirst : first offer with
      | true =>
          simp only [headDisjoint isFirst, Bool.or_false, if_true, Bool.false_eq_true,
            if_false, offered_cons]
          omega
      | false =>
          cases isSecond : second offer <;>
            simp only [Bool.or_false, Bool.or_true, if_true, Bool.false_eq_true,
              if_false, offered_cons] <;>
            omega

@[simp] theorem fill_nil (demand : Int) :
    fill size shrink demand [] = ⟨[], []⟩ := by
  unfold fill
  rfl

/-- Without demand nothing is taken. -/
theorem fill_of_nonpos
    {demand : Int}
    (nonpos : demand ≤ 0)
    (offers : List α) :
    fill size shrink demand offers = ⟨[], offers⟩ := by
  cases offers with
  | nil => rfl
  | cons offer offers => simp [fill, nonpos]

/-- The first offer outlasts the demand. -/
theorem fill_cons_of_lt
    {demand : Int} {offer : α}
    (positive : 0 < demand)
    (outlasts : demand < size offer)
    (offers : List α) :
    fill size shrink demand (offer :: offers) =
      ⟨[(offer, demand)], shrink offer demand :: offers⟩ := by
  simp [fill, positive, outlasts]

/-- The first offer is used up. -/
theorem fill_cons_of_le
    {demand : Int} {offer : α}
    (positive : 0 < demand)
    (usedUp : size offer ≤ demand)
    (offers : List α) :
    fill size shrink demand (offer :: offers) =
      ⟨(offer, size offer) :: (fill size shrink (demand - size offer) offers).taken,
        (fill size shrink (demand - size offer) offers).rest⟩ := by
  simp only [fill, positive.not_ge, usedUp.not_gt, if_false]

@[simp] theorem total_nil (rest : List α) : (Outcome.mk [] rest).total = 0 := rfl

@[simp] theorem total_cons (entry : α × Int) (taken : List (α × Int)) (rest : List α) :
    (Outcome.mk (entry :: taken) rest).total =
      entry.2 + (Outcome.mk taken rest).total := by
  simp [Outcome.total]

/-- What is taken is the demand or all there is, whichever is less. -/
theorem total_fill
    {demand : Int} {offers : List α}
    (positive : ∀ offer ∈ offers, 0 < size offer) :
    (fill size shrink demand offers).total =
      max 0 (min demand (offered size offers)) := by
  induction offers generalizing demand with
  | nil => simp
  | cons offer offers inductionHypothesis =>
      have headPositive := positive offer List.mem_cons_self
      have tailPositive : ∀ other ∈ offers, 0 < size other := fun other member =>
        positive other (List.mem_cons_of_mem _ member)
      have tailNonneg := offered_nonneg tailPositive
      rw [offered_cons]
      by_cases wanted : 0 < demand
      · by_cases outlasts : demand < size offer
        · rw [fill_cons_of_lt wanted outlasts]
          simp only [total_cons, total_nil]
          omega
        · rw [fill_cons_of_le wanted (not_lt.mp outlasts), total_cons]
          change size offer +
              (fill size shrink (demand - size offer) offers).total = _
          rw [inductionHypothesis tailPositive]
          omega
      · rw [fill_of_nonpos (not_lt.mp wanted), total_nil]
        omega

/-- A map that keeps the sizes and commutes with shrinking commutes with `fill`. -/
theorem fill_map
    {β : Type*} {size' : β → Int} {shrink' : β → Int → β} {f : α → β}
    (sizeKept : ∀ offer, size' (f offer) = size offer)
    (shrinkMapped : ∀ offer amount, f (shrink offer amount) = shrink' (f offer) amount)
    (demand : Int) (offers : List α) :
    fill size' shrink' demand (offers.map f) =
      ⟨(fill size shrink demand offers).taken.map (Prod.map f id),
        (fill size shrink demand offers).rest.map f⟩ := by
  induction offers generalizing demand with
  | nil => rfl
  | cons offer offers inductionHypothesis =>
      rw [List.map_cons]
      by_cases wanted : 0 < demand
      · by_cases outlasts : demand < size offer
        · rw [fill_cons_of_lt wanted outlasts, fill_cons_of_lt wanted (by rwa [sizeKept]),
            ← shrinkMapped]
          rfl
        · have usedUp := not_lt.mp outlasts
          rw [fill_cons_of_le wanted usedUp, fill_cons_of_le wanted (by rwa [sizeKept]),
            sizeKept, inductionHypothesis]
          rfl
      · rw [fill_of_nonpos (not_lt.mp wanted), fill_of_nonpos (not_lt.mp wanted)]
        rfl

/-- When the demand is not met, no offer remains. -/
theorem rest_eq_nil_of_total_lt
    {demand : Int} {offers : List α}
    (positive : ∀ offer ∈ offers, 0 < size offer)
    (unmet : (fill size shrink demand offers).total < demand) :
    (fill size shrink demand offers).rest = [] := by
  induction offers generalizing demand with
  | nil => rfl
  | cons offer offers inductionHypothesis =>
      have tailPositive : ∀ other ∈ offers, 0 < size other := fun other member =>
        positive other (List.mem_cons_of_mem _ member)
      by_cases wanted : 0 < demand
      · by_cases outlasts : demand < size offer
        · rw [fill_cons_of_lt wanted outlasts] at unmet
          simp at unmet
        · rw [fill_cons_of_le wanted (not_lt.mp outlasts)] at unmet ⊢
          rw [total_cons] at unmet
          apply inductionHypothesis tailPositive
          change size offer +
              (fill size shrink (demand - size offer) offers).total < demand at unmet
          omega
      · rw [fill_of_nonpos (not_lt.mp wanted), total_nil] at unmet
        omega

/-- How an outcome divides the offers: into those used up, at most one that
outlasts the demand, and those that are not reached. -/
inductive Divides (size : α → Int) (shrink : α → Int → α) : List α → Outcome α → Prop
  | whole (used untouched : List α) :
      Divides size shrink (used ++ untouched)
        ⟨used.map fun offer => (offer, size offer), untouched⟩
  | partly (used : List α) (offer : α) (amount : Int) (untouched : List α)
      (positive : 0 < amount) (below : amount < size offer) :
      Divides size shrink (used ++ offer :: untouched)
        ⟨(used.map fun offer => (offer, size offer)) ++ [(offer, amount)],
          shrink offer amount :: untouched⟩

/-- A fill uses the offers up one after the other, but for the last. -/
theorem fill_divides (demand : Int) (offers : List α) :
    Divides size shrink offers (fill size shrink demand offers) := by
  induction offers generalizing demand with
  | nil => exact .whole [] []
  | cons offer offers inductionHypothesis =>
      by_cases wanted : 0 < demand
      · by_cases outlasts : demand < size offer
        · rw [fill_cons_of_lt wanted outlasts]
          exact .partly [] offer demand offers wanted outlasts
        · rw [fill_cons_of_le wanted (not_lt.mp outlasts)]
          have later := inductionHypothesis (demand - size offer)
          generalize fill size shrink (demand - size offer) offers = outcome at later
          cases later with
          | whole used untouched => exact .whole (offer :: used) untouched
          | partly used last amount untouched positive below =>
              exact .partly (offer :: used) last amount untouched positive below
      · rw [fill_of_nonpos (not_lt.mp wanted)]
        exact .whole [] (offer :: offers)

/-- Units taken from the offers that are used up. -/
theorem sum_used (used : List α) :
    ((used.map fun offer => (offer, size offer)).map Prod.snd).sum = offered size used := by
  rw [List.map_map]
  rfl

/-- What is taken from the offers of a kind and what is left of them are together
what they offered. -/
theorem Divides.offered_filter
    (kind : α → Bool) {offers : List α} {outcome : Outcome α}
    (divides : Divides size shrink offers outcome)
    (kindKept : ∀ offer amount, kind (shrink offer amount) = kind offer)
    (shrunk : ∀ offer amount, size (shrink offer amount) = size offer - amount) :
    offered size (offers.filter kind) =
      ((outcome.taken.filter fun entry => kind entry.1).map Prod.snd).sum +
        offered size (outcome.rest.filter kind) := by
  have usedUp : ∀ used : List α,
      (((used.map fun offer => (offer, size offer)).filter
        fun entry => kind entry.1).map Prod.snd).sum = offered size (used.filter kind) := by
    intro used
    rw [List.filter_map, sum_used]
    rfl
  cases divides with
  | whole used untouched => rw [List.filter_append, offered_append, usedUp]
  | partly used last amount untouched =>
      rw [List.filter_append, offered_append, List.filter_append, List.map_append,
        List.sum_append, usedUp]
      cases ofKind : kind last with
      | true =>
          simp only [List.filter_cons, kindKept, ofKind, if_true, offered_cons, shrunk,
            List.filter_nil, List.map_cons, List.map_nil, List.sum_cons, List.sum_nil]
          omega
      | false =>
          simp only [List.filter_cons, kindKept, ofKind, Bool.false_eq_true, if_false,
            List.filter_nil, List.map_nil, List.sum_nil]
          omega

theorem map_eq_append_cons
    {used : List α} {entry : α × Int} {front back : List (α × Int)}
    (split : used.map (fun offer => (offer, size offer)) = front ++ entry :: back) :
    ∃ before after, used = before ++ entry.1 :: after ∧
      front = before.map fun offer => (offer, size offer) := by
  obtain ⟨before, rest, rfl, rfl, atEntry⟩ := List.map_eq_append_iff.mp split
  obtain ⟨offer, after, rfl, rfl, _⟩ := List.map_eq_cons_iff.mp atEntry
  exact ⟨before, after, rfl, rfl⟩

/-- Before anything is taken from an offer, those in front of it are used up. -/
theorem Divides.of_taken
    {offers : List α} {outcome : Outcome α} {entry : α × Int} {front back : List (α × Int)}
    (divides : Divides size shrink offers outcome)
    (split : outcome.taken = front ++ entry :: back) :
    ∃ before after, offers = before ++ entry.1 :: after ∧
      front = before.map fun offer => (offer, size offer) := by
  cases divides with
  | whole used untouched =>
      obtain ⟨before, after, rfl, usedUp⟩ := map_eq_append_cons split
      exact ⟨before, after ++ untouched, by simp, usedUp⟩
  | partly used last amount untouched =>
      rcases List.append_eq_append_iff.mp split with
        ⟨between, usedUp, atEntry⟩ | ⟨between, usedUp, atEntry⟩
      · obtain ⟨rfl, rfl, _⟩ : between = [] ∧ entry = (last, amount) ∧ back = [] := by
          cases between <;> simp_all
        exact ⟨used, untouched, rfl, by simpa using usedUp⟩
      · cases between with
        | nil =>
            obtain ⟨rfl, _⟩ := List.cons.inj atEntry
            exact ⟨used, untouched, rfl, by simpa using usedUp.symm⟩
        | cons first between =>
            obtain ⟨rfl, _⟩ := List.cons.inj atEntry
            obtain ⟨before, after, rfl, frontUsedUp⟩ := map_eq_append_cons usedUp
            exact ⟨before, after ++ last :: untouched, by simp, frontUsedUp⟩

/-- What shrinking keeps of an offer, an outcome keeps of the offers in their
order. -/
theorem Divides.rest_map_sublist
    {β : Type*} {feature : α → β} {offers : List α} {outcome : Outcome α}
    (divides : Divides size shrink offers outcome)
    (kept : ∀ offer amount, feature (shrink offer amount) = feature offer) :
    (outcome.rest.map feature).Sublist (offers.map feature) := by
  cases divides with
  | whole used untouched => exact (List.sublist_append_right used untouched).map feature
  | partly used offer amount untouched =>
      rw [List.map_cons, kept, ← List.map_cons]
      exact (List.sublist_append_right used (offer :: untouched)).map feature

/-- An outcome takes from the offers in their order, and from each of them once. -/
theorem Divides.taken_sublist
    {offers : List α} {outcome : Outcome α}
    (divides : Divides size shrink offers outcome) :
    (outcome.taken.map Prod.fst).Sublist offers := by
  have usedUp : ∀ used : List α,
      (used.map fun offer => (offer, size offer)).map Prod.fst = used := by
    intro used
    rw [List.map_map]
    exact List.map_id used
  cases divides with
  | whole used untouched =>
      rw [usedUp]
      exact List.sublist_append_left used untouched
  | partly used offer amount untouched =>
      rw [List.map_append, usedUp]
      exact (List.singleton_sublist.mpr List.mem_cons_self).append_left used

/-! ## Filling in two parts -/

section Join

variable {β : Type*}

/-- Append a list, and merge the last element of the one with the first element of the
other when they can be merged. -/
def joinWith (merge : α → α → Option α) : List α → List α → List α
  | [], second => second
  | [last], [] => [last]
  | [last], head :: second =>
      match merge last head with
      | some merged => merged :: second
      | none => last :: head :: second
  | element :: next :: first, second => element :: joinWith merge (next :: first) second

variable {merge : α → α → Option α}

@[simp] theorem joinWith_nil_left (second : List α) : joinWith merge [] second = second := by
  unfold joinWith
  rfl

@[simp] theorem joinWith_nil_right (first : List α) : joinWith merge first [] = first := by
  induction first with
  | nil => rfl
  | cons element first inductionHypothesis =>
      cases first with
      | nil => rfl
      | cons next first => rw [joinWith, inductionHypothesis]

/-- An element that merges with nothing in the second list stays apart. -/
theorem joinWith_cons
    {element : α} {first second : List α}
    (apart : first = [] → ∀ head ∈ second, merge element head = none) :
    joinWith merge (element :: first) second = element :: joinWith merge first second := by
  cases first with
  | cons next first => rw [joinWith]
  | nil =>
      cases second with
      | nil => rfl
      | cons head second => simp [joinWith, apart rfl head List.mem_cons_self]

/-- Merging before or after a conversion. -/
theorem map_joinWith
    {merge' : β → β → Option β} {convert : α → β}
    (converted : ∀ last head, (merge last head).map convert = merge' (convert last) (convert head))
    (first second : List α) :
    (joinWith merge first second).map convert =
      joinWith merge' (first.map convert) (second.map convert) := by
  induction first with
  | nil => simp
  | cons element first inductionHypothesis =>
      cases first with
      | cons next first =>
          rw [List.map_cons] at inductionHypothesis
          rw [joinWith, List.map_cons, inductionHypothesis, List.map_cons, List.map_cons, joinWith]
      | nil =>
          cases second with
          | nil => rfl
          | cons head second =>
              simp only [joinWith, List.map_cons, List.map_nil, ← converted]
              cases merge element head <;> rfl

/-- A sum that merging respects is the sum of both lists. -/
theorem sum_joinWith
    {measure : α → Int}
    (additive : ∀ last head merged, merge last head = some merged →
      measure merged = measure last + measure head)
    (first second : List α) :
    ((joinWith merge first second).map measure).sum =
      (first.map measure).sum + (second.map measure).sum := by
  induction first with
  | nil => simp
  | cons element first inductionHypothesis =>
      cases first with
      | cons next first =>
          rw [joinWith, List.map_cons, List.sum_cons, inductionHypothesis]
          simp only [List.map_cons, List.sum_cons]
          omega
      | nil =>
          cases second with
          | nil => simp
          | cons head second =>
              simp only [joinWith]
              cases merged : merge element head with
              | none => simp
              | some both =>
                  simp only [List.map_cons, List.sum_cons, List.map_nil, List.sum_nil,
                    additive _ _ _ merged]
                  omega

end Join

section Split

variable {κ : Type*} [DecidableEq κ] {key : α → κ}

/-- Shrinking takes amounts off the size and keeps the key. -/
structure Shrinks (size : α → Int) (shrink : α → Int → α) (key : α → κ) : Prop where
  size : ∀ offer amount, size (shrink offer amount) = size offer - amount
  again : ∀ offer amount amount',
    shrink (shrink offer amount) amount' = shrink offer (amount + amount')
  key : ∀ offer amount, key (shrink offer amount) = key offer

/-- Two entries about one offer are one entry. -/
def mergeTaken (key : α → κ) (last head : α × Int) : Option (α × Int) :=
  if key last.1 = key head.1 then some (last.1, last.2 + head.2) else none

/-- An outcome that has taken nothing has left everything. -/
theorem rest_of_taken_eq_nil
    {demand : Int} {offers : List α}
    (nothing : (fill size shrink demand offers).taken = []) :
    (fill size shrink demand offers).rest = offers := by
  cases offers with
  | nil => rfl
  | cons offer offers =>
      by_cases wanted : 0 < demand
      · by_cases outlasts : demand < size offer
        · simp [fill_cons_of_lt wanted outlasts] at nothing
        · simp [fill_cons_of_le wanted (not_lt.mp outlasts)] at nothing
      · rw [fill_of_nonpos (not_lt.mp wanted)]

/-- Whatever is taken is taken from an offer. -/
theorem mem_of_mem_taken
    {demand : Int} {offers : List α} {entry : α × Int}
    (member : entry ∈ (fill size shrink demand offers).taken) :
    entry.1 ∈ offers := by
  obtain ⟨front, back, split⟩ := List.append_of_mem member
  obtain ⟨before, after, rfl, _⟩ := (fill_divides demand offers).of_taken split
  simp

/-- A demand is filled in two parts as it is at once; the offer that the cut falls into is
reported in both parts. -/
theorem fill_add
    {first second : Int} {offers : List α}
    (firstNonneg : 0 ≤ first)
    (secondNonneg : 0 ≤ second)
    (shrinks : Shrinks size shrink key)
    (distinct : (offers.map key).Nodup) :
    fill size shrink (first + second) offers =
      ⟨joinWith (mergeTaken key) (fill size shrink first offers).taken
          (fill size shrink second (fill size shrink first offers).rest).taken,
        (fill size shrink second (fill size shrink first offers).rest).rest⟩ := by
  induction offers generalizing first with
  | nil => simp
  | cons offer offers inductionHypothesis =>
      obtain ⟨headFresh, tailDistinct⟩ := List.nodup_cons.mp distinct
      rcases firstNonneg.eq_or_lt with rfl | firstPositive
      · simp [fill_of_nonpos le_rfl]
      by_cases outlasts : first < size offer
      · rw [fill_cons_of_lt firstPositive outlasts]
        rcases secondNonneg.eq_or_lt with rfl | secondPositive
        · rw [add_zero, fill_cons_of_lt firstPositive outlasts, fill_of_nonpos le_rfl]
          simp
        -- The cut falls into the first offer.
        by_cases bothOutlast : second < size (shrink offer first)
        · have together : first + second < size offer := by
            rw [shrinks.size] at bothOutlast
            omega
          rw [fill_cons_of_lt secondPositive bothOutlast,
            fill_cons_of_lt (by omega) together, shrinks.again]
          simp [joinWith, mergeTaken, shrinks.key]
        · have together : size offer ≤ first + second := by
            rw [shrinks.size] at bothOutlast
            omega
          have remaining : second - size (shrink offer first) = first + second - size offer := by
            rw [shrinks.size]
            omega
          rw [fill_cons_of_le secondPositive (not_lt.mp bothOutlast),
            fill_cons_of_le (by omega) together, remaining]
          simp [joinWith, mergeTaken, shrinks.key, shrinks.size]
      · have remaining : first + second - size offer = (first - size offer) + second := by omega
        rw [fill_cons_of_le firstPositive (not_lt.mp outlasts),
          fill_cons_of_le (by omega) (by omega), remaining,
          inductionHypothesis (by omega) tailDistinct, joinWith_cons]
        -- Nothing taken later is from the first offer.
        intro nothing entry member
        rw [rest_of_taken_eq_nil nothing] at member
        have different : key offer ≠ key entry.1 := fun equal =>
          headFresh (equal ▸ List.mem_map_of_mem (mem_of_mem_taken member))
        simp [mergeTaken, different]

/-- What is taken in two parts is together what is taken at once. -/
theorem total_fill_add
    {first second : Int} {offers : List α}
    (firstNonneg : 0 ≤ first)
    (secondNonneg : 0 ≤ second)
    (shrinks : Shrinks size shrink key)
    (distinct : (offers.map key).Nodup) :
    (fill size shrink (first + second) offers).total =
      (fill size shrink first offers).total +
        (fill size shrink second (fill size shrink first offers).rest).total := by
  rw [fill_add firstNonneg secondNonneg shrinks distinct]
  refine sum_joinWith (fun last head merged isMerged => ?_) _ _
  unfold mergeTaken at isMerged
  split at isMerged
  · rw [← Option.some.inj isMerged]
  · cases isMerged

end Split

end Fill
end MatchingEngine
