import Mathlib.Data.List.Sort

/-!
# Lists ordered by a key, first in first out among equal keys

A priority queue with first-in-first-out service among equal priorities is
kept here as one list whose keys never decrease.  `enqueue` puts a new element
behind every element of the same or a smaller key, and `bucket` selects the
elements of one key in their order of service.  The lemmas say how the two
operations and filtering act on each other, and that the buckets, taken in key
order, are the whole list.
-/

namespace MatchingEngine
namespace KeyedList

variable {α κ : Type*} [LinearOrder κ] (key : α → κ)

/-- The keys of the list never decrease. -/
def Ordered (elements : List α) : Prop :=
  elements.Pairwise fun earlier later => key earlier ≤ key later

/-- The elements of one key, in their order of service. -/
def bucket (k : κ) (elements : List α) : List α :=
  elements.filter fun element => key element = k

/-- Put an element behind every element of the same or a smaller key. -/
def enqueue (element : α) (elements : List α) : List α :=
  elements.orderedInsert (fun new old => key new < key old) element

variable {key}

@[simp] theorem ordered_nil : Ordered key [] := List.Pairwise.nil

@[simp] theorem ordered_cons {head : α} {rest : List α} :
    Ordered key (head :: rest) ↔
      (∀ element ∈ rest, key head ≤ key element) ∧ Ordered key rest :=
  List.pairwise_cons

/-- Dropping elements keeps a list ordered. -/
theorem Ordered.sublist
    {shorter longer : List α}
    (ordered : Ordered key longer)
    (sublist : shorter.Sublist longer) :
    Ordered key shorter :=
  List.Pairwise.sublist sublist ordered

theorem Ordered.filter
    {elements : List α}
    (ordered : Ordered key elements)
    (keep : α → Bool) :
    Ordered key (elements.filter keep) :=
  ordered.sublist List.filter_sublist

@[simp] theorem mem_bucket {element : α} {k : κ} {elements : List α} :
    element ∈ bucket key k elements ↔ element ∈ elements ∧ key element = k := by
  simp [bucket]

@[simp] theorem bucket_nil (k : κ) : bucket key k [] = [] := rfl

theorem bucket_cons_self (head : α) (rest : List α) :
    bucket key (key head) (head :: rest) =
      head :: bucket key (key head) rest := by
  simp [bucket]

theorem bucket_cons_of_ne
    {head : α} {k : κ}
    (different : key head ≠ k)
    (rest : List α) :
    bucket key k (head :: rest) = bucket key k rest := by
  simp [bucket, different]

/-- Selecting a key and filtering commute. -/
theorem bucket_filter (k : κ) (keep : α → Bool) (elements : List α) :
    bucket key k (elements.filter keep) = (bucket key k elements).filter keep := by
  simp only [bucket, List.filter_filter]
  congr 1
  funext element
  exact Bool.and_comm _ _

theorem bucket_sublist (k : κ) (elements : List α) :
    (bucket key k elements).Sublist elements :=
  List.filter_sublist

theorem bucket_eq_nil {k : κ} {elements : List α} :
    bucket key k elements = [] ↔ ∀ element ∈ elements, key element ≠ k := by
  simp [bucket, List.filter_eq_nil_iff]

/-! ## Putting an element behind its equals -/

@[simp] theorem enqueue_nil (element : α) : enqueue key element [] = [element] := rfl

theorem enqueue_cons (element head : α) (rest : List α) :
    enqueue key element (head :: rest) =
      if key element < key head then element :: head :: rest
      else head :: enqueue key element rest := by
  simp [enqueue]

/-- Behind elements of the same or a smaller key, the new one comes last. -/
theorem enqueue_of_forall_le
    {element : α} {elements : List α}
    (atMost : ∀ other ∈ elements, key other ≤ key element) :
    enqueue key element elements = elements ++ [element] := by
  induction elements with
  | nil => rfl
  | cons head rest inductionHypothesis =>
      rw [enqueue_cons, if_neg (atMost head List.mem_cons_self).not_gt,
        inductionHypothesis fun other member => atMost other (List.mem_cons_of_mem _ member),
        List.cons_append]

/-- Before elements of larger keys, the new one comes first. -/
theorem enqueue_of_forall_lt
    {element : α} {elements : List α}
    (below : ∀ other ∈ elements, key element < key other) :
    enqueue key element elements = element :: elements := by
  cases elements with
  | nil => rfl
  | cons head rest => rw [enqueue_cons, if_pos (below head List.mem_cons_self)]

theorem enqueue_perm (element : α) (elements : List α) :
    (enqueue key element elements).Perm (element :: elements) :=
  List.perm_orderedInsert _ _ _

@[simp] theorem mem_enqueue {element new : α} {elements : List α} :
    element ∈ enqueue key new elements ↔ element = new ∨ element ∈ elements :=
  List.mem_orderedInsert _

/-- A relation that holds between the elements in their order holds after `enqueue`, if
it holds from the elements of the same or a smaller key to the new one and from
the new one to the elements of a larger key. -/
theorem Ordered.pairwise_enqueue
    {relation : α → α → Prop} {element : α} {elements : List α}
    (ordered : Ordered key elements)
    (pairwise : elements.Pairwise relation)
    (before : ∀ other ∈ elements, key other ≤ key element → relation other element)
    (after : ∀ other ∈ elements, key element < key other → relation element other) :
    (KeyedList.enqueue key element elements).Pairwise relation := by
  induction elements with
  | nil => simp [KeyedList.enqueue]
  | cons head rest inductionHypothesis =>
      obtain ⟨headLeast, restOrdered⟩ := ordered_cons.mp ordered
      obtain ⟨headRelated, restPairwise⟩ := List.pairwise_cons.mp pairwise
      rw [enqueue_cons]
      by_cases better : key element < key head
      · rw [if_pos better]
        refine List.pairwise_cons.mpr ⟨fun other member => after other member ?_, pairwise⟩
        rcases List.mem_cons.mp member with rfl | inRest
        · exact better
        · exact better.trans_le (headLeast other inRest)
      · rw [if_neg better]
        refine List.pairwise_cons.mpr ⟨fun other member => ?_,
          inductionHypothesis restOrdered restPairwise
            (fun other member => before other (List.mem_cons_of_mem _ member))
            fun other member => after other (List.mem_cons_of_mem _ member)⟩
        rcases mem_enqueue.mp member with rfl | inRest
        · exact before head List.mem_cons_self (not_lt.mp better)
        · exact headRelated other inRest

/-- The new element takes its place in key order. -/
theorem Ordered.enqueue
    {elements : List α}
    (ordered : Ordered key elements)
    (element : α) :
    Ordered key (enqueue key element elements) :=
  ordered.pairwise_enqueue ordered (fun _ _ atMost => atMost) fun _ _ below => below.le

/-- The new element goes to the back of its own bucket. -/
theorem bucket_enqueue_self
    {elements : List α}
    (ordered : Ordered key elements)
    (element : α) :
    bucket key (key element) (enqueue key element elements) =
      bucket key (key element) elements ++ [element] := by
  induction elements with
  | nil => simp [bucket]
  | cons head rest inductionHypothesis =>
      obtain ⟨headLeast, restOrdered⟩ := ordered_cons.mp ordered
      rw [enqueue_cons]
      by_cases better : key element < key head
      · have nonePresent : bucket key (key element) (head :: rest) = [] := by
          refine bucket_eq_nil.mpr fun other member => ?_
          rcases List.mem_cons.mp member with rfl | inRest
          · exact better.ne'
          · exact (better.trans_le (headLeast other inRest)).ne'
        rw [if_pos better, bucket_cons_self, nonePresent, List.nil_append]
      · rw [if_neg better]
        by_cases same : key head = key element
        · rw [← same, bucket_cons_self, bucket_cons_self, same,
            inductionHypothesis restOrdered, List.cons_append]
        · rw [bucket_cons_of_ne same, bucket_cons_of_ne same,
            inductionHypothesis restOrdered]

/-- The other buckets do not notice the new element. -/
theorem bucket_enqueue_of_ne
    {element : α} {k : κ}
    (different : key element ≠ k)
    (elements : List α) :
    bucket key k (enqueue key element elements) = bucket key k elements := by
  induction elements with
  | nil => simp [bucket, different]
  | cons head rest inductionHypothesis =>
      rw [enqueue_cons]
      by_cases better : key element < key head
      · rw [if_pos better, bucket_cons_of_ne different]
      · rw [if_neg better]
        by_cases same : key head = k
        · rw [← same, bucket_cons_self, bucket_cons_self, same, inductionHypothesis]
        · rw [bucket_cons_of_ne same, bucket_cons_of_ne same, inductionHypothesis]

/-- The element served first after `enqueue`. -/
theorem head?_enqueue (element : α) (elements : List α) :
    (enqueue key element elements).head? =
      match elements.head? with
      | none => some element
      | some head => if key element < key head then some element else some head := by
  cases elements with
  | nil => rfl
  | cons head rest =>
      rw [enqueue_cons]
      by_cases better : key element < key head <;> simp [better]

/-- Filtering away the new element undoes `enqueue`. -/
theorem filter_enqueue_of_drop
    {keep : α → Bool} {element : α}
    (dropped : keep element = false)
    (elements : List α) :
    (enqueue key element elements).filter keep = elements.filter keep := by
  induction elements with
  | nil => simp [dropped]
  | cons head rest inductionHypothesis =>
      rw [enqueue_cons]
      by_cases better : key element < key head
      · simp [better, dropped]
      · rw [if_neg better]
        by_cases headKept : keep head = true
        · rw [List.filter_cons_of_pos headKept, List.filter_cons_of_pos headKept,
            inductionHypothesis]
        · rw [List.filter_cons_of_neg headKept, List.filter_cons_of_neg headKept,
            inductionHypothesis]

/-- Filtering away others does not change where the new element goes. -/
theorem Ordered.filter_enqueue_of_keep
    {keep : α → Bool} {element : α} {elements : List α}
    (ordered : Ordered key elements)
    (kept : keep element = true) :
    (KeyedList.enqueue key element elements).filter keep =
      KeyedList.enqueue key element (elements.filter keep) := by
  induction elements with
  | nil => simp [kept]
  | cons head rest inductionHypothesis =>
      obtain ⟨headLeast, restOrdered⟩ := ordered_cons.mp ordered
      rw [enqueue_cons]
      by_cases better : key element < key head
      · rw [if_pos better, List.filter_cons_of_pos kept, enqueue_of_forall_lt]
        intro other member
        rcases List.mem_cons.mp (List.mem_of_mem_filter member) with rfl | inRest
        · exact better
        · exact better.trans_le (headLeast other inRest)
      · rw [if_neg better]
        by_cases headKept : keep head = true
        · rw [List.filter_cons_of_pos headKept, List.filter_cons_of_pos headKept,
            inductionHypothesis restOrdered, enqueue_cons, if_neg better]
        · rw [List.filter_cons_of_neg headKept, List.filter_cons_of_neg headKept,
            inductionHypothesis restOrdered]

/-- A map that keeps the order of the keys commutes with `enqueue`. -/
theorem map_enqueue
    {β κ' : Type*} [LinearOrder κ'] {key' : β → κ'} {f : α → β} {element : α}
    (keyLess : ∀ other, key' (f element) < key' (f other) ↔ key element < key other)
    (elements : List α) :
    (enqueue key element elements).map f =
      enqueue key' (f element) (elements.map f) := by
  induction elements with
  | nil => rfl
  | cons head rest inductionHypothesis =>
      rw [List.map_cons, enqueue_cons, enqueue_cons]
      by_cases better : key element < key head
      · rw [if_pos better, if_pos ((keyLess head).mpr better), List.map_cons, List.map_cons]
      · rw [if_neg better, if_neg fun less => better ((keyLess head).mp less), List.map_cons,
          inductionHypothesis]

/-- Elements of different keys go to their places in either order. -/
theorem enqueue_comm
    {first second : α}
    (different : key first ≠ key second)
    (elements : List α) :
    enqueue key second (enqueue key first elements) =
      enqueue key first (enqueue key second elements) := by
  induction elements with
  | nil =>
      rcases lt_or_gt_of_ne different with less | greater
      · rw [enqueue_nil, enqueue_nil, enqueue_cons, enqueue_cons, if_pos less,
          if_neg less.not_gt, enqueue_nil]
      · rw [enqueue_nil, enqueue_nil, enqueue_cons, enqueue_cons, if_pos greater,
          if_neg greater.not_gt, enqueue_nil]
  | cons head rest inductionHypothesis =>
      by_cases firstBetter : key first < key head <;>
        by_cases secondBetter : key second < key head
      · rcases lt_or_gt_of_ne different with less | greater
        · simp only [enqueue_cons, firstBetter, secondBetter, less, less.not_gt, if_true,
            if_false]
        · simp only [enqueue_cons, firstBetter, secondBetter, greater, greater.not_gt, if_true,
            if_false]
      · have less := firstBetter.trans_le (not_lt.mp secondBetter)
        simp only [enqueue_cons, firstBetter, secondBetter, less.not_gt, if_true, if_false]
      · have less := secondBetter.trans_le (not_lt.mp firstBetter)
        simp only [enqueue_cons, firstBetter, secondBetter, less.not_gt, if_true, if_false]
      · simp only [enqueue_cons, firstBetter, secondBetter, if_false, inductionHypothesis]

/-! ## The front of the list -/

/-- When no key is smaller than `k` and some element has key `k`, the first
element has key `k`. -/
theorem Ordered.head?_key
    {elements : List α} {k : κ}
    (ordered : Ordered key elements)
    (least : ∀ element ∈ elements, k ≤ key element)
    (present : bucket key k elements ≠ []) :
    elements.head?.map key = some k := by
  cases elements with
  | nil => exact absurd rfl present
  | cons head rest =>
      obtain ⟨headLeast, _⟩ := ordered_cons.mp ordered
      obtain ⟨element, member⟩ := List.exists_mem_of_ne_nil _ present
      obtain ⟨inList, keyEquality⟩ := mem_bucket.mp member
      have headBelow : key head ≤ k := by
        rcases List.mem_cons.mp inList with rfl | inRest
        · exact keyEquality.le
        · exact (headLeast element inRest).trans keyEquality.le
      simpa using le_antisymm headBelow (least head List.mem_cons_self)

/-- Elements that are kept together with all smaller ones come before the
others. -/
theorem Ordered.partition
    {elements : List α} {keep : α → Bool}
    (ordered : Ordered key elements)
    (downward : ∀ smaller ∈ elements, ∀ larger ∈ elements,
      key smaller ≤ key larger → keep larger = true → keep smaller = true) :
    elements.filter keep ++ elements.filter (fun element => !keep element) = elements := by
  induction elements with
  | nil => rfl
  | cons head rest inductionHypothesis =>
      obtain ⟨headLeast, restOrdered⟩ := ordered_cons.mp ordered
      have restCase := inductionHypothesis restOrdered fun smaller smallerMember larger
          largerMember =>
        downward smaller (List.mem_cons_of_mem _ smallerMember) larger
          (List.mem_cons_of_mem _ largerMember)
      cases headKept : keep head with
      | true => simpa [headKept] using restCase
      | false =>
          have noneKept : ∀ element ∈ head :: rest, keep element = false := by
            intro element member
            rcases List.mem_cons.mp member with rfl | inRest
            · exact headKept
            · by_contra kept
              have := downward head List.mem_cons_self element member
                (headLeast element inRest) (by simpa using kept)
              simp [headKept] at this
          rw [List.filter_eq_nil_iff.mpr (fun element member => by
              simp [noneKept element member]),
            List.filter_eq_self.mpr (fun element member => by
              simp [noneKept element member]),
            List.nil_append]

/-- The elements up to a threshold come before the others. -/
theorem Ordered.split
    {elements : List α}
    (ordered : Ordered key elements)
    (threshold : κ) :
    elements.filter (fun element => key element ≤ threshold) ++
        elements.filter (fun element => threshold < key element) = elements := by
  have above : elements.filter (fun element => threshold < key element) =
      elements.filter fun element => !decide (key element ≤ threshold) := by
    refine List.filter_congr fun element _ => ?_
    rw [← decide_not]
    exact decide_eq_decide.mpr not_le.symm
  rw [above]
  refine ordered.partition fun smaller _ larger _ below kept => ?_
  simp only [decide_eq_true_eq] at kept ⊢
  exact below.trans kept

/-- The buckets taken in key order are the whole list. -/
theorem Ordered.flatMap_bucket
    {elements : List α}
    (ordered : Ordered key elements)
    (keys : List κ)
    (increasing : keys.Pairwise (· < ·))
    (covered : ∀ element ∈ elements, key element ∈ keys) :
    keys.flatMap (fun k => bucket key k elements) = elements := by
  induction keys generalizing elements with
  | nil =>
      cases elements with
      | nil => rfl
      | cons head rest => simpa using covered head List.mem_cons_self
  | cons k keys inductionHypothesis =>
      obtain ⟨kLeast, keysIncreasing⟩ := List.pairwise_cons.mp increasing
      have keyCases : ∀ element ∈ elements, key element = k ∨ key element ∈ keys :=
        fun element member => List.mem_cons.mp (covered element member)
      have bucketEquality :
          elements.filter (fun element => key element ≤ k) = bucket key k elements := by
        refine List.filter_congr fun element member => ?_
        rcases keyCases element member with same | later
        · simp [same]
        · simp [(kLeast _ later).not_ge, (kLeast _ later).ne']
      have tailEquality : ∀ other ∈ keys,
          bucket key other (elements.filter fun element => k < key element) =
            bucket key other elements := by
        intro other member
        rw [bucket_filter]
        refine List.filter_eq_self.mpr fun element inBucket => ?_
        have keyEquality := (mem_bucket.mp inBucket).2
        simpa [keyEquality] using kLeast other member
      have tailCase := inductionHypothesis
        (ordered.filter fun element => k < key element) keysIncreasing (by
          intro element member
          obtain ⟨inList, above⟩ := List.mem_filter.mp member
          rcases keyCases element inList with same | later
          · simp [same] at above
          · exact later)
      calc
        (k :: keys).flatMap (fun k => bucket key k elements) =
            bucket key k elements ++
              keys.flatMap (fun other => bucket key other elements) := rfl
        _ = bucket key k elements ++
              keys.flatMap (fun other => bucket key other
                (elements.filter fun element => k < key element)) := by
          congr 1
          exact List.flatMap_congr fun other member => (tailEquality other member).symm
        _ = elements.filter (fun element => key element ≤ k) ++
              elements.filter (fun element => k < key element) := by
          rw [tailCase, bucketEquality]
        _ = elements := ordered.split k

/-- Lists with the same buckets have the same elements. -/
theorem mem_iff_of_buckets
    {elements others : List α}
    (same : ∀ k, bucket key k elements = bucket key k others)
    (element : α) :
    element ∈ elements ↔ element ∈ others := by
  have inBucket : element ∈ bucket key (key element) elements ↔
      element ∈ bucket key (key element) others := by
    rw [same]
  simpa using inBucket

/-- The head of an ordered list has the least key. -/
theorem Ordered.key_head_le
    {head element : α} {rest : List α}
    (ordered : Ordered key (head :: rest))
    (member : element ∈ head :: rest) :
    key head ≤ key element := by
  rcases List.mem_cons.mp member with rfl | inRest
  · exact le_rfl
  · exact (ordered_cons.mp ordered).1 element inRest

/-- The buckets of an ordered list determine it. -/
theorem Ordered.eq_of_buckets
    {elements others : List α}
    (ordered : Ordered key elements)
    (othersOrdered : Ordered key others)
    (same : ∀ k, bucket key k elements = bucket key k others) :
    elements = others := by
  induction elements generalizing others with
  | nil =>
      refine (List.eq_nil_iff_forall_not_mem.mpr fun element member => ?_).symm
      exact List.not_mem_nil ((mem_iff_of_buckets same element).mpr member)
  | cons head rest inductionHypothesis =>
      have sameMembers := mem_iff_of_buckets same
      cases others with
      | nil => exact absurd ((sameMembers head).mp List.mem_cons_self) List.not_mem_nil
      | cons other others =>
          -- Both heads have the least key, so that both are the head of its bucket.
          have sameKey : key head = key other :=
            le_antisymm (ordered.key_head_le ((sameMembers other).mpr List.mem_cons_self))
              (othersOrdered.key_head_le ((sameMembers head).mp List.mem_cons_self))
          have heads := same (key head)
          rw [bucket_cons_self, sameKey, bucket_cons_self] at heads
          obtain ⟨rfl, sameRest⟩ := List.cons.inj heads
          rw [inductionHypothesis (ordered_cons.mp ordered).2 (ordered_cons.mp othersOrdered).2]
          intro k
          by_cases isKey : key head = k
          · exact isKey ▸ sameRest
          · have equal := same k
            rwa [bucket_cons_of_ne isKey, bucket_cons_of_ne isKey] at equal

end KeyedList
end MatchingEngine
