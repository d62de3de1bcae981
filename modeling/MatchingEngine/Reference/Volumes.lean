import Mathlib.Algebra.BigOperators.Group.List.Basic
import Mathlib.Algebra.Order.BigOperators.Group.List
import MatchingEngine.Reference.Ledger

/-!
# Volumes of a ledger

In a well-formed ledger the queues list the live orders, each of them once.  The
shares in a queue then change with the orders that come to it, shrink in it and leave it.
-/

namespace MatchingEngine
namespace Reference
namespace Ledger

/-- The queues list the live orders, each of them once. -/
structure WellFormed (ledger : Ledger) : Prop where
  listed : ∀ side price id,
    id ∈ ledger.queue side price ↔ ∃ shares, ledger.live id = some ⟨side, price, shares⟩
  nodup : ∀ side price, (ledger.queue side price).Nodup
  positive : ∀ id entry, ledger.live id = some entry → 0 < entry.openQuantity

variable {ledger : Ledger} {id : OrderID} {entry : Entry}

theorem openQuantityOf_eq (found : ledger.live id = some entry) :
    ledger.openQuantityOf id = entry.openQuantity := by
  rw [openQuantityOf, found]

/-- The queue of a side and price after a change to one queue. -/
theorem onQueue_apply
    (ledger : Ledger) (side other : Side) (price otherPrice : Price)
    (change : List OrderID → List OrderID) :
    ledger.onQueue side price change other otherPrice =
      if other = side ∧ otherPrice = price then change (ledger.queue side price)
      else ledger.queue other otherPrice := by
  rw [onQueue]
  by_cases sameSide : other = side
  · subst sameSide
    rw [Function.update_self, Function.update_apply]
    simp only [true_and]
  · rw [Function.update_of_ne sameSide, if_neg fun same => sameSide same.1]

theorem openQuantityOf_of_update
    {next : Ledger} {value : Option Entry} {other : OrderID}
    (updated : next.live = Function.update ledger.live id value)
    (different : other ≠ id) :
    next.openQuantityOf other = ledger.openQuantityOf other := by
  rw [openQuantityOf, openQuantityOf, updated, Function.update_of_ne different]

/-- The shares in a list of orders, none of which has changed. -/
theorem sum_openQuantityOf
    {next : Ledger} {value : Option Entry} {queue : List OrderID}
    (updated : next.live = Function.update ledger.live id value)
    (untouched : id ∉ queue) :
    (queue.map next.openQuantityOf).sum = (queue.map ledger.openQuantityOf).sum := by
  refine congrArg List.sum (List.map_congr_left fun other member => ?_)
  exact openQuantityOf_of_update updated fun same => untouched (same ▸ member)

/-- The shares in a queue are those of one order and of the others. -/
theorem sum_eq_add_filter
    {queue : List OrderID} (openQuantityOf : OrderID → Quantity)
    (nodup : queue.Nodup)
    (member : id ∈ queue) :
    (queue.map openQuantityOf).sum = openQuantityOf id +
      ((queue.filter fun other => other ≠ id).map openQuantityOf).sum := by
  rw [← List.sum_map_erase openQuantityOf member, nodup.erase_eq_filter]
  congr 3
  exact List.filter_congr fun other _ => by simp [bne, beq_eq_decide]

theorem WellFormed.mem_queue
    (wellFormed : ledger.WellFormed)
    (found : ledger.live id = some entry) :
    id ∈ ledger.queue entry.side entry.price :=
  (wellFormed.listed _ _ _).mpr ⟨_, found⟩

theorem WellFormed.volume_nonneg (wellFormed : ledger.WellFormed) (side : Side) (price : Price) :
    0 ≤ ledger.volume side price := by
  refine List.sum_nonneg fun quantity member => ?_
  obtain ⟨id, inQueue, rfl⟩ := List.mem_map.mp member
  obtain ⟨shares, found⟩ := (wellFormed.listed side price id).mp inQueue
  rw [openQuantityOf_eq found]
  exact (wellFormed.positive id _ found).le

/-- A live order is in one queue only. -/
theorem WellFormed.not_mem_queue
    (wellFormed : ledger.WellFormed)
    (found : ledger.live id = some entry)
    {side : Side} {price : Price}
    (elsewhere : ¬ (side = entry.side ∧ price = entry.price)) :
    id ∉ ledger.queue side price := by
  intro member
  obtain ⟨shares, listed⟩ := (wellFormed.listed side price id).mp member
  rw [found] at listed
  obtain rfl := Option.some.inj listed
  exact elsewhere ⟨rfl, rfl⟩

/-- An order that is not live is in no queue. -/
theorem WellFormed.absent
    (wellFormed : ledger.WellFormed)
    (fresh : ledger.live id = none)
    (side : Side) (price : Price) :
    id ∉ ledger.queue side price := by
  intro member
  obtain ⟨shares, found⟩ := (wellFormed.listed side price id).mp member
  rw [fresh] at found
  cases found

theorem not_mem_queue_erase
    {other : OrderID}
    (absent : ∀ side price, other ∉ ledger.queue side price)
    (side : Side) (price : Price) :
    other ∉ (ledger.erase id entry).queue side price := by
  rw [queue_erase, onQueue_apply]
  split
  · exact fun member => absent _ _ (List.mem_of_mem_filter member)
  · exact absent side price

theorem volume_insert
    (absent : ∀ side price, id ∉ ledger.queue side price)
    (entry : Entry) (side : Side) (price : Price) :
    (ledger.insert id entry).volume side price = ledger.volume side price +
      if side = entry.side ∧ price = entry.price then entry.openQuantity else 0 := by
  have here : (ledger.insert id entry).openQuantityOf id = entry.openQuantity :=
    openQuantityOf_eq (by rw [live_insert, Function.update_self])
  rw [volume, queue_insert, onQueue_apply]
  split
  next same =>
    obtain ⟨rfl, rfl⟩ := same
    rw [List.map_append, List.sum_append, sum_openQuantityOf (live_insert ..) (absent _ _),
      List.map_singleton, here, List.sum_singleton]
    rfl
  next =>
    rw [sum_openQuantityOf (live_insert ..) (absent _ _), Int.add_zero]
    rfl

theorem volume_erase
    (wellFormed : ledger.WellFormed)
    (found : ledger.live id = some entry)
    (side : Side) (price : Price) :
    (ledger.erase id entry).volume side price = ledger.volume side price -
      if side = entry.side ∧ price = entry.price then entry.openQuantity else 0 := by
  rw [volume, queue_erase, onQueue_apply]
  split
  next same =>
    obtain ⟨rfl, rfl⟩ := same
    rw [sum_openQuantityOf (live_erase ..) (by simp), volume,
      sum_eq_add_filter ledger.openQuantityOf (wellFormed.nodup _ _) (wellFormed.mem_queue found),
      openQuantityOf_eq found]
    exact (add_sub_cancel_left _ _).symm
  next elsewhere =>
    rw [sum_openQuantityOf (live_erase ..) (wellFormed.not_mem_queue found elsewhere),
      Int.sub_zero]
    rfl

theorem volume_reduce
    (wellFormed : ledger.WellFormed)
    (found : ledger.live id = some entry)
    (shares : Quantity) (side : Side) (price : Price) :
    (ledger.reduce id entry shares).volume side price = ledger.volume side price -
      if side = entry.side ∧ price = entry.price then shares else 0 := by
  have updated : (ledger.reduce id entry shares).live id =
      some { entry with openQuantity := entry.openQuantity - shares } := by
    rw [live_reduce, Function.update_self]
  have here := openQuantityOf_eq updated
  by_cases same : side = entry.side ∧ price = entry.price
  · obtain ⟨rfl, rfl⟩ := same
    have split := fun openQuantityOf : OrderID → Quantity =>
      sum_eq_add_filter openQuantityOf (wellFormed.nodup _ _) (wellFormed.mem_queue found)
    rw [volume, queue_reduce, volume, split, split, here, openQuantityOf_eq found,
      sum_openQuantityOf (live_reduce ledger id entry shares) (by simp), if_pos ⟨rfl, rfl⟩]
    exact sub_add_eq_add_sub _ _ _
  · rw [volume, queue_reduce, sum_openQuantityOf (live_reduce ledger id entry shares)
      (wellFormed.not_mem_queue found same), if_neg same, Int.sub_zero]
    rfl

/-! ## Volumes that fit their counters -/

/-- Every queue has fewer shares than a volume can count. -/
def Light (ledger : Ledger) : Prop :=
  ∀ side price, ledger.volume side price < 18446744073709551616

/-- The shares of a change fit a quantity and the volume of the queue that they come to, or
the change is refused whatever its shares. -/
def Survives (shows : Price → Bool) (ledger : Ledger) : FeedChange → Prop
  | .add id side price shares =>
      shares ≤ 2147483647 ∧ ledger.volume side price + shares < 18446744073709551616 ∨
        ledger.live id ≠ none ∨ shows price = false
  | .take id shares => shares ≤ 2147483647 ∨ ledger.live id = none
  | .delete _ => True
  | .replace originalId newId price shares =>
      (shares ≤ 2147483647 ∧ ∀ entry, ledger.live originalId = some entry →
        (ledger.erase originalId entry).volume entry.side price + shares <
          18446744073709551616) ∨
        ledger.live originalId = none ∨ ledger.live newId ≠ none ∨ shows price = false

variable {shows : Price → Bool}

theorem Survives.fits {change : FeedChange} (survives : ledger.Survives shows change) :
    ledger.Fits shows change := by
  cases change with
  | add | replace => exact survives.imp_left And.left
  | take | delete => exact survives

theorem Light.insert
    (light : ledger.Light)
    (absent : ∀ side price, id ∉ ledger.queue side price)
    (fits : ledger.volume entry.side entry.price + entry.openQuantity < 18446744073709551616) :
    (ledger.insert id entry).Light := by
  intro side price
  rw [volume_insert absent]
  split
  next same =>
    obtain ⟨rfl, rfl⟩ := same
    exact fits
  next =>
    rw [Int.add_zero]
    exact light side price

theorem Light.erase
    (light : ledger.Light)
    (wellFormed : ledger.WellFormed)
    (found : ledger.live id = some entry) :
    (ledger.erase id entry).Light := by
  intro side price
  have bound := light side price
  have positive := wellFormed.positive id entry found
  rw [volume_erase wellFormed found]
  split <;> lia

theorem Light.reduce
    (light : ledger.Light)
    (wellFormed : ledger.WellFormed)
    (found : ledger.live id = some entry)
    {shares : Quantity}
    (positive : 0 < shares) :
    (ledger.reduce id entry shares).Light := by
  intro side price
  have bound := light side price
  rw [volume_reduce wellFormed found]
  split <;> lia

/-- A change that survives leaves no queue with more shares than a volume can count. -/
theorem Light.apply
    (light : ledger.Light)
    (wellFormed : ledger.WellFormed)
    {change : FeedChange} {next : Ledger}
    (survives : ledger.Survives shows change)
    (applied : ledger.apply shows change = some next) :
    next.Light := by
  cases applies_of_apply applied with
  | add _ fresh shown =>
      have fits := (survives.resolve_right (by simp [fresh, shown])).2
      exact light.insert (wellFormed.absent fresh) fits
  | takeAll found => exact light.erase wellFormed found
  | takeSome found positive => exact light.reduce wellFormed found positive
  | delete found => exact light.erase wellFormed found
  | replace found _ fresh shown =>
      have fits := (survives.resolve_right (by simp [found, fresh, shown])).2 _ found
      exact (light.erase wellFormed found).insert
        (not_mem_queue_erase (wellFormed.absent fresh)) fits

end Ledger
end Reference
end MatchingEngine
