import MatchingEngine.Library.LinkedRing
import MatchingEngine.Model.PriceLevel
import MatchingEngine.Reference.Book

/-!
# Price levels hold queues

`LevelHolds` says that a level and the blocks it points at hold a given queue
of reference orders: the links form the ring of their blocks, every block
stores its order, and the cached aggregates are those of the queue in their
fixed-width types.  Each method of the level is shown to have the effect of a
list operation on the queue, to succeed, and to leave the blocks of other
orders alone.
-/

namespace MatchingEngine
namespace Refinement

open LinkedRing
open Reference (Order)

/-! ## Pointers of a level -/

/-- The pointer that follows a pointer in a level with the given head. -/
def successor (heap : Heap) (head : Option BlockAddress) :
    Option BlockAddress → Option BlockAddress
  | none => head
  | some address =>
      match heap address with
      | .order order => order.next
      | _ => none

/-- The pointer that precedes a pointer in a level with the given tail. -/
def predecessor (heap : Heap) (tail : Option BlockAddress) :
    Option BlockAddress → Option BlockAddress
  | none => tail
  | some address =>
      match heap address with
      | .order order => order.prev
      | _ => none

@[simp] theorem successor_none (heap : Heap) (head : Option BlockAddress) :
    successor heap head none = head := rfl

@[simp] theorem predecessor_none (heap : Heap) (tail : Option BlockAddress) :
    predecessor heap tail none = tail := rfl

theorem successor_some
    {heap : Heap} {address : BlockAddress} {order : RestingOrder}
    (stored : heap address = .order order)
    (head : Option BlockAddress) :
    successor heap head (some address) = order.next := by
  simp [successor, stored]

theorem predecessor_some
    {heap : Heap} {address : BlockAddress} {order : RestingOrder}
    (stored : heap address = .order order)
    (tail : Option BlockAddress) :
    predecessor heap tail (some address) = order.prev := by
  simp [predecessor, stored]

theorem successor_congr
    {heap heap' : Heap} {address : BlockAddress}
    (same : heap' address = heap address)
    (head head' : Option BlockAddress) :
    successor heap' head' (some address) = successor heap head (some address) := by
  simp [successor, same]

theorem predecessor_congr
    {heap heap' : Heap} {address : BlockAddress}
    (same : heap' address = heap address)
    (tail tail' : Option BlockAddress) :
    predecessor heap' tail' (some address) = predecessor heap tail (some address) := by
  simp [predecessor, same]

/-! ## Contents of a block -/

/-- A resting order without its links. -/
def unlinked (order : RestingOrder) : RestingOrder :=
  { order with next := none, prev := none }

/-- A block without the links of its order. -/
def payload : MemoryBlock → MemoryBlock
  | .order order => .order (unlinked order)
  | block => block

/-- What the block of a queued order stores, but for the links. -/
def resting (place : LevelAddress) (order : Order) : RestingOrder where
  level := some place
  id := order.id
  quantity := order.quantity
  lifetime := order.lifetime
  side := place.side

/-- What the block of an order stores when the order has left its level. -/
def detached (place : LevelAddress) (order : Order) : RestingOrder where
  id := order.id
  quantity := order.quantity
  lifetime := order.lifetime
  side := place.side

theorem exists_order_of_payload
    {block : MemoryBlock} {contents : RestingOrder}
    (stored : payload block = .order contents) :
    ∃ order, block = .order order ∧ unlinked order = contents := by
  cases block with
  | order order => exact ⟨order, rfl, by simpa [payload] using stored⟩
  | raw => simp [payload] at stored
  | free next => simp [payload] at stored

/-! ## Levels -/

/-- Quantities that an order on a level can have. -/
def Sound (queue : List Order) : Prop :=
  ∀ order ∈ queue, 1 ≤ order.quantity ∧ order.quantity ≤ 2147483647

/-- Sum of the quantities of a queue. -/
def volume (queue : List Order) : Int :=
  Fill.offered Order.quantity queue

/-- The blocks of a queue. -/
def blocks (addr : OrderID → BlockAddress) (queue : List Order) : List BlockAddress :=
  queue.map fun order => addr order.id

/-- The cached aggregates of a level are those of a queue. -/
structure Tallies (level : PriceLevel) (queue : List Order) : Prop where
  count : (level.orderCount : Int) = queue.length % 4294967296
  total : (level.totalVolume : Int) = volume queue % 18446744073709551616
  unwrapped : level.wrapped = true → 4294967296 ≤ queue.length

/-- The list of a level is a queue: its links form the ring of the blocks of the
queue, every block stores its order, and the counters agree with the queue up to
their widths. -/
structure LevelLinks
    (heap : Heap) (addr : OrderID → BlockAddress) (place : LevelAddress)
    (level : PriceLevel) (queue : List Order) : Prop where
  count : (level.orderCount : Int) = queue.length % 4294967296
  total : (level.totalVolume : Int) = volume queue % 18446744073709551616
  ring : Ring (successor heap level.head) (predecessor heap level.tail) (blocks addr queue)
  nodup : (blocks addr queue).Nodup
  stored : ∀ order ∈ queue, payload (heap (addr order.id)) = .order (resting place order)

/-- A level holds a queue, and has not wrapped unless the queue was too long for it. -/
structure LevelHolds
    (heap : Heap) (addr : OrderID → BlockAddress) (place : LevelAddress)
    (level : PriceLevel) (queue : List Order) : Prop
    extends LevelLinks heap addr place level queue where
  unwrapped : level.wrapped = true → 4294967296 ≤ queue.length

theorem LevelHolds.toTallies
    {heap : Heap} {addr : OrderID → BlockAddress} {place : LevelAddress}
    {level : PriceLevel} {queue : List Order}
    (holds : LevelHolds heap addr place level queue) :
    Tallies level queue :=
  ⟨holds.count, holds.total, holds.unwrapped⟩

/-- The counter of a level is zero while it holds these orders: there are none, or
just as many as make the counter wrap around. -/
def Uncounted (queue : List Order) : Prop := queue.length % 4294967296 = 0

instance (queue : List Order) : Decidable (Uncounted queue) :=
  inferInstanceAs (Decidable (_ = _))

theorem uncounted_iff
    {queue : List Order}
    (capacity : queue.length < 4294967296) :
    Uncounted queue ↔ queue = [] := by
  rw [Uncounted, Nat.mod_eq_of_lt capacity, List.length_eq_zero_iff]

/-- `empty()` tells whether the counter is zero. -/
theorem LevelLinks.empty_iff
    {heap : Heap} {addr : OrderID → BlockAddress} {place : LevelAddress}
    {level : PriceLevel} {queue : List Order}
    (links : LevelLinks heap addr place level queue) :
    level.empty = true ↔ Uncounted queue := by
  have count := links.count
  simp only [PriceLevel.empty, beq_iff_eq, Uncounted]
  omega

/-- A level that does not count zero holds some order. -/
theorem LevelLinks.ne_nil
    {heap : Heap} {addr : OrderID → BlockAddress} {place : LevelAddress}
    {level : PriceLevel} {queue : List Order}
    (links : LevelLinks heap addr place level queue)
    (occupied : level.empty = false) :
    queue ≠ [] := by
  rintro rfl
  have uncounted : Uncounted [] := rfl
  exact Bool.eq_false_iff.mp occupied (links.empty_iff.mpr uncounted)

theorem volume_bounds
    {queue : List Order}
    (sound : Sound queue) :
    queue.length ≤ volume queue ∧ volume queue ≤ 2147483647 * queue.length := by
  induction queue with
  | nil => simp [volume]
  | cons order queue inductionHypothesis =>
      have head := sound order List.mem_cons_self
      have tail := inductionHypothesis fun other member =>
        sound other (List.mem_cons_of_mem _ member)
      unfold volume at tail ⊢
      rw [Fill.offered_cons, List.length_cons]
      push_cast
      lia

theorem volume_append (first second : List Order) :
    volume (first ++ second) = volume first + volume second :=
  Fill.offered_append first second

@[simp] theorem volume_cons (order : Order) (queue : List Order) :
    volume (order :: queue) = order.quantity + volume queue :=
  Fill.offered_cons order queue

@[simp] theorem volume_nil : volume [] = 0 := rfl

theorem Sound.append {first second : List Order} :
    Sound (first ++ second) ↔ Sound first ∧ Sound second :=
  List.forall_mem_append

theorem Sound.cons {order : Order} {queue : List Order} :
    Sound (order :: queue) ↔
      (1 ≤ order.quantity ∧ order.quantity ≤ 2147483647) ∧ Sound queue :=
  List.forall_mem_cons

theorem blocks_append
    (addr : OrderID → BlockAddress) (first second : List Order) :
    blocks addr (first ++ second) = blocks addr first ++ blocks addr second := by
  simp [blocks]

theorem blocks_cons
    (addr : OrderID → BlockAddress) (order : Order) (queue : List Order) :
    blocks addr (order :: queue) = addr order.id :: blocks addr queue := rfl

theorem mem_blocks
    {addr : OrderID → BlockAddress} {address : BlockAddress} {queue : List Order} :
    address ∈ blocks addr queue ↔ ∃ order ∈ queue, addr order.id = address := by
  simp [blocks]

/-! ## Aggregates -/

namespace Tallies

variable {level : PriceLevel} {front rest queue : List Order} {order : Order}

/-- Below the width of the counter, the cached volume is exact. -/
theorem total_exact
    (tallies : Tallies level queue)
    (sound : Sound queue)
    (capacity : queue.length < 4294967296) :
    (level.totalVolume : Int) = volume queue := by
  have total := tallies.total
  have bounds := volume_bounds sound
  omega

/-- Below the width of the counter, `empty()` tells whether the queue is empty. -/
theorem empty_iff
    (tallies : Tallies level queue)
    (capacity : queue.length < 4294967296) :
    level.empty = true ↔ queue = [] := by
  have count := tallies.count
  rw [← List.length_eq_zero_iff]
  simp only [PriceLevel.empty, beq_iff_eq]
  omega

/-- Removing an order from a level that is not too full wraps nothing. -/
theorem unwrapped_remove
    (tallies : Tallies level (front ++ order :: rest))
    (sound : Sound (front ++ order :: rest))
    (capacity : (front ++ order :: rest).length < 4294967296)
    (wrapped : ((level.addVolume (-order.quantity)).addCount (-1)).wrapped = true) :
    4294967296 ≤ (front ++ rest).length := by
  have total := tallies.total_exact sound capacity
  have count := tallies.count
  have unwrapped := tallies.unwrapped
  have remaining := volume_bounds (Sound.append.mpr
    ⟨(Sound.append.mp sound).1, (Sound.cons.mp (Sound.append.mp sound).2).2⟩)
  rw [volume_append] at remaining
  rw [volume_append, volume_cons] at total
  simp only [List.length_append, List.length_cons] at capacity count unwrapped remaining
  have volumeRange :
      (level.totalVolume : Int) + -order.quantity = volume front + volume rest := by
    lia
  simp only [PriceLevel.addCount, PriceLevel.addVolume, Bool.or_eq_true,
    Bool.not_eq_true', decide_eq_false_iff_not, InUInt64, InUInt32, volumeRange] at wrapped
  rcases wrapped with (old | volumeWrapped) | countWrapped
  · have := unwrapped old
    omega
  · omega
  · omega

/-- Appending an order to a level that is not too full wraps nothing but its counter. -/
theorem unwrapped_append
    (tallies : Tallies level queue)
    (sound : Sound (queue ++ [order]))
    (capacity : queue.length < 4294967296)
    (wrapped : ((level.addVolume order.quantity).addCount 1).wrapped = true) :
    4294967296 ≤ (queue ++ [order]).length := by
  have total := tallies.total_exact (Sound.append.mp sound).1 capacity
  have count := tallies.count
  have unwrapped := tallies.unwrapped
  have bounds := volume_bounds sound
  rw [volume_append, volume_cons, volume_nil] at bounds
  simp only [List.length_append, List.length_cons, List.length_nil] at bounds
  have volumeRange :
      (level.totalVolume : Int) + order.quantity = volume queue + order.quantity := by
    rw [total]
  simp only [PriceLevel.addCount, PriceLevel.addVolume, Bool.or_eq_true, Bool.not_eq_true',
    decide_eq_false_iff_not, InUInt64, InUInt32, volumeRange] at wrapped
  rw [List.length_append, List.length_cons, List.length_nil]
  rcases wrapped with (old | volumeWrapped) | countWrapped
  · have := unwrapped old
    omega
  · lia
  · omega

/-- Reducing an order on a level that is not too full wraps nothing. -/
theorem unwrapped_reduce
    (tallies : Tallies level (front ++ order :: rest))
    (sound : Sound (front ++ order :: rest))
    (capacity : (front ++ order :: rest).length < 4294967296)
    {amount : Quantity}
    (positive : 0 < amount)
    (below : amount < order.quantity)
    (wrapped : ((level.noteQuantity (order.quantity - amount)).addVolume (-amount)).wrapped =
      true) :
    4294967296 ≤ (front ++ order.reduce amount :: rest).length := by
  have total := tallies.total_exact sound capacity
  have unwrapped := tallies.unwrapped
  have soundOrder := (Sound.cons.mp (Sound.append.mp sound).2).1
  have bounds := volume_bounds sound
  have remaining := volume_bounds (Sound.append.mpr
    ⟨(Sound.append.mp sound).1, (Sound.cons.mp (Sound.append.mp sound).2).2⟩)
  rw [volume_append] at remaining
  rw [volume_append, volume_cons] at total bounds
  simp only [List.length_append, List.length_cons] at capacity unwrapped remaining bounds
  simp only [PriceLevel.noteQuantity, PriceLevel.addVolume, Bool.or_eq_true,
    Bool.not_eq_true', InUInt64, InInt32] at wrapped
  rcases wrapped with (old | quantityWrapped) | volumeWrapped
  · have := unwrapped old
    omega
  · lia
  · lia

end Tallies

/-- An update of the order count, modulo its width. -/
theorem count_addCount
    {level : PriceLevel} {orders orders' : Nat} {change : Int}
    (count : (level.orderCount : Int) = orders % 4294967296)
    (changed : (orders' : Int) = orders + change) :
    ((level.addCount change).orderCount : Int) = orders' % 4294967296 := by
  simp only [PriceLevel.addCount, toUInt32]
  omega

/-- An update of the volume, modulo its width. -/
theorem total_addVolume
    {level : PriceLevel} {shares shares' change : Int}
    (total : (level.totalVolume : Int) = shares % 18446744073709551616)
    (changed : shares' = shares + change) :
    ((level.addVolume change).totalVolume : Int) = shares' % 18446744073709551616 := by
  simp only [PriceLevel.addVolume, toUInt64]
  omega

/-- An empty level. -/
theorem LevelHolds.nil (heap : Heap) (addr : OrderID → BlockAddress) (place : LevelAddress)
    (price : Price) : LevelHolds heap addr place { price } [] where
  ring := Ring.nil_iff.mpr ⟨rfl, rfl⟩
  nodup := List.nodup_nil
  stored := by simp
  count := by simp
  total := by simp
  unwrapped := by simp

namespace LevelLinks

variable {heap heap' : Heap} {addr : OrderID → BlockAddress} {place : LevelAddress}
variable {level : PriceLevel} {queue : List Order}

theorem head_eq (links : LevelLinks heap addr place level queue) :
    level.head = queue.head?.map fun order => addr order.id := by
  have head := links.ring.next_none
  rw [successor_none, blocks, List.head?_map] at head
  exact head

theorem tail_eq (links : LevelLinks heap addr place level queue) :
    level.tail = (blocks addr queue).getLast? := by
  have tail := links.ring.previous_none
  rwa [predecessor_none] at tail

theorem block_order
    (links : LevelLinks heap addr place level queue)
    {order : Order}
    (member : order ∈ queue) :
    ∃ block, heap (addr order.id) = .order block ∧
      unlinked block = resting place order :=
  exists_order_of_payload (links.stored order member)

/-- A level depends only on the blocks of its queue. -/
theorem congr
    (links : LevelLinks heap addr place level queue)
    (same : ∀ order ∈ queue, heap' (addr order.id) = heap (addr order.id)) :
    LevelLinks heap' addr place level queue where
  ring := by
    refine links.ring.congr fun pointer inRing => ?_
    rcases inRing with rfl | ⟨address, member, rfl⟩
    · exact ⟨rfl, rfl⟩
    · obtain ⟨order, inQueue, rfl⟩ := mem_blocks.mp member
      exact ⟨successor_congr (same order inQueue) _ _,
        predecessor_congr (same order inQueue) _ _⟩
  nodup := links.nodup
  stored order member := by
    rw [same order member]
    exact links.stored order member
  count := links.count
  total := links.total

/-- A level depends only on the addresses of its own orders. -/
theorem congr_addr
    {addr' : OrderID → BlockAddress}
    (links : LevelLinks heap addr place level queue)
    (same : ∀ order ∈ queue, addr' order.id = addr order.id) :
    LevelLinks heap addr' place level queue := by
  have sameBlocks : blocks addr' queue = blocks addr queue :=
    List.map_congr_left same
  exact
    { ring := sameBlocks ▸ links.ring
      nodup := sameBlocks ▸ links.nodup
      stored := fun order member => by
        rw [same order member]
        exact links.stored order member
      count := links.count
      total := links.total }

end LevelLinks

/-! ## Assigning links -/

/-- The effect of `setNext` on the pointers of a level. -/
theorem setNext_spec
    (level : PriceLevel) (heap : Heap) (pointer value : Option BlockAddress)
    (live : ∀ address, pointer = some address → ∃ order, heap address = .order order) :
    ∃ head heap',
      level.setNext pointer value heap = .ok ({ level with head }, heap') ∧
      successor heap' head =
        Function.update (successor heap level.head) pointer value ∧
      (∀ tail, predecessor heap' tail = predecessor heap tail) ∧
      (∀ address, payload (heap' address) = payload (heap address)) ∧
      (∀ address, pointer ≠ some address → heap' address = heap address) := by
  cases pointer with
  | none =>
      refine ⟨value, heap, rfl, ?_, fun _ => rfl, fun _ => rfl, fun _ _ => rfl⟩
      funext pointer
      cases pointer with
      | none => simp
      | some address => simp [successor]
  | some address =>
      obtain ⟨order, stored⟩ := live address rfl
      refine ⟨level.head, heap.write address (.order { order with next := value }),
        ?_, ?_, ?_, ?_, ?_⟩
      · simp [PriceLevel.setNext, Heap.modifyOrder_eq_ok stored]
      · funext pointer
        cases pointer with
        | none => simp
        | some other =>
            by_cases same : other = address
            · subst other
              simp [successor]
            · simp [successor, same]
      · intro tail
        funext pointer
        cases pointer with
        | none => rfl
        | some other =>
            by_cases same : other = address
            · subst other
              simp [predecessor, stored]
            · simp [predecessor, same]
      · intro other
        by_cases same : other = address
        · subst other
          simp [payload, unlinked, stored]
        · simp [same]
      · intro other different
        exact Heap.write_of_ne (fun equal => different (by rw [equal])) _ _

/-- The effect of `setPrev` on the pointers of a level. -/
theorem setPrev_spec
    (level : PriceLevel) (heap : Heap) (pointer value : Option BlockAddress)
    (live : ∀ address, pointer = some address → ∃ order, heap address = .order order) :
    ∃ tail heap',
      level.setPrev pointer value heap = .ok ({ level with tail }, heap') ∧
      predecessor heap' tail =
        Function.update (predecessor heap level.tail) pointer value ∧
      (∀ head, successor heap' head = successor heap head) ∧
      (∀ address, payload (heap' address) = payload (heap address)) ∧
      (∀ address, pointer ≠ some address → heap' address = heap address) := by
  cases pointer with
  | none =>
      refine ⟨value, heap, rfl, ?_, fun _ => rfl, fun _ => rfl, fun _ _ => rfl⟩
      funext pointer
      cases pointer with
      | none => simp
      | some address => simp [predecessor]
  | some address =>
      obtain ⟨order, stored⟩ := live address rfl
      refine ⟨level.tail, heap.write address (.order { order with prev := value }),
        ?_, ?_, ?_, ?_, ?_⟩
      · simp [PriceLevel.setPrev, Heap.modifyOrder_eq_ok stored]
      · funext pointer
        cases pointer with
        | none => simp
        | some other =>
            by_cases same : other = address
            · subst other
              simp [predecessor]
            · simp [predecessor, same]
      · intro head
        funext pointer
        cases pointer with
        | none => rfl
        | some other =>
            by_cases same : other = address
            · subst other
              simp [successor, stored]
            · simp [successor, same]
      · intro other
        by_cases same : other = address
        · subst other
          simp [payload, unlinked, stored]
        · simp [same]
      · intro other different
        exact Heap.write_of_ne (fun equal => different (by rw [equal])) _ _

/-! ## Queue operations -/

namespace LevelLinks

variable {heap : Heap} {addr : OrderID → BlockAddress} {place : LevelAddress}
variable {level : PriceLevel} {front rest queue : List Order} {order : Order}

/-- The links stored in the block of a queued order. -/
theorem links_of_stored
    (links : LevelLinks heap addr place level (front ++ order :: rest))
    {block : RestingOrder}
    (stored : heap (addr order.id) = .order block) :
    block.next = (blocks addr rest).head? ∧
      block.prev = (blocks addr front).getLast? := by
  have ring := links.ring
  rw [blocks_append, blocks_cons] at ring
  obtain ⟨next, prev⟩ := ring.neighbours
  rw [successor_some stored] at next
  rw [predecessor_some stored] at prev
  exact ⟨next, prev⟩

/-- Blocks of the queue without the order are other blocks of the queue. -/
theorem ne_of_mem
    (links : LevelLinks heap addr place level (front ++ order :: rest))
    {other : Order}
    (member : other ∈ front ++ rest) :
    other ∈ front ++ order :: rest ∧ addr other.id ≠ addr order.id := by
  have nodup := links.nodup
  rw [blocks_append, blocks_cons, List.nodup_middle, List.nodup_cons, ← blocks_append]
    at nodup
  refine ⟨?_, fun equal => nodup.1 (equal ▸ mem_blocks.mpr ⟨other, member, rfl⟩)⟩
  rcases List.mem_append.mp member with inFront | inRest
  · exact List.mem_append_left _ inFront
  · exact List.mem_append_right _ (List.mem_cons_of_mem _ inRest)

/-- The assignments to links by which an order leaves the list. -/
theorem unlink
    (links : LevelLinks heap addr place level (front ++ order :: rest))
    {block : RestingOrder}
    (stored : heap (addr order.id) = .order block) :
    ∃ head tail heap₁ heap₂ block',
      level.setNext block.prev block.next heap = .ok ({ level with head }, heap₁) ∧
      { level with head }.setPrev block.next block.prev heap₁ =
        .ok ({ level with head, tail }, heap₂) ∧
      heap₂ (addr order.id) = .order block' ∧
      unlinked block' = resting place order ∧
      (∀ contents,
        let heap₃ := heap₂.write (addr order.id) contents
        Ring (successor heap₃ head) (predecessor heap₃ tail) (blocks addr (front ++ rest)) ∧
        (∀ other ∈ front ++ rest,
          payload (heap₃ (addr other.id)) = .order (resting place other)) ∧
        ∀ address, address ∉ blocks addr (front ++ order :: rest) →
          heap₃ address = heap address) := by
  obtain ⟨nextLink, prevLink⟩ := links.links_of_stored stored
  have nodup := links.nodup
  have ring := links.ring
  rw [blocks_append, blocks_cons] at nodup ring
  obtain ⟨frontNodup, restNodup, apart⟩ := List.nodup_append.mp nodup
  have prevFresh : (blocks addr front).getLast? ≠ some (addr order.id) := fun equal =>
    apart _ (List.mem_of_getLast? equal) _ List.mem_cons_self rfl
  have nextFresh : (blocks addr rest).head? ≠ some (addr order.id) := fun equal =>
    (List.nodup_cons.mp restNodup).1 (List.mem_of_mem_head? equal)
  have live : ∀ other ∈ front ++ rest, ∃ contents,
      heap (addr other.id) = .order contents := fun other member =>
    let ⟨contents, stored, _⟩ := links.block_order (links.ne_of_mem member).1
    ⟨contents, stored⟩
  obtain ⟨head, heap₁, setNext, successor₁, predecessor₁, payload₁, frame₁⟩ :=
    setNext_spec level heap block.prev block.next (by
      intro address equal
      rw [prevLink] at equal
      obtain ⟨other, inFront, rfl⟩ := mem_blocks.mp (List.mem_of_getLast? equal)
      exact live other (List.mem_append_left _ inFront))
  obtain ⟨tail, heap₂, setPrev, predecessor₂, successor₂, payload₂, frame₂⟩ :=
    setPrev_spec { level with head } heap₁ block.next block.prev (by
      intro address equal
      rw [nextLink] at equal
      obtain ⟨other, inRest, rfl⟩ := mem_blocks.mp (List.mem_of_mem_head? equal)
      obtain ⟨contents, stored⟩ := live other (List.mem_append_right _ inRest)
      obtain ⟨contents', stored', _⟩ := exists_order_of_payload
        ((payload₁ _).trans (congrArg payload stored))
      exact ⟨contents', stored'⟩)
  obtain ⟨block', stored', contents'⟩ := exists_order_of_payload
    ((payload₂ (addr order.id)).trans ((payload₁ _).trans
      (links.stored order (by simp))))
  refine ⟨head, tail, heap₁, heap₂, block', setNext, setPrev, stored', contents',
    fun contents => ⟨?_, ?_, ?_⟩⟩
  · have pointers : ∀ pointer, pointer ≠ some (addr order.id) →
        successor (heap₂.write (addr order.id) contents) head pointer =
          Function.update (successor heap level.head) block.prev block.next pointer ∧
        predecessor (heap₂.write (addr order.id) contents) tail pointer =
          Function.update (predecessor heap level.tail) block.next block.prev pointer := by
      intro pointer different
      rw [← successor₁, ← successor₂ head, ← predecessor₁ level.tail, ← predecessor₂]
      cases pointer with
      | none => exact ⟨rfl, rfl⟩
      | some address =>
          have apart : address ≠ addr order.id := fun equal =>
            different (congrArg some equal)
          have same := Heap.write_of_ne apart heap₂ contents
          exact ⟨successor_congr same _ _, predecessor_congr same _ _⟩
    rw [prevLink, nextLink] at pointers
    rw [blocks_append]
    refine ring.unlink nodup ?_ ?_ (fun pointer notOrder notPrev => ?_)
      (fun pointer notOrder notNext => ?_)
    · rw [(pointers _ prevFresh).1, Function.update_self]
    · rw [(pointers _ nextFresh).2, Function.update_self]
    · rw [(pointers _ notOrder).1, Function.update_of_ne notPrev]
    · rw [(pointers _ notOrder).2, Function.update_of_ne notNext]
  · intro other member
    obtain ⟨inQueue, different⟩ := links.ne_of_mem member
    rw [Heap.write_of_ne different, payload₂, payload₁]
    exact links.stored other inQueue
  · intro address outside
    rw [blocks_append, blocks_cons] at outside
    simp only [List.mem_append, List.mem_cons, not_or] at outside
    obtain ⟨notFront, notOrder, notRest⟩ := outside
    rw [Heap.write_of_ne notOrder, frame₂, frame₁]
    · rw [prevLink]
      exact fun equal => notFront (List.mem_of_getLast? equal)
    · rw [nextLink]
      exact fun equal => notRest (List.mem_of_mem_head? equal)

/-- What `forget` leaves of a level and of the block of the order. -/
theorem forget_eq_ok
    (level : PriceLevel) {block : RestingOrder}
    (stored : heap (addr order.id) = .order block)
    (contents : unlinked block = resting place order) :
    level.forget (addr order.id) heap =
      .ok ((level.addVolume (-order.quantity)).addCount (-1),
        heap.write (addr order.id) (.order (detached place order))) := by
  have cleared : ({ block with next := none, prev := none, level := none } : RestingOrder) =
      detached place order := by
    obtain ⟨next, prev, level, id, quantity, lifetime, side⟩ := block
    cases contents
    rfl
  simp only [PriceLevel.forget, Heap.modifyOrder_eq_ok stored, ok_bind, cleared,
    Heap.order_eq_ok (Heap.write_self ..)]
  rfl

/-- What is left of a level and of the heap when an order has left the queue. -/
structure Removed
    (heap : Heap) (addr : OrderID → BlockAddress) (place : LevelAddress)
    (level : PriceLevel) (front : List Order) (order : Order) (rest : List Order)
    (level' : PriceLevel) (heap' : Heap) : Prop where
  links : LevelLinks heap' addr place level' (front ++ rest)
  price : level'.price = level.price
  wrapped : level'.wrapped = ((level.addVolume (-order.quantity)).addCount (-1)).wrapped
  block : heap' (addr order.id) = .order (detached place order)
  frame : ∀ address, address ∉ blocks addr (front ++ order :: rest) →
    heap' address = heap address

/-- The counters and the links of a level that an order has left. -/
theorem removed_of_unlink
    (links : LevelLinks heap addr place level (front ++ order :: rest))
    {head tail : Option BlockAddress} {heap₂ : Heap}
    (after : ∀ contents,
      let heap₃ := heap₂.write (addr order.id) contents
      Ring (successor heap₃ head) (predecessor heap₃ tail) (blocks addr (front ++ rest)) ∧
      (∀ other ∈ front ++ rest,
        payload (heap₃ (addr other.id)) = .order (resting place other)) ∧
      ∀ address, address ∉ blocks addr (front ++ order :: rest) →
        heap₃ address = heap address) :
    Removed heap addr place level front order rest
      (({ level with head, tail }.addVolume (-order.quantity)).addCount (-1))
      (heap₂.write (addr order.id) (.order (detached place order))) := by
  obtain ⟨ring, storedAfter, frame⟩ := after (.order (detached place order))
  refine ⟨⟨?_, ?_, ring, ?_, storedAfter⟩, rfl, rfl, Heap.write_self .., frame⟩
  · refine count_addCount links.count ?_
    simp only [List.length_append, List.length_cons]
    omega
  · refine total_addVolume links.total ?_
    rw [volume_append, volume_append, volume_cons]
    lia
  · have nodup := links.nodup
    rw [blocks_append] at nodup ⊢
    exact nodup.sublist (List.Sublist.append_left (List.sublist_cons_self _ _) _)

/-- Unlinking an order removes it from the queue. -/
theorem removeOrder
    (links : LevelLinks heap addr place level (front ++ order :: rest)) :
    ∃ level' heap',
      level.removeOrder place (addr order.id) heap =
        .ok (if level'.empty then .empty else .nonEmpty, level', heap') ∧
      Removed heap addr place level front order rest level' heap' := by
  obtain ⟨block, stored, contents⟩ :=
    links.block_order (show order ∈ front ++ order :: rest by simp)
  have levelLink : block.level = some place := congrArg RestingOrder.level contents
  have headPresent : level.head.isNone = false := by
    rw [links.head_eq]
    cases front <;> rfl
  obtain ⟨head, tail, heap₁, heap₂, block', setNext, setPrev, stored', contents', after⟩ :=
    links.unlink stored
  refine ⟨_, _, ?_, links.removed_of_unlink after⟩
  rw [PriceLevel.removeOrder, headPresent]
  simp only [Bool.false_eq_true, if_false, Heap.order_eq_ok stored, ok_bind, levelLink,
    ne_eq, not_true_eq_false, setNext, setPrev, forget_eq_ok _ stored' contents']

/-- Popping removes the first order. -/
theorem popFront
    (links : LevelLinks heap addr place level (order :: rest)) :
    ∃ level' heap',
      level.popFront heap = .ok (some (addr order.id), level', heap') ∧
      Removed heap addr place level [] order rest level' heap' := by
  have atFront : LevelLinks heap addr place level ([] ++ order :: rest) := links
  obtain ⟨block, stored, contents⟩ := links.block_order (show order ∈ order :: rest by simp)
  obtain ⟨head, tail, heap₁, heap₂, block', setNext, setPrev, stored', contents', after⟩ :=
    atFront.unlink stored
  have noPrev : block.prev = none := (atFront.links_of_stored stored).2
  rw [noPrev] at setNext setPrev
  obtain ⟨headLink, rfl⟩ : block.next = head ∧ heap = heap₁ := by
    simpa [PriceLevel.setNext] using setNext
  have headEquality : level.head = some (addr order.id) := links.head_eq
  refine ⟨_, _, ?_, atFront.removed_of_unlink after⟩
  subst headLink
  simp only [PriceLevel.popFront, headEquality, Heap.order_eq_ok stored, ok_bind, setPrev,
    forget_eq_ok _ stored' contents']

/-- The conditional assignment to the `prev_` member of a new order. -/
theorem assignPrev_eq
    {address : BlockAddress} {block : RestingOrder}
    (level : PriceLevel)
    (stored : heap address = .order block)
    (noPrev : block.prev = none)
    (continuation : Heap → Except Fault (PriceLevel × Heap)) :
    (if level.tail.isSome = true then
      (heap.modifyOrder address fun order => { order with prev := level.tail }) >>=
        continuation
    else continuation heap) =
      continuation (heap.write address (.order { block with prev := level.tail })) := by
  cases tail : level.tail with
  | none =>
      have unchanged : ({ block with prev := none } : RestingOrder) = block := by
        rw [← noPrev]
      have same : heap.write address (.order block) = heap := by
        rw [Heap.write, ← stored, Function.update_eq_self]
      rw [unchanged, same]
      rfl
  | some last =>
      rw [Option.isSome_some, if_pos rfl, Heap.modifyOrder_eq_ok stored, ok_bind]

/-- The assignments to links by which a new order joins the end of the list. -/
theorem link
    (links : LevelLinks heap addr place level queue)
    (order : Order)
    (fresh : addr order.id ∉ blocks addr queue)
    (linked : RestingOrder)
    (prevLink : linked.prev = level.tail)
    (contents : unlinked { linked with next := none, level := some place } =
      resting place order) :
    ∃ head heap₂,
      level.setNext level.tail (some (addr order.id))
          (heap.write (addr order.id) (.order linked)) = .ok ({ level with head }, heap₂) ∧
      heap₂ (addr order.id) = .order linked ∧
      let heap₃ := heap₂.write (addr order.id)
        (.order { linked with next := none, level := some place })
      Ring (successor heap₃ head) (predecessor heap₃ (some (addr order.id)))
        (blocks addr (queue ++ [order])) ∧
      (∀ other ∈ queue ++ [order],
        payload (heap₃ (addr other.id)) = .order (resting place other)) ∧
      ∀ address, address ∉ blocks addr (queue ++ [order]) → heap₃ address = heap address := by
  have tailLink := links.tail_eq
  have tailFresh : level.tail ≠ some (addr order.id) := fun equal =>
    fresh (List.mem_of_getLast? (tailLink ▸ equal))
  obtain ⟨head, heap₂, setNext, successor₂, predecessor₂, payload₂, frame₂⟩ :=
    setNext_spec level (heap.write (addr order.id) (.order linked)) level.tail
      (some (addr order.id)) (by
        intro address equal
        rw [tailLink] at equal
        have member := List.mem_of_getLast? equal
        obtain ⟨other, inQueue, rfl⟩ := mem_blocks.mp member
        obtain ⟨contents, stored, _⟩ := links.block_order inQueue
        refine ⟨contents, ?_⟩
        rw [← stored]
        refine Heap.write_of_ne (fun equal => fresh ?_) _ _
        rwa [← equal])
  have stored₂ : heap₂ (addr order.id) = .order linked := by
    rw [frame₂ _ tailFresh]
    exact Heap.write_self ..
  refine ⟨head, heap₂, setNext, stored₂, ?_⟩
  intro heap₃
  have written : heap₃ (addr order.id) =
      .order { linked with next := none, level := some place } := Heap.write_self ..
  have others : ∀ address, address ≠ addr order.id → heap₃ address = heap₂ address :=
    fun address different => Heap.write_of_ne different _ _
  have framed : ∀ address, address ≠ addr order.id → level.tail ≠ some address →
      heap₃ address = heap address := by
    intro address different notTail
    rw [others address different, frame₂ _ notTail]
    exact Heap.write_of_ne different _ _
  refine ⟨?_, fun other member => ?_, fun address outside => ?_⟩
  · rw [blocks_append]
    refine links.ring.pushBack fresh links.nodup ?_ ?_ ?_ rfl
      (fun pointer notNew notLast => ?_) (fun pointer notNew present => ?_)
    · rw [← tailLink]
      have atTail := congrFun successor₂ level.tail
      rw [Function.update_self] at atTail
      rw [← atTail]
      cases tail : level.tail with
      | none => rfl
      | some address =>
          have apart : address ≠ addr order.id := fun equal =>
            tailFresh (tail.trans (congrArg some equal))
          exact successor_congr (others address apart) _ _
    · rw [predecessor_some written]
      exact prevLink.trans tailLink
    · rw [successor_some written]
    · rw [← tailLink] at notLast
      have atPointer := congrFun successor₂ pointer
      rw [Function.update_of_ne notLast] at atPointer
      cases pointer with
      | none => exact atPointer
      | some address =>
          exact successor_congr (framed address (fun equal => notNew (congrArg some equal))
            notLast.symm) _ _
    · obtain ⟨address, rfl⟩ := Option.ne_none_iff_exists'.mp present
      have different : address ≠ addr order.id := fun equal =>
        notNew (congrArg some equal)
      calc
        predecessor heap₃ _ (some address) = predecessor heap₂ level.tail (some address) :=
          predecessor_congr (others address different) _ _
        _ = predecessor (heap.write (addr order.id) (.order linked)) level.tail
              (some address) := by
          rw [predecessor₂]
        _ = predecessor heap level.tail (some address) :=
          predecessor_congr (Heap.write_of_ne different _ _) _ _
  · by_cases isNew : addr other.id = addr order.id
    · rcases List.mem_append.mp member with inQueue | isOrder
      · exact absurd (mem_blocks.mpr ⟨other, inQueue, isNew⟩) fresh
      · obtain rfl := List.mem_singleton.mp isOrder
        rw [written]
        exact congrArg MemoryBlock.order contents
    · rcases List.mem_append.mp member with inQueue | isOrder
      · rw [others _ isNew, payload₂]
        refine Eq.trans ?_ (links.stored other inQueue)
        exact congrArg payload (Heap.write_of_ne isNew _ _)
      · exact absurd (congrArg (addr ∘ Order.id) (List.mem_singleton.mp isOrder)) isNew
  · rw [blocks_append] at outside
    simp only [List.mem_append, not_or] at outside
    refine framed address (fun equal => outside.2 ?_) (fun equal => outside.1 ?_)
    · simp [blocks, equal]
    · exact List.mem_of_getLast? (tailLink ▸ equal)

/-- Appending an order that was just allocated puts it at the end of the queue. -/
theorem pushBack
    (links : LevelLinks heap addr place level queue)
    (order : Order)
    (fresh : addr order.id ∉ blocks addr queue)
    (stored : heap (addr order.id) = .order (detached place order)) :
    ∃ level' heap',
      level.pushBack place (addr order.id) heap = .ok (level', heap') ∧
      LevelLinks heap' addr place level' (queue ++ [order]) ∧
      level'.price = level.price ∧
      level'.wrapped = ((level.addVolume order.quantity).addCount 1).wrapped ∧
      ∀ address, address ∉ blocks addr (queue ++ [order]) →
        heap' address = heap address := by
  obtain ⟨head, heap₂, setNext, stored₂, ring, storedAfter, frame⟩ := links.link order fresh
    { detached place order with prev := level.tail } rfl rfl
  refine ⟨(({ level with head, tail := some (addr order.id) }.addVolume
    order.quantity).addCount 1), _, ?_, ⟨?_, ?_, ring, ?_, storedAfter⟩, rfl, rfl, frame⟩
  · simp only [PriceLevel.pushBack, assignPrev_eq level stored rfl, ok_bind, setNext,
      Heap.modifyOrder_eq_ok stored₂]
    rw [Heap.order_eq_ok (Heap.write_self heap₂ (addr order.id) _)]
    rfl
  · refine count_addCount links.count ?_
    simp only [List.length_append, List.length_cons, List.length_nil]
    omega
  · refine total_addVolume links.total ?_
    rw [volume_append, volume_cons, volume_nil]
    lia
  · rw [blocks_append]
    refine List.nodup_append.mpr ⟨links.nodup, List.nodup_singleton _,
      fun address member other isNew equal => fresh ?_⟩
    rw [List.mem_singleton.mp isNew] at equal
    subst equal
    exact member

/-- Changing the quantity of an order in place. -/
theorem reduceQuantity
    (links : LevelLinks heap addr place level (front ++ order :: rest))
    {amount : Quantity}
    (range : InInt32 (order.quantity - amount))
    {block : RestingOrder}
    (stored : heap (addr order.id) = .order block)
    (contents : unlinked block = resting place order) :
    LevelLinks
      (heap.write (addr order.id)
        (.order { block with quantity := toInt32 (block.quantity - amount) }))
      addr place
      ((level.noteQuantity (block.quantity - amount)).addVolume (-amount))
      (front ++ order.reduce amount :: rest) := by
  have quantity : block.quantity = order.quantity :=
    congrArg RestingOrder.quantity contents
  have sameBlocks : blocks addr (front ++ order.reduce amount :: rest) =
      blocks addr (front ++ order :: rest) := by
    simp [blocks]
  rw [quantity, toInt32_of_inInt32 range]
  refine ⟨?_, ?_, ?_, ?_, ?_⟩
  · have count := links.count
    rw [List.length_append, List.length_cons] at count ⊢
    exact count
  · refine total_addVolume links.total ?_
    rw [volume_append, volume_append, volume_cons, volume_cons, Reference.Order.reduce_quantity]
    lia
  · rw [sameBlocks]
    refine links.ring.congr fun pointer _ => ?_
    cases pointer with
    | none => exact ⟨rfl, rfl⟩
    | some address =>
        by_cases same : address = addr order.id
        · subst same
          rw [successor_some stored, predecessor_some stored,
            successor_some (Heap.write_self ..), predecessor_some (Heap.write_self ..)]
          exact ⟨rfl, rfl⟩
        · exact ⟨successor_congr (Heap.write_of_ne same _ _) _ _,
            predecessor_congr (Heap.write_of_ne same _ _) _ _⟩
  · rw [sameBlocks]
    exact links.nodup
  · intro other member
    have cases : other ∈ front ++ rest ∨ other = order.reduce amount := by
      simp only [List.mem_append, List.mem_cons] at member ⊢
      tauto
    rcases cases with unchanged | rfl
    · obtain ⟨inQueue, different⟩ := links.ne_of_mem unchanged
      rw [Heap.write_of_ne different]
      exact links.stored other inQueue
    · rw [Reference.Order.reduce_id, Heap.write_self]
      obtain ⟨next, prev, level, id, quantity, lifetime, side⟩ := block
      cases contents
      rfl

/-- What is left of a level and of the heap when an order has been reduced. -/
structure Reduced
    (heap : Heap) (addr : OrderID → BlockAddress) (place : LevelAddress)
    (level : PriceLevel) (front : List Order) (order : Order) (rest : List Order)
    (amount : Quantity) (level' : PriceLevel) (heap' : Heap) : Prop where
  links : LevelLinks heap' addr place level' (front ++ order.reduce amount :: rest)
  price : level'.price = level.price
  wrapped : level'.wrapped =
    ((level.noteQuantity (order.quantity - amount)).addVolume (-amount)).wrapped
  frame : ∀ address, address ≠ addr order.id → heap' address = heap address

/-- Reducing an order keeps its place in the queue. -/
theorem reduceOrderQuantity
    (links : LevelLinks heap addr place level (front ++ order :: rest))
    {amount : Quantity}
    (enough : amount ≤ order.quantity)
    (range : InInt32 (order.quantity - amount)) :
    ∃ level' heap',
      level.reduceOrderQuantity place (addr order.id) amount heap = .ok (level', heap') ∧
      Reduced heap addr place level front order rest amount level' heap' := by
  obtain ⟨block, stored, contents⟩ :=
    links.block_order (show order ∈ front ++ order :: rest by simp)
  have levelLink : block.level = some place := congrArg RestingOrder.level contents
  have quantity : block.quantity = order.quantity :=
    congrArg RestingOrder.quantity contents
  have enough : amount ≤ block.quantity := quantity ▸ enough
  refine ⟨_, _, ?_, links.reduceQuantity range stored contents, rfl, by rw [quantity],
    fun address different => Heap.write_of_ne different _ _⟩
  simp only [PriceLevel.reduceOrderQuantity, Heap.order_eq_ok stored, ok_bind, levelLink,
    ne_eq, not_true_eq_false, if_false, enough, Heap.modifyOrder_eq_ok stored]

/-- Executing part of the first order keeps it at the head. -/
theorem takeSharesFromFirst
    (links : LevelLinks heap addr place level (order :: rest))
    {amount : Quantity}
    (range : InInt32 (order.quantity - amount)) :
    ∃ level' heap',
      level.takeSharesFromFirst amount heap = .ok (level', heap') ∧
      Reduced heap addr place level [] order rest amount level' heap' := by
  have atFront : LevelLinks heap addr place level ([] ++ order :: rest) := links
  obtain ⟨block, stored, contents⟩ := links.block_order (show order ∈ order :: rest by simp)
  have headLink : level.head = some (addr order.id) := links.head_eq
  have quantity : block.quantity = order.quantity :=
    congrArg RestingOrder.quantity contents
  refine ⟨_, _, ?_, atFront.reduceQuantity range stored contents, rfl, by rw [quantity],
    fun address different => Heap.write_of_ne different _ _⟩
  simp only [PriceLevel.takeSharesFromFirst, headLink, deref_some, Heap.order_eq_ok stored,
    ok_bind, Heap.modifyOrder_eq_ok stored]

end LevelLinks

/-! ## Exact counters -/

namespace LevelHolds

variable {heap heap' : Heap} {addr : OrderID → BlockAddress} {place : LevelAddress}
variable {level level' : PriceLevel} {front rest queue : List Order} {order : Order}

/-- When an order has left a level that is not too full, the level holds the others. -/
theorem of_removed
    (holds : LevelHolds heap addr place level (front ++ order :: rest))
    (sound : Sound (front ++ order :: rest))
    (capacity : (front ++ order :: rest).length < 4294967296)
    (removed : LevelLinks.Removed heap addr place level front order rest level' heap') :
    LevelHolds heap' addr place level' (front ++ rest) :=
  ⟨removed.links, fun wrapped =>
    holds.toTallies.unwrapped_remove sound capacity (removed.wrapped ▸ wrapped)⟩

/-- When an order of a level that is not too full has been reduced, the level holds the
reduced order. -/
theorem of_reduced
    (holds : LevelHolds heap addr place level (front ++ order :: rest))
    (sound : Sound (front ++ order :: rest))
    (capacity : (front ++ order :: rest).length < 4294967296)
    {amount : Quantity}
    (positive : 0 < amount)
    (below : amount < order.quantity)
    (reduced : LevelLinks.Reduced heap addr place level front order rest amount level' heap') :
    LevelHolds heap' addr place level' (front ++ order.reduce amount :: rest) :=
  ⟨reduced.links, fun wrapped =>
    holds.toTallies.unwrapped_reduce sound capacity positive below (reduced.wrapped ▸ wrapped)⟩

end LevelHolds

end Refinement
end MatchingEngine
