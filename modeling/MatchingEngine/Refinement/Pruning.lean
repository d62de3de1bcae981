import MatchingEngine.Refinement.SessionEnd
import MatchingEngine.Refinement.View

/-!
# Nothing to prune

Without DAY orders the loops of the session end visit every order and change nothing.
-/

namespace MatchingEngine
namespace Refinement

open LinkedChain (Chain)

variable {book : OrderBook} {spec : Reference.Book}

section Nothing

variable {heap : Heap} {σ : Type}
variable {onPrunedOrder : BlockAddress → σ → Heap → Except Fault (σ × Heap)}

/-- On a list without DAY orders the loop changes nothing. -/
theorem pruneLoop_of_kept
    {place : LevelAddress} {nodes : List BlockAddress} {ptr : Option BlockAddress} {fuel : Nat}
    (chain : Chain (nextLink heap) ptr nodes)
    (kept : ∀ address ∈ nodes, ∃ order, heap address = .order order ∧ order.lifetime ≠ .day)
    (enough : nodes.length ≤ fuel)
    (result : LevelPruneStats) (level : PriceLevel) (state : σ) :
    PriceLevel.pruneLoop place onPrunedOrder fuel ptr result level state heap =
      .ok (result, level, state, heap) := by
  induction nodes generalizing ptr fuel with
  | nil =>
      obtain rfl : ptr = none := chain
      cases fuel <;> rfl
  | cons address nodes inductionHypothesis =>
      obtain ⟨fuel, rfl⟩ : ∃ less, fuel = less + 1 :=
        ⟨fuel - 1, by rw [List.length_cons] at enough; omega⟩
      obtain ⟨rfl, next, linked, chain⟩ := chain
      obtain ⟨order, stored, notDay⟩ := kept address List.mem_cons_self
      obtain rfl : order.next = next := by simpa [nextLink, stored] using linked
      simp only [PriceLevel.pruneLoop, Heap.order_eq_ok stored, ok_bind, notDay, if_false]
      exact inductionHypothesis chain
        (fun other member => kept other (List.mem_cons_of_mem _ member))
        (Nat.le_of_succ_le_succ enough)

/-- On levels that lose no order the loop changes nothing. -/
theorem pruneLevels_of_kept
    {ladder : PriceLadder} {fuel count index : Nat} {state : σ}
    (kept : ∀ (i : Nat) (level : PriceLevel), ladder.levels[i]? = some level →
      level.pruneDayOrders ⟨ladder.side, i⟩ fuel onPrunedOrder state heap =
        .ok ({}, level, state, heap))
    (covered : index + count = ladder.levels.length) :
    PriceLadder.pruneLevels fuel onPrunedOrder count index {} ladder state heap =
      .ok ({}, ladder, state, heap) := by
  induction count generalizing index with
  | zero => rfl
  | succ count inductionHypothesis =>
      have inside : index < ladder.levels.length := by omega
      have present : ladder.levels[index]? = some ladder.levels[index] :=
        List.getElem?_eq_getElem inside
      have access : ladder.level index = .ok ladder.levels[index] := by
        rw [PriceLadder.level, present]
      rw [PriceLadder.pruneLevels, access, ok_bind]
      split
      · next occupied =>
        rw [Bool.not_eq_true'] at occupied
        rw [kept index _ present, ok_bind]
        simp only [setLevel_self access, occupied, Bool.false_eq_true, if_false]
        exact inductionHypothesis (by omega)
      · exact inductionHypothesis (by omega)

end Nothing

/-- A side without DAY orders is left alone. -/
theorem pruneSide_of_kept
    (refines : Refines book spec)
    (roomy : RoomyBook spec)
    {side : Side}
    (kept : ∀ order ∈ spec.orders side, order.lifetime ≠ .day) :
    book.pruneSide side {} = .ok ({}, book) := by
  obtain ⟨addr, free, core⟩ := refines.core
  have holds := core.holds side
  have keptLevel : ∀ (index : Nat) (level : PriceLevel),
      (book.ladder side).levels[index]? = some level →
        level.pruneDayOrders ⟨(book.ladder side).side, index⟩
          book.memoryPool.currentlyAllocated OrderBook.retireOrder (registryOf book)
          book.heap = .ok ({}, level, registryOf book, book.heap) := by
    intro index level found
    have list := list_of_level core.toLinked found
    obtain ⟨_, levelHolds⟩ := holds.levels index level found
    rw [core.minPrice side] at levelHolds
    refine pruneLoop_of_kept list.forward (fun address member => ?_) ?_ _ _ _
    · obtain ⟨order, inQueue, rfl⟩ := mem_blocks.mp member
      obtain ⟨block, stored, contents⟩ := levelHolds.block_order inQueue
      have lifetime : block.lifetime = order.lifetime := congrArg RestingOrder.lifetime contents
      exact ⟨block, stored, lifetime ▸ kept order (mem_queueAt.mp inQueue).1⟩
    · rw [blocks, List.length_map]
      exact core.toLinked.length_queueAt_le side _
  have loop := pruneLevels_of_kept keptLevel (Nat.zero_add _)
  rw [OrderBook.pruneSide]
  split
  · rfl
  · have unchanged : (book.ladder side).pruneDayOrders
        book.memoryPool.currentlyAllocated OrderBook.retireOrder {} (registryOf book)
        book.heap =
          .ok ({}, book.ladder side, registryOf book, book.heap) := by
      rw [PriceLadder.pruneDayOrders, loop, ok_bind]
      cases best : (book.ladder side).bestPrice with
      | none => simp only [best]
      | some price =>
          obtain ⟨order, first, rfl⟩ :=
            Option.map_eq_some_iff.mp ((refines.best side).symm.trans best)
          have member := List.mem_of_head? first
          have inRange := core.inRange member
          obtain ⟨level, access, _, levelHolds⟩ := holds.level_of inRange
          have occupied : ¬ level.empty = true := fun empty =>
            List.ne_nil_of_mem (mem_queueAt.mpr ⟨member, rfl⟩)
              ((levelHolds.toTallies.empty_iff (roomy side _)).mp empty)
          simp only [best, holds.toShape.getLevelAtPrice inRange, access, ok_bind]
          rw [if_neg occupied]
    refine (congrArg (· >>= _) unchanged).trans ?_
    cases side <;> rfl

/-- Without DAY orders the session end changes nothing. -/
theorem onSessionEnd_of_kept
    (refines : Refines book spec)
    (roomy : RoomyBook spec)
    (kept : ∀ side, ∀ order ∈ spec.orders side, order.lifetime ≠ .day) :
    book.onSessionEnd = .ok ({}, book) := by
  rw [OrderBook.onSessionEnd, pruneSide_of_kept refines roomy (kept .buy), ok_bind]
  exact pruneSide_of_kept refines roomy (kept .sell)

end Refinement
end MatchingEngine
