import MatchingEngine.Mirror.Contents
import MatchingEngine.Refinement.Refresh
import MatchingEngine.Refinement.Renaming

/-!
# The session end in the mirror

The session end visits the bids first and each side from its lowest price.  In the
mirror it visits what were the asks first, and each side from what was its highest
price, so that it frees the blocks in another order.  The report adds up the same
levels, and the books that are left differ in the addresses of their blocks only.
-/

namespace MatchingEngine
namespace PriceRange

open Transports
open Reference (Order priority orderPriority)
open Reference.Book (dayOrders)
open Refinement

variable {range : PriceRange} {book : OrderBook} {spec : Reference.Book}

/-! ## The report -/

theorem addCounted_mirrorEntry (result : DayOrderPruneResult) (queue : List Order) :
    addCounted result (queue.map range.mirrorEntry) = addCounted result queue := by
  have day : dayOrders (queue.map range.mirrorEntry) = (dayOrders queue).map range.mirrorEntry :=
    range.filter_mirrorEntry queue fun _ => rfl
  have kept : keptOrders (queue.map range.mirrorEntry) =
      (keptOrders queue).map range.mirrorEntry :=
    range.filter_mirrorEntry queue fun _ => rfl
  simp only [addCounted, day, kept, uncounted_mirrorEntry, List.length_map, volume_mirrorEntry]

theorem toUInt64_add_right_comm (start : Nat) (first second : Int) :
    toUInt64 ((toUInt64 (start + first) : Int) + second) =
      toUInt64 ((toUInt64 (start + second) : Int) + first) := by
  unfold toUInt64
  omega

/-- The levels may be added up in any order. -/
instance rightCommutative_addCounted : RightCommutative addCounted where
  right_comm result queue other := by
    unfold addCounted
    by_cases vacant : Uncounted queue
    · simp only [vacant, if_true]
    by_cases otherVacant : Uncounted other
    · simp only [otherVacant, if_true]
    simp only [vacant, otherVacant, if_false, DayOrderPruneResult.mk.injEq]
    refine ⟨toUInt64_add_right_comm .., toUInt64_add_right_comm .., ?_⟩
    split <;> split <;> rfl

namespace FramedBook

theorem spec_minPrice (framed : FramedBook range book) (carries : Carries book spec) :
    spec.minPrice = range.minPrice :=
  carries.minPrice.symm.trans framed.minPrice

theorem spec_maxPrice (framed : FramedBook range book) (carries : Carries book spec) :
    spec.maxPrice = range.maxPrice :=
  carries.maxPrice.symm.trans framed.maxPrice

theorem mirror (framed : FramedBook range book) : FramedBook range (range.mirrorBook book) where
  ladders := ⟨framed.ladders.asks.mirror, framed.ladders.bids.mirror⟩
  minPrice := framed.minPrice
  maxPrice := framed.maxPrice

theorem bounded (framed : FramedBook range book) : OnLadders Bounded book :=
  ⟨framed.ladders.bids.toBounded, framed.ladders.asks.toBounded⟩

/-- The queues of a side in the mirror, from the other end. -/
theorem levelQueues_mirrorSpec
    (framed : FramedBook range book)
    (carries : Carries book spec)
    (side : Side) :
    ((range.mirrorSpec spec).levelQueues side.opposite).Perm
      ((spec.levelQueues side).map (List.map range.mirrorEntry)) := by
  have minPrice := framed.spec_minPrice carries
  have maxPrice := framed.spec_maxPrice carries
  have reversed : ((range.mirrorSpec spec).levelQueues side.opposite) =
      ((List.range (spec.maxPrice - spec.minPrice + 1).toNat).map
        ((spec.maxPrice - spec.minPrice + 1).toNat - 1 - ·)).map fun (i : Nat) =>
          (spec.queue side (spec.minPrice + i)).map range.mirrorEntry := by
    rw [Reference.Book.levelQueues, List.map_map]
    refine List.map_congr_left fun index inside => ?_
    rw [List.mem_range] at inside
    have mirrored : spec.minPrice + (index : Int) = range.mirrorPrice (spec.minPrice +
        (((spec.maxPrice - spec.minPrice + 1).toNat - 1 - index : Nat) : Int)) := by
      unfold mirrorPrice
      rw [← minPrice, ← maxPrice]
      simp only [mirrorSpec] at inside
      lia
    rw [Reference.Book.queue, orders_mirrorSpec]
    exact (congrArg (fun price => queueAt side.opposite price _) mirrored).trans
      (range.queueAt_mirrorEntry ..)
  have shuffled : ((List.range (spec.maxPrice - spec.minPrice + 1).toNat).map
      ((spec.maxPrice - spec.minPrice + 1).toNat - 1 - ·)).Perm
        (List.range (spec.maxPrice - spec.minPrice + 1).toNat) := by
    have backwards := @List.reverse_range' 0 (spec.maxPrice - spec.minPrice + 1).toNat
    rw [Nat.zero_add] at backwards
    rw [← backwards, ← List.range_eq_range']
    exact List.reverse_perm _
  rw [reversed, Reference.Book.levelQueues]
  refine (shuffled.map _).trans ?_
  rw [List.map_map]
  exact List.Perm.refl _

theorem scannedQueues_mirrorBook
    (framed : FramedBook range book)
    (carries : Carries book spec)
    (side : Side) :
    (scannedQueues (range.mirrorBook book) (range.mirrorSpec spec) side.opposite).Perm
      ((scannedQueues book spec side).map (List.map range.mirrorEntry)) := by
  have sameEmpty : ((range.mirrorBook book).ladder side.opposite).empty =
      (book.ladder side).empty := by
    rw [ladder_mirrorBook]
    exact Option.isNone_map
  unfold scannedQueues
  rw [sameEmpty]
  split
  · exact List.Perm.nil
  · exact framed.levelQueues_mirrorSpec carries side

/-- The report on a book and on its image. -/
theorem report_mirrorBook
    (framed : FramedBook range book)
    (carries : Carries book spec) :
    (scannedQueues (range.mirrorBook book) (range.mirrorSpec spec) .buy ++
        scannedQueues (range.mirrorBook book) (range.mirrorSpec spec) .sell).foldl addCounted {} =
      (scannedQueues book spec .buy ++ scannedQueues book spec .sell).foldl addCounted {} := by
  have shuffled : (scannedQueues (range.mirrorBook book) (range.mirrorSpec spec) .buy ++
      scannedQueues (range.mirrorBook book) (range.mirrorSpec spec) .sell).Perm
        ((scannedQueues book spec .buy ++ scannedQueues book spec .sell).map
          (List.map range.mirrorEntry)) := by
    rw [List.map_append]
    exact ((framed.scannedQueues_mirrorBook carries .sell).append
      (framed.scannedQueues_mirrorBook carries .buy)).trans List.perm_append_comm
  rw [shuffled.foldl_eq, List.foldl_map]
  simp only [addCounted_mirrorEntry]

end FramedBook

/-! ## The orders that are left -/

theorem survivors_mirrorBook (side : Side) (queue : List Order) :
    survivors (range.mirrorBook book) side.opposite (queue.map range.mirrorEntry) =
      (survivors book side queue).map range.mirrorEntry := by
  have sameEmpty : ((range.mirrorBook book).ladder side.opposite).empty =
      (book.ladder side).empty := by
    rw [ladder_mirrorBook]
    exact Option.isNone_map
  have kept : keptOrders (queue.map range.mirrorEntry) =
      (keptOrders queue).map range.mirrorEntry :=
    range.filter_mirrorEntry queue fun _ => rfl
  simp only [survivors, sameEmpty, uncounted_mirrorEntry, kept]
  split <;> rfl

theorem exists_priority_mirrorPrice (range : PriceRange) (side : Side) (key : Int) :
    ∃ price, priority side.opposite (range.mirrorPrice price) = key := by
  cases side with
  | buy => exact ⟨range.mirrorPrice key, range.mirrorPrice_mirrorPrice key⟩
  | sell =>
      refine ⟨range.mirrorPrice (-key), ?_⟩
      rw [mirrorPrice_mirrorPrice]
      exact Int.neg_neg key

/-- A reference book with the queues of an image is the image. -/
theorem eq_mirrorSpec_of_queues
    {image : Reference.Book}
    (minPrice : image.minPrice = spec.minPrice)
    (maxPrice : image.maxPrice = spec.maxPrice)
    (sorted : ∀ side, KeyedList.Ordered (orderPriority side) (spec.orders side))
    (imageSorted : ∀ side, KeyedList.Ordered (orderPriority side) (image.orders side))
    (queues : ∀ side price,
      queueAt side.opposite (range.mirrorPrice price) (image.orders side.opposite) =
        (queueAt side price (spec.orders side)).map range.mirrorEntry) :
    image = range.mirrorSpec spec := by
  refine Reference.Book.ext_orders minPrice maxPrice fun side => ?_
  rw [← side.opposite_opposite, orders_mirrorSpec]
  refine (imageSorted _).eq_of_buckets (range.ordered_mirrorEntry (sorted side.opposite)) ?_
  intro key
  obtain ⟨price, rfl⟩ := range.exists_priority_mirrorPrice side.opposite key
  exact (queues side.opposite price).trans (range.queueAt_mirrorEntry ..).symm

/-! ## The best prices that are left -/

theorem Framed.refreshBest_mirrorLadder
    {ladder : PriceLadder}
    (framed : Framed range ladder) :
    refreshBest (range.mirrorLadder ladder) = (refreshBest ladder).map range.mirrorLadder := by
  unfold refreshBest
  rw [show (range.mirrorLadder ladder).bestPrice =
    ladder.bestPrice.map range.mirrorPrice from rfl]
  cases ladder.bestPrice with
  | none => rfl
  | some bestPrice =>
      refine sequence (framed.getLevelAtPrice_mirrorLadder bestPrice) fun index => ?_
      refine sequence (framed.level_mirrorLadder index) fun level => ?_
      rw [ite_map]
      exact if_congr Iff.rfl (framed.updateBestPriceFromGiven_mirrorLadder bestPrice) rfl

/-- The lists decide which levels are empty. -/
theorem map_empty_levels
    {heap heap' : Heap} {addr addr' : OrderID → BlockAddress} {left right : PriceLadder}
    {side : Side} {orders : List Order}
    (leftLinks : LadderLinks heap addr left side orders)
    (rightLinks : LadderLinks heap' addr' right side orders)
    (minPrice : left.minPrice = right.minPrice)
    (maxPrice : left.maxPrice = right.maxPrice) :
    left.levels.map PriceLevel.empty = right.levels.map PriceLevel.empty := by
  have leftLength := leftLinks.length
  have rightLength := rightLinks.length
  rw [← minPrice, ← maxPrice] at rightLength
  refine List.ext_getElem (by simp only [List.length_map]; omega) fun index inside inside' => ?_
  rw [List.length_map] at inside inside'
  obtain ⟨_, leftLevel⟩ := leftLinks.lists index _ (List.getElem?_eq_getElem inside)
  obtain ⟨_, rightLevel⟩ := rightLinks.lists index _ (List.getElem?_eq_getElem inside')
  rw [← minPrice] at rightLevel
  rw [List.getElem_map, List.getElem_map, Bool.eq_iff_iff, leftLevel.empty_iff,
    rightLevel.empty_iff]

namespace FramedBook

variable {after image : OrderBook} {result : DayOrderPruneResult}

theorem ladderRange (framed : FramedBook range book) (side : Side) :
    (book.ladder side).minPrice = range.minPrice ∧ (book.ladder side).maxPrice = range.maxPrice :=
  ⟨(framed.ladder side).minPrice, (framed.ladder side).maxPrice⟩

/-- A session end leaves a book over the range. -/
theorem of_onSessionEnd
    (framed : FramedBook range book)
    (carries : Carries after spec)
    (ended : book.onSessionEnd = .ok (result, after)) :
    FramedBook range after := by
  have ladders := (ladderInvariant_framed range).onSessionEnd framed.ladders ended
  obtain ⟨addr, free, linked⟩ := carries.linked
  exact ⟨ladders,
    carries.minPrice.trans ((linked.minPrice .buy).symm.trans (ladders.ladder .buy).minPrice),
    carries.maxPrice.trans ((linked.maxPrice .buy).symm.trans (ladders.ladder .buy).maxPrice)⟩

/-- The best prices that the session end leaves of a book and of its image. -/
theorem bestPrice_onSessionEnd
    {imageResult : DayOrderPruneResult} {afterSpec : Reference.Book}
    (framed : FramedBook range book)
    (carries : Carries book spec)
    (ended : book.onSessionEnd = .ok (result, after))
    (imageEnded : (range.mirrorBook book).onSessionEnd = .ok (imageResult, image))
    (framedAfter : FramedBook range after)
    (framedImage : FramedBook range image)
    (afterCarries : Carries after afterSpec)
    (imageCarries : Carries image (range.mirrorSpec afterSpec))
    (side : Side) :
    (image.ladder side.opposite).bestPrice =
      ((range.mirrorBook after).ladder side.opposite).bestPrice := by
  have imageRefreshed := (framed.carries_mirrorBook carries).refreshBest_onSessionEnd imageEnded
    side.opposite
  have framedLadder : Framed range
      { after.ladder side with bestPrice := (book.ladder side).bestPrice } := by
    refine (framedAfter.ladder side).withBest fun price isBest => ?_
    have inRange := (framed.ladder side).best price isBest
    unfold InRange at inRange ⊢
    rw [(framed.ladderRange side).1, (framed.ladderRange side).2] at inRange
    rw [(framedAfter.ladderRange side).1, (framedAfter.ladderRange side).2]
    exact inRange
  have refreshed := framedLadder.refreshBest_mirrorLadder
  rw [carries.refreshBest_onSessionEnd ended side, map_ok] at refreshed
  obtain ⟨addr, free, linked⟩ := imageCarries.linked
  obtain ⟨addr', free', mirrored⟩ := (framedAfter.carries_mirrorBook afterCarries).linked
  have links := linked.links side.opposite
  have mirroredLinks := mirrored.links side.opposite
  rw [ladder_mirrorBook] at mirroredLinks imageRefreshed ⊢
  obtain ⟨imageMin, imageMax⟩ := framedImage.ladderRange side.opposite
  obtain ⟨afterMin, afterMax⟩ := framedAfter.ladderRange side
  have sameMin := imageMin.trans afterMin.symm
  have sameMax := imageMax.trans afterMax.symm
  have sameEmpty := map_empty_levels links mirroredLinks sameMin sameMax
  have like : RefreshesLike
      { image.ladder side.opposite with
        bestPrice := (range.mirrorLadder (book.ladder side)).bestPrice }
      (range.mirrorLadder
        { after.ladder side with bestPrice := (book.ladder side).bestPrice }) :=
    { minPrice := sameMin
      maxPrice := sameMax
      side := links.side_eq.trans mirroredLinks.side_eq.symm
      bestPrice := rfl
      empty := sameEmpty }
  exact like.bestPrice_eq imageRefreshed refreshed

/-- The session end of a book and of its image. -/
theorem onSessionEnd
    (framed : FramedBook range book)
    (carries : Carries book spec) :
    ∃ report after image,
      book.onSessionEnd = .ok (report, after) ∧
      (range.mirrorBook book).onSessionEnd = .ok (report, image) ∧
      RenamesBook (counterpart (range.mirrorBook after) image) (range.mirrorBook after) image := by
  have mirrored := framed.carries_mirrorBook carries
  obtain ⟨after, afterSpec, ended, _, afterCarries, _, queues⟩ :=
    carries.onSessionEnd framed.bounded
  obtain ⟨image, imageSpec, imageEnded, _, imageCarries, _, imageQueues⟩ :=
    mirrored.onSessionEnd framed.mirror.bounded
  have framedAfter := framed.of_onSessionEnd afterCarries ended
  have framedImage := framed.mirror.of_onSessionEnd imageCarries imageEnded
  have sameSpec : imageSpec = range.mirrorSpec afterSpec := by
    obtain ⟨_, _, afterLinked⟩ := afterCarries.linked
    obtain ⟨_, _, imageLinked⟩ := imageCarries.linked
    refine eq_mirrorSpec_of_queues
      ((framedImage.spec_minPrice imageCarries).trans
        (framedAfter.spec_minPrice afterCarries).symm)
      ((framedImage.spec_maxPrice imageCarries).trans
        (framedAfter.spec_maxPrice afterCarries).symm)
      (fun side => (afterLinked.links side).sorted) (fun side => (imageLinked.links side).sorted)
      fun side price => ?_
    rw [imageQueues, orders_mirrorSpec, queueAt_mirrorEntry, survivors_mirrorBook, queues]
  subst sameSpec
  rw [framed.report_mirrorBook carries] at imageEnded
  refine ⟨_, after, image, ended, imageEnded, renamesBook_of_carries
    (framedAfter.carries_mirrorBook afterCarries) imageCarries (fun side => ?_) ?_⟩
  · rw [← side.opposite_opposite]
    exact framed.bestPrice_onSessionEnd carries ended imageEnded framedAfter framedImage
      afterCarries imageCarries side.opposite
  · exact (keepsCapacity_onSessionEnd _ _ imageEnded).trans
      (keepsCapacity_onSessionEnd _ _ ended).symm

end FramedBook

end PriceRange
end MatchingEngine
