import MatchingEngine.Reference.Legality

/-!
# Uncrossed books

The matching operations keep a book uncrossed, because a remainder rests only when
no maker is left that it would accept.
-/

namespace MatchingEngine
namespace Reference
namespace Book

/-- Every bid is priced below every ask. -/
def Uncrossed (book : Book) : Prop :=
  ∀ bid ∈ book.orders .buy, ∀ ask ∈ book.orders .sell, bid.price < ask.price

variable {book : Book}

/-- The prices on a side after a change that queues nothing are among those
before. -/
theorem exists_price_eq
    {change : Change} {side : Side} {order : Order}
    (quiet : change.Quiet)
    (member : order ∈ (book.apply change).orders side) :
    ∃ original ∈ book.orders side, original.price = order.price := by
  rcases of_mem_apply quiet member with inOrders | ⟨original, inOrders, amount, rfl, _⟩
  · exact ⟨order, inOrders, rfl⟩
  · exact ⟨original, inOrders, rfl⟩

theorem Uncrossed.apply
    {change : Change}
    (uncrossed : book.Uncrossed)
    (passive : book.Passive change) :
    (book.apply change).Uncrossed := by
  intro bid bidMember ask askMember
  have quietCase : change.Quiet → bid.price < ask.price := by
    intro quiet
    obtain ⟨oldBid, inBids, bidPrice⟩ := exists_price_eq quiet bidMember
    obtain ⟨oldAsk, inAsks, askPrice⟩ := exists_price_eq quiet askMember
    rw [← bidPrice, ← askPrice]
    exact uncrossed oldBid inBids oldAsk inAsks
  cases change with
  | rest side order =>
      rcases mem_orders_rest.mp bidMember with ⟨rfl, rfl⟩ | oldBid
      · rcases mem_orders_rest.mp askMember with ⟨different, _⟩ | oldAsk
        · cases different
        · simpa [accepts] using passive ask oldAsk
      · rcases mem_orders_rest.mp askMember with ⟨rfl, rfl⟩ | oldAsk
        · simpa [accepts] using passive bid oldBid
        · exact uncrossed bid oldBid ask oldAsk
  | _ => exact quietCase trivial

/-- The matching operations leave an uncrossed book uncrossed. -/
theorem Uncrossed.execute
    {operation : Operation}
    (uncrossed : book.Uncrossed)
    (valid : book.Valid)
    (isMatching : operation.IsMatching)
    (safe : book.Safe operation) :
    (book.execute operation).2.Uncrossed := by
  rw [(book.execute_changes operation).1]
  exact (valid.allLegal_matching isMatching safe).preserves Uncrossed
    (fun _ _ uncrossed legal => uncrossed.apply legal.2) uncrossed

end Book
end Reference

end MatchingEngine
