import MatchingEngine.Reference.Operations

/-!
# Lists of calls on a reference book

The answers to a list of calls, and what all of its calls preserve.
-/

namespace MatchingEngine
namespace Reference
namespace Book

/-- The answers to a list of calls, and the book after them. -/
def executeAll (book : Book) : List Operation → List Output × Book
  | [] => ([], book)
  | operation :: operations =>
      let next := (book.execute operation).2
      ((book.execute operation).1 :: (next.executeAll operations).1,
        (next.executeAll operations).2)

variable {book : Book}

@[simp] theorem executeAll_nil (book : Book) : book.executeAll [] = ([], book) := rfl

@[simp] theorem executeAll_cons
    (book : Book) (operation : Operation) (operations : List Operation) :
    book.executeAll (operation :: operations) =
      ((book.execute operation).1 :: ((book.execute operation).2.executeAll operations).1,
        ((book.execute operation).2.executeAll operations).2) := rfl

theorem executeAll_append (book : Book) (earlier later : List Operation) :
    book.executeAll (earlier ++ later) =
      ((book.executeAll earlier).1 ++ ((book.executeAll earlier).2.executeAll later).1,
        ((book.executeAll earlier).2.executeAll later).2) := by
  induction earlier generalizing book with
  | nil => rfl
  | cons operation earlier inductionHypothesis =>
      rw [List.cons_append, executeAll_cons, inductionHypothesis]
      rfl

/-- The empty book of the same range. -/
def emptied (book : Book) : Book := ⟨book.minPrice, book.maxPrice, [], []⟩

theorem emptied_of_empty (bids : book.bids = []) (asks : book.asks = []) :
    book.emptied = book := by
  refine ext_orders rfl rfl fun side => ?_
  cases side with
  | buy => exact bids.symm
  | sell => exact asks.symm

@[simp] theorem emptied_execute (book : Book) (operation : Operation) :
    (book.execute operation).2.emptied = book.emptied := by
  rw [emptied, emptied, execute_minPrice, execute_maxPrice]

/-- What every call of a kind preserves, a list of them preserves. -/
theorem executeAll_preserves
    {operations : List Operation}
    (property : Book → Prop)
    (preserved : ∀ book, ∀ operation ∈ operations, property book →
      property (book.execute operation).2)
    (holds : property book) :
    property (book.executeAll operations).2 := by
  induction operations generalizing book with
  | nil => exact holds
  | cons operation operations inductionHypothesis =>
      apply inductionHypothesis
      · exact fun book operation member =>
          preserved book operation (List.mem_cons_of_mem _ member)
      · exact preserved book operation List.mem_cons_self holds

end Book
end Reference

end MatchingEngine
