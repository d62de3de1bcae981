import MatchingEngine.Properties.Pool
import MatchingEngine.Refinement.Growth

/-!
# The pool of a book grows on demand

The pool of a book has grown just as far as the largest number of orders after a
call demanded, however many orders came and went.
-/

namespace MatchingEngine
namespace Properties

open OrderBook (Returns StorableCalls sampleCalls sampleConfig sampleSession)
open Refinement

variable {config : OrderBookConfig} {book : OrderBook}
variable {events : List (Event OrderBook Operation Output)}

/-- Runs from a new book of a configuration. -/
abbrev ConfiguredRun (config : OrderBookConfig) :
    List (Event OrderBook Operation Output) → OrderBook → Prop :=
  Run (fun book => OrderBook.create config = .ok book) (Returns StorableCalls)

/-- The largest number of orders after a call. -/
def peakOrders (events : List (Event OrderBook Operation Output)) : Nat :=
  (events.map fun event => event.after.getNumOrders).foldl max 0

theorem peakOrders_append_singleton
    (events : List (Event OrderBook Operation Output)) (event : Event OrderBook Operation Output) :
    peakOrders (events ++ [event]) = max (peakOrders events) event.after.getNumOrders := by
  simp [peakOrders]

theorem capacityOf_create (created : OrderBook.create config = .ok book) :
    capacityOf book.memoryPool = ⟨config.initialPoolSize, [config.initialPoolSize]⟩ := by
  obtain ⟨⟨pool, heap⟩, pooled, created⟩ := bind_eq_ok created
  obtain ⟨bids, _, created⟩ := bind_eq_ok created
  obtain ⟨asks, _, created⟩ := bind_eq_ok created
  obtain ⟨slab, _, pooled⟩ := bind_eq_ok pooled
  obtain ⟨rfl, _⟩ := Prod.mk.inj (Except.ok.inj pooled)
  rw [← Except.ok.inj created]
  rfl

/-- The invariant of a run. -/
theorem demanded_of_run (run : ConfiguredRun config events book) :
    (∃ spec, Stores book spec) ∧
      Demanded config.initialPoolSize (peakOrders events) (capacityOf book.memoryPool) := by
  induction run with
  | start created =>
      refine ⟨stores_of_run (.start ⟨config, created⟩), ?_⟩
      rw [capacityOf_create created]
      exact ⟨by simp, by simp, Nat.zero_le _, Or.inl rfl⟩
  | @step events before run operation output after taken inductionHypothesis =>
      obtain ⟨⟨spec, stores⟩, demanded⟩ := inductionHypothesis
      obtain ⟨spec', stores'⟩ := stores.execute taken.1 taken.2
      refine ⟨⟨spec', stores'⟩, ?_⟩
      obtain ⟨capacity, oneMore⟩ := (AllocatesLast.execute stores taken.1.1 taken.2).capacity
        stores'.carries
      rw [peakOrders_append_singleton, capacity, stores'.carries.getNumOrders_eq,
        ← stores'.carries.currentlyAllocated_eq]
      obtain ⟨addr, free, linked⟩ := stores.carries.linked
      exact demanded.demand linked.pool.nonempty oneMore

/-- After every run the pool has as many live blocks as there are orders, and the smallest
doubling of its initial size that covers the largest number of orders after a call. -/
theorem pool_covers_peak (run : ConfiguredRun config events book) :
    book.getMemoryPoolCurrAlloc = book.getNumOrders ∧
      IsLeast {elements | (∃ doublings, elements = config.initialPoolSize * 2 ^ doublings) ∧
        peakOrders events ≤ elements} book.getMemoryPoolSize := by
  obtain ⟨⟨spec, stores⟩, demanded⟩ := demanded_of_run run
  exact ⟨stores.carries.currentlyAllocated_eq.trans stores.carries.getNumOrders_eq.symm,
    demanded.isLeast⟩

/-- The sample calls start with two blocks, and at their peak four orders rest. -/
theorem pool_covers_peak_sample :
    peakOrders sampleSession.1 = 4 ∧
      sampleSession.2.getMemoryPoolCurrAlloc = sampleSession.2.getNumOrders ∧
      IsLeast {elements | (∃ doublings, elements = sampleConfig.initialPoolSize * 2 ^ doublings) ∧
        peakOrders sampleSession.1 ≤ elements} sampleSession.2.getMemoryPoolSize := by
  have performed : (OrderBook.session sampleConfig sampleCalls) = .ok sampleSession := rfl
  obtain ⟨book, created, performed⟩ := bind_eq_ok performed
  have started : ConfiguredRun sampleConfig [] book := .start created
  have storable : ∀ event ∈ sampleSession.1, StorableCalls event.before event.input := by
    decide +kernel
  have run : ConfiguredRun sampleConfig sampleSession.1 sampleSession.2 :=
    run_of_performed started performed fun event member executed =>
      ⟨storable event member, executed⟩
  exact ⟨by decide +kernel, pool_covers_peak run⟩

end Properties
end MatchingEngine
