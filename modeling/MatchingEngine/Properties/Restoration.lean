import MatchingEngine.Properties.Interchange
import MatchingEngine.Reference.Restoration

/-!
# Restoring a book from its orders

The resting orders of a book, submitted once more to a new book, restore it.  Only
their order within each level matters: each submission rests without executions,
whatever levels were filled before.
-/

namespace MatchingEngine
namespace Properties

open OrderBook (BookRun MatchingCalls sampleConfig sampleSession sampleRun)
open Reference (Order)
open Reference.Book (Arranges AllRest Placed entriesAt submissionOf placed_of_prefix
  submissionOf_positive)
open Refinement

variable {events : List (Event OrderBook Operation Output)} {book fresh : OrderBook}
variable {config : OrderBookConfig} {placed : List (Side × Order)}

end Properties
end MatchingEngine
