import MatchingEngine.Library.Transport
import MatchingEngine.Model.OrderBook

/-!
# The mirror image of a book

A range of prices is reflected in its middle and the two sides are exchanged, in
prices, orders, blocks, levels, ladders and books, and in requests and results.
The blocks stay where they are.
-/

namespace MatchingEngine

/-- The lowest and the highest price of a book. -/
structure PriceRange where
  minPrice : Price
  maxPrice : Price

namespace PriceRange

variable (range : PriceRange)

/-! ## Prices and indices -/

/-- Number of the prices of a range. -/
def count : Nat := (range.maxPrice - range.minPrice + 1).toNat

/-- The price at the same distance from the other end of the range. -/
def mirrorPrice (price : Price) : Price := range.minPrice + range.maxPrice - price

/-- The index of the mirrored price; an index outside the array stays outside. -/
def mirrorIndex (index : Nat) : Nat :=
  if index < range.count then range.count - 1 - index else index

/-- The level of the mirrored price on the other side. -/
def mirrorPlace (place : LevelAddress) : LevelAddress :=
  ⟨place.side.opposite, range.mirrorIndex place.index⟩

/-! ## States -/

/-- An order on the other side. -/
def mirrorOrder (order : RestingOrder) : RestingOrder :=
  { order with
    level := order.level.map range.mirrorPlace
    side := order.side.opposite }

/-- A block with its order on the other side. -/
def mirrorBlock : MemoryBlock → MemoryBlock
  | .order order => .order (range.mirrorOrder order)
  | block => block

/-- Every block of a heap is mirrored in its place. -/
def mirrorHeap (heap : Heap) : Heap := fun address => range.mirrorBlock (heap address)

/-- A level at the mirrored price. -/
def mirrorLevel (level : PriceLevel) : PriceLevel :=
  { level with price := range.mirrorPrice level.price }

/-- A ladder of the other side, with its levels in reverse. -/
def mirrorLadder (ladder : PriceLadder) : PriceLadder :=
  { ladder with
    side := ladder.side.opposite
    levels := (ladder.levels.map range.mirrorLevel).reverse
    bestPrice := ladder.bestPrice.map range.mirrorPrice }

/-- A book whose sides are exchanged. -/
def mirrorBook (book : OrderBook) : OrderBook :=
  { book with
    heap := range.mirrorHeap book.heap
    bidLevels := range.mirrorLadder book.askLevels
    askLevels := range.mirrorLadder book.bidLevels }

/-! ## Requests and results -/

/-- A request for the other side at the mirrored price. -/
def mirrorLimitRequest (request : LimitOrderRequest) : LimitOrderRequest :=
  { request with
    price := range.mirrorPrice request.price
    side := request.side.opposite }

/-- A call with its side and its price mirrored. -/
def mirrorOperation : Operation → Operation
  | .submitLimitOrder request => .submitLimitOrder (range.mirrorLimitRequest request)
  | .submitMarketOrder request =>
      .submitMarketOrder { request with side := request.side.opposite }
  | .modifyOrder request =>
      .modifyOrder { request with newPrice := range.mirrorPrice request.newPrice }
  | .replayAddVisibleOrder id price quantity side =>
      .replayAddVisibleOrder id (range.mirrorPrice price) quantity side.opposite
  | .replayReplaceVisibleOrder originalId newId newPrice newQuantity =>
      .replayReplaceVisibleOrder originalId newId (range.mirrorPrice newPrice) newQuantity
  | operation => operation

/-- An execution at the mirrored price. -/
def mirrorExecution (execution : ExecutionResult) : ExecutionResult :=
  { execution with makerPrice := range.mirrorPrice execution.makerPrice }

/-- The answer to a submission, with its executions mirrored. -/
def mirrorSubmission (result : SubmissionResult) : SubmissionResult :=
  { result with executions := result.executions.map range.mirrorExecution }

/-- The answer to a modification, with its resubmission mirrored. -/
def mirrorModification (result : ModificationResult) : ModificationResult :=
  { result with resubmissionResult := result.resubmissionResult.map range.mirrorSubmission }

/-- An answer with its prices mirrored. -/
def mirrorOutput : Output → Output
  | .submission result => .submission (range.mirrorSubmission result)
  | .modification result => .modification (range.mirrorModification result)
  | output => output

/-- The image of a depth list. -/
def mirrorDepth (entries : List (Price × Volume)) : List (Price × Volume) :=
  entries.map fun entry => (range.mirrorPrice entry.1, entry.2)

/-! ## Mirroring twice -/

@[simp] theorem mirrorPrice_mirrorPrice (price : Price) :
    range.mirrorPrice (range.mirrorPrice price) = price := by
  simp [mirrorPrice]

theorem mirrorPrice_inj {price other : Price} :
    range.mirrorPrice price = range.mirrorPrice other ↔ price = other :=
  (Function.LeftInverse.injective range.mirrorPrice_mirrorPrice).eq_iff

@[simp] theorem mirrorIndex_mirrorIndex (index : Nat) :
    range.mirrorIndex (range.mirrorIndex index) = index := by
  unfold mirrorIndex
  split_ifs <;> omega

theorem mirrorIndex_inj {index other : Nat} :
    range.mirrorIndex index = range.mirrorIndex other ↔ index = other :=
  (Function.LeftInverse.injective range.mirrorIndex_mirrorIndex).eq_iff

theorem mirrorIndex_of_lt {index : Nat} (inside : index < range.count) :
    range.mirrorIndex index = range.count - 1 - index :=
  if_pos inside

theorem mirrorIndex_lt {index : Nat} :
    range.mirrorIndex index < range.count ↔ index < range.count := by
  unfold mirrorIndex
  split <;> omega

@[simp] theorem mirrorPlace_mirrorPlace (place : LevelAddress) :
    range.mirrorPlace (range.mirrorPlace place) = place := by
  simp [mirrorPlace]

theorem mirrorPlace_inj {place other : LevelAddress} :
    range.mirrorPlace place = range.mirrorPlace other ↔ place = other :=
  (Function.LeftInverse.injective range.mirrorPlace_mirrorPlace).eq_iff

@[simp] theorem mirrorLevel_mirrorLevel (level : PriceLevel) :
    range.mirrorLevel (range.mirrorLevel level) = level := by
  simp [mirrorLevel]

@[simp] theorem mirrorLadder_mirrorLadder (ladder : PriceLadder) :
    range.mirrorLadder (range.mirrorLadder ladder) = ladder := by
  simp [mirrorLadder, Function.comp_def]

@[simp] theorem mirrorDepth_mirrorDepth (entries : List (Price × Volume)) :
    range.mirrorDepth (range.mirrorDepth entries) = entries := by
  simp [mirrorDepth, Function.comp_def]

end PriceRange

end MatchingEngine
