import Mathlib.Tactic.TypeStar
import Mathlib.Algebra.Order.Group.Int
import Mathlib.Algebra.Ring.Int.Defs

/-!
# Scalars, requests and results

Quantities and prices are integers, ids and volumes natural numbers.  The
fixed-width types of the source appear as conversions: every operation of the
source whose result may leave its type is followed in the model by the
conversion to that type.  Signed results wrap around in two's complement, as
the compilers of the project compute them.
-/

namespace MatchingEngine

/-- `std::uint64_t`; the book only compares ids for equality. -/
abbrev OrderID := Nat

/-- `std::int64_t`, a fixed-point price. -/
abbrev Price := Int

/-- `std::int32_t`. -/
abbrev Quantity := Int

/-- `std::uint64_t`. -/
abbrev Volume := Nat

/-! ## Fixed-width arithmetic -/

/-- Values of `std::int32_t`. -/
def InInt32 (value : Int) : Prop :=
  -2147483648 ≤ value ∧ value ≤ 2147483647

/-- Values of `std::int64_t`. -/
def InInt64 (value : Int) : Prop :=
  -9223372036854775808 ≤ value ∧ value ≤ 9223372036854775807

/-- Values of `std::uint32_t`. -/
def InUInt32 (value : Int) : Prop :=
  0 ≤ value ∧ value < 4294967296

/-- Values of `std::uint64_t` and `std::size_t`. -/
def InUInt64 (value : Int) : Prop :=
  0 ≤ value ∧ value < 18446744073709551616

instance (value : Int) : Decidable (InInt32 value) :=
  inferInstanceAs (Decidable (_ ∧ _))

instance (value : Int) : Decidable (InInt64 value) :=
  inferInstanceAs (Decidable (_ ∧ _))

instance (value : Int) : Decidable (InUInt32 value) :=
  inferInstanceAs (Decidable (_ ∧ _))

instance (value : Int) : Decidable (InUInt64 value) :=
  inferInstanceAs (Decidable (_ ∧ _))

/-- Conversion to `std::int32_t`. -/
def toInt32 (value : Int) : Int :=
  (value + 2147483648) % 4294967296 - 2147483648

/-- Conversion to `std::int64_t`. -/
def toInt64 (value : Int) : Int :=
  (value + 9223372036854775808) % 18446744073709551616 - 9223372036854775808

/-- Conversion to `std::uint32_t`. -/
def toUInt32 (value : Int) : Nat :=
  (value % 4294967296).toNat

/-- Conversion to `std::uint64_t` and `std::size_t`. -/
def toUInt64 (value : Int) : Nat :=
  (value % 18446744073709551616).toNat

theorem toInt32_of_inInt32 {value : Int} (range : InInt32 value) :
    toInt32 value = value := by
  unfold InInt32 at range
  unfold toInt32
  omega

theorem inInt32_toInt32 (value : Int) : InInt32 (toInt32 value) := by
  unfold InInt32 toInt32
  omega

theorem toInt64_of_inInt64 {value : Int} (range : InInt64 value) :
    toInt64 value = value := by
  unfold InInt64 at range
  unfold toInt64
  omega

theorem toUInt64_of_inUInt64 {value : Int} (range : InUInt64 value) :
    (toUInt64 value : Int) = value := by
  unfold InUInt64 at range
  unfold toUInt64
  omega

theorem toUInt64_natCast {value : Nat} (bound : value < 18446744073709551616) :
    toUInt64 (value : Int) = value := by
  unfold toUInt64
  omega

/-! ## Enumerations -/

/-- The two sides of the book. -/
inductive Side
  | buy
  | sell
  deriving DecidableEq

namespace Side

/-- The side an order on this side trades against. -/
def opposite : Side → Side
  | buy => sell
  | sell => buy

@[simp] theorem opposite_opposite (side : Side) : side.opposite.opposite = side := by
  cases side <;> rfl

@[simp] theorem opposite_ne (side : Side) : side.opposite ≠ side := by
  cases side <;> simp [opposite]

@[simp] theorem ne_opposite (side : Side) : side ≠ side.opposite :=
  (opposite_ne side).symm

end Side

/-- How long a limit order may wait: for the day, not at all, not at all and only as a whole,
or until it is canceled. -/
inductive TimeInForce
  | day
  | ioc
  | fok
  | gtc
  deriving DecidableEq

/-- Whether a resting order survives the end of the session. -/
inductive RestingLifetime
  | gtc
  | day
  deriving DecidableEq

/-! ## Configuration -/

/-- An accepted configuration.  The constructor of the source throws unless the
prices are in order, so every configuration carries that fact, together with
the ranges of its field types. -/
structure OrderBookConfig where
  initialPoolSize : Nat
  minPrice : Price
  maxPrice : Price
  initialPoolSizeRange : InUInt64 initialPoolSize
  minPriceRange : InInt64 minPrice
  maxPriceRange : InInt64 maxPrice
  ordered : minPrice ≤ maxPrice

/-! ## Requests -/

/-- A limit order as it is submitted. -/
structure LimitOrderRequest where
  id : OrderID
  price : Price
  quantity : Quantity
  side : Side
  tif : TimeInForce
  deriving DecidableEq

/-- A market order as it is submitted. -/
structure MarketOrderRequest where
  id : OrderID
  quantity : Quantity
  side : Side
  deriving DecidableEq

/-- The id of an order that is to leave the book. -/
structure CancelOrderRequest where
  id : OrderID
  deriving DecidableEq

/-- The id of a resting order, with its new quantity and price. -/
structure ModifyOrderRequest where
  id : OrderID
  newQuantity : Quantity
  newPrice : Price
  deriving DecidableEq

/-! ## Results -/

/-- One trade against a resting order, at the price of that order. -/
structure ExecutionResult where
  makerOrderID : OrderID
  makerPrice : Price
  executedQuantity : Quantity
  deriving DecidableEq

/-- What has become of a submitted order. -/
inductive SubmitStatus
  | filled
  | partiallyFilledResting
  | partiallyFilledCanceled
  | killed
  | rejected
  | resting
  | canceled
  deriving DecidableEq

/-- The status of a result that names only its requested quantity is the first
enumerator, as value initialisation leaves it. -/
structure SubmissionResult where
  quantityRequested : Quantity := 0
  quantityFilled : Quantity := 0
  status : SubmitStatus := .filled
  executions : List ExecutionResult := []
  deriving DecidableEq

/-- Whether there was an order to cancel. -/
inductive CancelStatus
  | canceled
  | notFound
  deriving DecidableEq

/-- The answer to a cancellation, with the quantity that left the book. -/
structure CancelResult where
  quantityCancelled : Quantity := 0
  status : CancelStatus
  deriving DecidableEq

/-- What has become of a modification; `canceled` answers a new quantity of zero or less. -/
inductive ModificationStatus
  | resubmitted
  | canceled
  | rejected
  | notFound
  deriving DecidableEq

/-- The answer to a modification, with that to the submission it ends with. -/
structure ModificationResult where
  originalQuantity : Quantity := 0
  status : ModificationStatus
  resubmissionResult : Option SubmissionResult
  deriving DecidableEq

/-- The totals of a session end.  Shares and orders are counted in `std::uint64_t`, levels in
`std::uint32_t`. -/
structure DayOrderPruneResult where
  sharesErased : Volume := 0
  ordersPruned : Nat := 0
  priceLevelsErased : Nat := 0
  deriving DecidableEq

/-- What one price level reports about a pruning: a `std::size_t` and a
`Quantity`. -/
structure LevelPruneStats where
  ordersPruned : Nat := 0
  quantityPruned : Quantity := 0
  deriving DecidableEq

/-! ## Operations -/

/-- A call of one of the public methods that may change the book. -/
inductive Operation
  | submitLimitOrder (limitRequest : LimitOrderRequest)
  | submitMarketOrder (marketRequest : MarketOrderRequest)
  | cancelOrder (cancelRequest : CancelOrderRequest)
  | modifyOrder (modificationRequest : ModifyOrderRequest)
  | onSessionEnd
  | replayAddVisibleOrder
      (id : OrderID) (price : Price) (quantity : Quantity) (side : Side)
  | replayDeleteVisibleOrder (id : OrderID)
  | replayReduceVisibleOrder (id : OrderID) (quantityReduced : Quantity)
  | replayReplaceVisibleOrder
      (originalId newId : OrderID) (newPrice : Price) (newQuantity : Quantity)
  deriving DecidableEq

/-- What a call returns. -/
inductive Output
  | submission (result : SubmissionResult)
  | cancellation (result : CancelResult)
  | modification (result : ModificationResult)
  | sessionEnd (result : DayOrderPruneResult)
  | replay (succeeded : Bool)
  deriving DecidableEq

/-- The executions that a call reports. -/
def Output.executions : Output → List ExecutionResult
  | submission result => result.executions
  | modification result =>
      match result.resubmissionResult with
      | some resubmission => resubmission.executions
      | none => []
  | cancellation _ | sessionEnd _ | replay _ => []

/-- The call reports that it has done nothing. -/
def Output.Failed : Output → Prop
  | submission result =>
      result.status = .rejected ∨ result.status = .killed ∨ result.status = .canceled
  | cancellation result => result.status = .notFound
  | modification result => result.status = .rejected ∨ result.status = .notFound
  | sessionEnd _ => False
  | replay succeeded => succeeded = false

namespace Operation

/-- The operation is not one of the replay operations. -/
def IsMatching : Operation → Prop
  | replayAddVisibleOrder .. | replayDeleteVisibleOrder _ | replayReduceVisibleOrder ..
  | replayReplaceVisibleOrder .. => False
  | _ => True

/-- All quantities are `std::int32_t` values. -/
def RepresentableQuantities : Operation → Prop
  | submitLimitOrder limitRequest => InInt32 limitRequest.quantity
  | submitMarketOrder marketRequest => InInt32 marketRequest.quantity
  | modifyOrder modificationRequest => InInt32 modificationRequest.newQuantity
  | replayAddVisibleOrder _ _ quantity _ => InInt32 quantity
  | replayReduceVisibleOrder _ quantityReduced => InInt32 quantityReduced
  | replayReplaceVisibleOrder _ _ _ newQuantity => InInt32 newQuantity
  | cancelOrder _ | onSessionEnd | replayDeleteVisibleOrder _ => True

/-- All quantities are `std::int32_t` values of at least one share.  A modification
may also ask for no shares, which cancels the order. -/
def PositiveQuantities : Operation → Prop
  | submitLimitOrder limitRequest =>
      1 ≤ limitRequest.quantity ∧ InInt32 limitRequest.quantity
  | submitMarketOrder marketRequest =>
      1 ≤ marketRequest.quantity ∧ InInt32 marketRequest.quantity
  | modifyOrder modificationRequest =>
      0 ≤ modificationRequest.newQuantity ∧ InInt32 modificationRequest.newQuantity
  | replayAddVisibleOrder _ _ quantity _ => 1 ≤ quantity ∧ InInt32 quantity
  | replayReduceVisibleOrder _ quantityReduced =>
      1 ≤ quantityReduced ∧ InInt32 quantityReduced
  | replayReplaceVisibleOrder _ _ _ newQuantity => 1 ≤ newQuantity ∧ InInt32 newQuantity
  | cancelOrder _ | onSessionEnd | replayDeleteVisibleOrder _ => True

end Operation

end MatchingEngine
