import Mathlib.Order.Monotone.Basic
import MatchingEngine.Reference.Changes

/-!
# Relabelling a book

Ids are only compared for equality and prices only by their order.  A map that
keeps ids apart and prices in order therefore commutes with every elementary
change of a book.  Lifetimes matter to no change but pruning.
-/

namespace MatchingEngine
namespace Reference

/-- New ids, prices and lifetimes for the orders of a book. -/
structure Relabelling where
  ids : OrderID → OrderID
  prices : Price → Price
  lifetimes : RestingLifetime → RestingLifetime
  injective : Function.Injective ids
  increasing : ∀ left right, left < right → prices left < prices right

namespace Relabelling

variable (labels : Relabelling)

/-- An order under its new labels. -/
def order (order : Order) : Order :=
  ⟨labels.ids order.id, labels.prices order.price, order.quantity,
    labels.lifetimes order.lifetime⟩

@[simp] theorem order_id (order : Order) : (labels.order order).id = labels.ids order.id := rfl

@[simp] theorem order_price (order : Order) :
    (labels.order order).price = labels.prices order.price := rfl

@[simp] theorem order_quantity (order : Order) :
    (labels.order order).quantity = order.quantity := rfl

@[simp] theorem order_lifetime (order : Order) :
    (labels.order order).lifetime = labels.lifetimes order.lifetime := rfl

theorem order_reduce (order : Order) (amount : Quantity) :
    labels.order (order.reduce amount) = (labels.order order).reduce amount := rfl

/-- A book whose orders and price range have new labels. -/
def book (book : Book) : Book where
  minPrice := labels.prices book.minPrice
  maxPrice := labels.prices book.maxPrice
  bids := book.bids.map labels.order
  asks := book.asks.map labels.order

@[simp] theorem book_minPrice (book : Book) :
    (labels.book book).minPrice = labels.prices book.minPrice := rfl

@[simp] theorem book_maxPrice (book : Book) :
    (labels.book book).maxPrice = labels.prices book.maxPrice := rfl

theorem orders_book (book : Book) (side : Side) :
    (labels.book book).orders side = (book.orders side).map labels.order := by
  cases side <;> rfl

theorem book_setOrders (book : Book) (side : Side) (orders : List Order) :
    labels.book (book.setOrders side orders) =
      (labels.book book).setOrders side (orders.map labels.order) := by
  cases side <;> rfl

/-! ## Comparisons -/

@[simp] theorem ids_inj {left right : OrderID} :
    labels.ids left = labels.ids right ↔ left = right :=
  labels.injective.eq_iff

@[simp] theorem prices_inj {left right : Price} :
    labels.prices left = labels.prices right ↔ left = right :=
  (StrictMono.injective labels.increasing).eq_iff

@[simp] theorem prices_lt {left right : Price} :
    labels.prices left < labels.prices right ↔ left < right :=
  StrictMono.lt_iff_lt labels.increasing

@[simp] theorem prices_le {left right : Price} :
    labels.prices left ≤ labels.prices right ↔ left ≤ right :=
  StrictMono.le_iff_le labels.increasing

theorem priority_lt (side : Side) (left right : Price) :
    priority side (labels.prices left) < priority side (labels.prices right) ↔
      priority side left < priority side right := by
  cases side <;> simp [priority]

theorem accepts_prices (side : Side) (limit price : Price) :
    Book.accepts side (labels.prices limit) (labels.prices price) =
      Book.accepts side limit price := by
  cases side <;> simp [Book.accepts]

/-! ## Finding orders -/

variable (book : Book)

theorem queue_book (side : Side) (price : Price) :
    (labels.book book).queue side (labels.prices price) =
      (book.queue side price).map labels.order := by
  rw [Book.queue, Book.queue, KeyedList.bucket, KeyedList.bucket, orders_book, List.filter_map]
  congr 2
  funext order
  simp [orderPriority]

@[simp] theorem contains_book {id : OrderID} :
    (labels.book book).Contains (labels.ids id) ↔ book.Contains id := by
  simp [Book.contains_iff, orders_book]

theorem find?_map_order (orders : List Order) (id : OrderID) :
    (orders.map labels.order).find? (fun order => order.id = labels.ids id) =
      (orders.find? fun order => order.id = id).map labels.order := by
  rw [List.find?_map]
  congr 2
  funext order
  simp

theorem locate_book (id : OrderID) :
    (labels.book book).locate (labels.ids id) =
      (book.locate id).map fun found => (found.1, labels.order found.2) := by
  have bids : (labels.book book).bids = book.bids.map labels.order := rfl
  have asks : (labels.book book).asks = book.asks.map labels.order := rfl
  unfold Book.locate
  rw [bids, asks, find?_map_order, find?_map_order]
  cases book.bids.find? fun order => order.id = id with
  | some bid => rfl
  | none => cases book.asks.find? fun order => order.id = id <;> rfl

/-! ## Changes -/

theorem book_remove (id : OrderID) :
    labels.book (book.remove id) = (labels.book book).remove (labels.ids id) := by
  refine Book.ext_orders rfl rfl fun side => ?_
  rw [orders_book, Book.orders_remove, Book.orders_remove, orders_book, List.filter_map]
  congr 2
  funext order
  simp

theorem book_reduce (id : OrderID) (amount : Quantity) :
    labels.book (book.reduce id amount) = (labels.book book).reduce (labels.ids id) amount := by
  refine Book.ext_orders rfl rfl fun side => ?_
  rw [orders_book, Book.orders_reduce, Book.orders_reduce, orders_book, List.map_map,
    List.map_map]
  apply List.map_congr_left
  intro order _
  by_cases same : order.id = id
  · simp [same, order_reduce]
  · simp [same]

theorem book_rest (side : Side) (order : Order) :
    labels.book (book.rest side order) = (labels.book book).rest side (labels.order order) := by
  rw [Book.rest, Book.rest, book_setOrders, orders_book]
  congr 1
  exact KeyedList.map_enqueue
    (fun other => labels.priority_lt side order.price other.price) (book.orders side)

section Taking

variable {takes takes' : Price → Bool}

theorem filter_orders_book
    (sameTakes : ∀ price, takes' (labels.prices price) = takes price)
    (side : Side) :
    ((labels.book book).orders side).filter (fun order => takes' order.price) =
      ((book.orders side).filter fun order => takes order.price).map labels.order := by
  rw [orders_book, List.filter_map]
  congr 2
  funext order
  exact sameTakes order.price

theorem matching_book
    (sameTakes : ∀ price, takes' (labels.prices price) = takes price)
    (makerSide : Side) (quantity : Quantity) :
    (labels.book book).matching makerSide takes' quantity =
      ⟨(book.matching makerSide takes quantity).taken.map (Prod.map labels.order id),
        (book.matching makerSide takes quantity).rest.map labels.order⟩ := by
  rw [Book.matching, labels.filter_orders_book book sameTakes]
  exact Fill.fill_map labels.order_quantity labels.order_reduce quantity _

theorem book_afterMatching
    (sameTakes : ∀ price, takes' (labels.prices price) = takes price)
    (makerSide : Side) (quantity : Quantity) :
    labels.book (book.afterMatching makerSide takes quantity) =
      (labels.book book).afterMatching makerSide takes' quantity := by
  have dropped := @filter_orders_book labels book (fun price => !takes price)
    (fun price => !takes' price) (fun price => congrArg not (sameTakes price)) makerSide
  rw [Book.afterMatching, Book.afterMatching, labels.matching_book book sameTakes, book_setOrders,
    List.map_append, dropped]

end Taking

/-! ## Books -/

variable {book}

/-- A relabelled book keeps the invariants. -/
theorem valid_book (valid : book.Valid) : (labels.book book).Valid := by
  have ofSide : ∀ {side order}, order ∈ (labels.book book).orders side →
      ∃ original ∈ book.orders side, labels.order original = order := by
    intro side order member
    rw [orders_book] at member
    exact List.mem_map.mp member
  refine ⟨fun side => ?_, ?_, fun side order member => ?_, fun side order member => ?_⟩
  · rw [orders_book]
    refine List.pairwise_map.mpr ((valid.sorted side).imp fun {near far} inOrder => ?_)
    exact le_of_not_gt fun greater =>
      inOrder.not_gt ((labels.priority_lt side far.price near.price).mp greater)
  · have ids : ((labels.book book).bids ++ (labels.book book).asks).map Order.id =
        ((book.bids ++ book.asks).map Order.id).map labels.ids := by
      simp only [Relabelling.book, ← List.map_append, List.map_map]
      rfl
    unfold Book.Distinct
    rw [ids]
    exact valid.distinct.map labels.injective
  · obtain ⟨original, inOrders, rfl⟩ := ofSide member
    exact valid.positive side original inOrders
  · obtain ⟨original, inOrders, rfl⟩ := ofSide member
    have bounds := valid.inRange side original inOrders
    exact ⟨labels.prices_le.mpr bounds.1, labels.prices_le.mpr bounds.2⟩

/-- An order that may rest in a book may rest, relabelled, in the relabelled book. -/
theorem legal_rest
    {side : Side} {order : Order}
    (legal : book.Legal (.rest side order)) :
    (labels.book book).Legal (.rest side (labels.order order)) := by
  obtain ⟨fresh, positive, lower, upper⟩ := legal
  exact ⟨fun present => fresh ((labels.contains_book book).mp present), positive,
    labels.prices_le.mpr lower, labels.prices_le.mpr upper⟩

variable (book)

/-! ## Relabelling nothing -/

/-- The relabelling that keeps every label. -/
def identity : Relabelling where
  ids id := id
  prices price := price
  lifetimes lifetime := lifetime
  injective := fun _ _ equal => equal
  increasing := fun _ _ less => less

theorem book_identity : identity.book book = book := by
  refine Book.ext_orders rfl rfl fun side => ?_
  rw [orders_book]
  exact List.map_id' _

end Relabelling

end Reference
end MatchingEngine
