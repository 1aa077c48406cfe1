import FoodFactory.Controller.Users

/-!
# The orders and order items controllers

`app/controllers/orders_controller.rb` and `app/controllers/order_items_controller.rb`.

`index` picks the orders by the role of the user that the path names. `show` and `destroy`
load the order by its own id; `destroy` compares the order's owner with the user that the
path names. `create` converts the parameters with `to_f` and `to_i` and hands them to the
service, with the user that is logged in. The order items controller lists the whole table
and authorizes nothing.
-/

namespace FoodFactory

open Store Ruby

/-- The permitted parameters of an order: `:total_price, :status`. -/
structure OrderBody where
  totalPrice : Scalar
  status : Option String
  deriving DecidableEq

/-- The permitted parameters of an item: `:menu_id, :quantity, :price`. -/
structure ItemBody where
  menuId : Scalar
  quantity : Scalar
  price : Scalar
  deriving DecidableEq

/-- `params[:order_items]`: missing or empty, not a list, or a list, in which an entry may
be no hash. -/
inductive ItemsBody where
  | missing
  | notList
  | list (l : List (Option ItemBody))
  deriving DecidableEq

/-- A conversion, which may raise. -/
def converted {α : Type} (x : Except ConversionError α) : Except Stop α :=
  match x with
  | .error .noMethodError => .error (.raised .noMethodError)
  | .error .floatDomainError => .error (.raised .floatDomainError)
  | .ok a => .ok a

namespace OrdersController

/-- `order_params`, after the conversion. -/
def convertOrder (b : OrderBody) : Except Stop OrderParams := do
  let totalPrice ← converted b.totalPrice.toF
  pure ⟨totalPrice, b.status⟩

/-- One entry of `order_items_params`. -/
def convertItem : Option ItemBody → Except Stop ItemParams
  | none => .error (.raised .noMethodError)
  | some b => do
    let menuId ← converted b.menuId.toI
    let quantity ← converted b.quantity.toI
    let price ← converted b.price.toF
    pure ⟨menuId, quantity, price⟩

/-- `order_params`. -/
def orderParams (body : Required OrderBody) : Action DB Stop OrderParams := do
  let b ← permitted "order" body
  Action.read fun _ => convertOrder b

/-- `order_items_params`. An empty list is as good as missing. -/
def orderItemsParams : ItemsBody → Action DB Stop (List ItemParams)
  | .missing => Action.throw (.raised (.parameterMissing "order_items"))
  | .notList => Action.throw (.raised .noMethodError)
  | .list [] => Action.throw (.raised (.parameterMissing "order_items"))
  | .list l => Action.read fun _ => l.mapM convertItem

/-- The orders that `OrdersController#index` picks. -/
def ordersFor (db : DB) (user : ℕ × User) (hotel : ℕ) : List (ℕ × Order) :=
  match user.2.role with
  | some .admin => db.orders.rows
  | some .hotelOwner => db.orders.select fun o => o.hotelId == hotel
  | _ => db.orders.select fun o => o.userId == user.1

/-- `OrdersController#index`. -/
def index (env : Env) (ctx : Ctx) (userId hotelId : String) : Action DB Stop Response := do
  authenticateUser env ctx
  let user ← setUser userId
  let hotel ← setHotel hotelId
  authorize ctx .index (.cls .order)
  Action.read fun db => .ok ⟨.ok, .orders (ordersFor db user hotel.1)⟩

/-- `OrdersController#show`. -/
def «show» (env : Env) (ctx : Ctx) (id : String) : Action DB Stop Response := do
  authenticateUser env ctx
  let order ← setOrder id
  authorize ctx .show (.record .order (some order.2.userId))
  pure ⟨.ok, .order order.1 order.2⟩

/-- `objectForOrder`, or the errors. -/
def renderResult : ServiceResult → Response
  | .created i o items => ⟨.created, .createdOrder i o.status o.totalPrice items⟩
  | .unprocessableEntity es => ⟨.unprocessableEntity, .errors es⟩

/-- `OrdersController#create`. -/
def create (env : Env) (ctx : Ctx) (hotelId : String) (order : Required OrderBody) (orderItems : ItemsBody) :
    Action DB Stop Response := do
  authenticateUser env ctx
  let hotel ← setHotel hotelId
  let params ← orderParams order
  authorizeBuilt ctx .create .order
  let items ← orderItemsParams orderItems
  let current ← requireCurrentUser ctx
  let result ← raising (CreateOrderService.call current.1 hotel.1 params items)
  pure (renderResult result)

/-- `@order.user`, in an action that calls a method on it. -/
def orderUser (o : Order) : Action DB Stop ℕ := Action.read fun db =>
  if db.users.Has o.userId then .ok o.userId else .error (.raised .noMethodError)

/-- `OrdersController#destroy`. -/
def destroy (env : Env) (ctx : Ctx) (userId id : String) : Action DB Stop Response := do
  authenticateUser env ctx
  let order ← setOrder id
  let user ← setUser userId
  authorize ctx .destroy (.record .order (some order.2.userId))
  let owner ← orderUser order.2
  if owner = user.1 then do
    raising (destroyOrder order.1)
    pure ⟨.ok, .message "Order successfully deleted"⟩
  else pure ⟨.forbidden, .error "you are not authorize to delete this order"⟩

end OrdersController

/-- `OrderItemsController#index`. -/
def OrderItemsController.index (env : Env) (ctx : Ctx) : Action DB Stop Response := do
  authenticateUser env ctx
  Action.read fun db => .ok ⟨.ok, .orderItems db.orderItems.rows⟩

/-! ### What the actions do -/

namespace OrdersController

variable {env : Env} {ctx : Ctx} {userId hotelId id : String} {db : DB} {order : Required OrderBody}
  {orderItems : ItemsBody}

theorem filters_orderUser (o : Order) :
    (orderUser o).Filters db fun i => db.users.Has o.userId ∧ o.userId = i := by
  refine Action.Filters.read fun i => ?_
  split_ifs with h <;> simp [h]

/-- What an accepted destroy does: the order goes, with its items. The user that the path
names is the order's owner. -/
structure Destroys (env : Env) (ctx : Ctx) (userId id : String) (db db' : DB) (i : ℕ) (o : Order) : Prop where
  auth : Authenticated env ctx db
  path : findParam db.orders id = some (i, o)
  user : ∃ u, findParam db.users userId = some (o.userId, u)
  can : can (currentUser ctx db) .destroy (.record .order (some o.userId)) = true
  state : db' = db.dropOrders fun j => j == i

theorem leaves_destroy :
    (destroy env ctx userId id).Leaves db fun db' => ∃ i o, Destroys env ctx userId id db db' i o := by
  refine Action.Leaves.congr (filters_authenticateUser.leaves fun _ _ => (filters_setOrder id).leaves fun order _ =>
    (filters_setUser userId).leaves fun user _ =>
      (filters_authorize .destroy (.record .order (some order.2.userId))).leaves fun _ _ =>
        (filters_orderUser order.2).leaves
          (Q := fun owner db' => owner = user.1 ∧ db' = db.dropOrders fun j => j == order.1) fun owner _ => ?_)
    fun db' => ?_
  · split_ifs with ho
    · refine Action.Leaves.bind (Action.Leaves.mapError ?_ _) fun _ _ => rfl
      exact .inl ⟨ho, by rw [destroyOrder_run]⟩
    · exact (Action.Filters.pure _ db).leaves_nothing.congr fun _ => by simp [ho]
  · constructor
    · rintro ⟨-, hauth, ⟨i, o⟩, ho, ⟨j, u⟩, hu, -, hcan, owner, ⟨-, rfl⟩, howner, hdb⟩
      exact ⟨i, o, hauth, ho, ⟨u, howner ▸ hu⟩, hcan, hdb⟩
    · rintro ⟨i, o, hauth, ho, ⟨u, hu⟩, hcan, hdb⟩
      exact ⟨(), hauth, (i, o), ho, (o.userId, u), hu, (), hcan, o.userId,
        ⟨Table.Has.of_find (findParam_find hu), rfl⟩, rfl, hdb⟩

/-- Listing orders: what is rendered. -/
theorem filters_index :
    (index env ctx userId hotelId).Filters db fun r => Authenticated env ctx db ∧ ∃ user hotel,
      findParam db.users userId = some user ∧ findParam db.hotels hotelId = some hotel ∧
      can (currentUser ctx db) .index (.cls .order) = true ∧ r = ⟨.ok, .orders (ordersFor db user hotel.1)⟩ := by
  refine Action.Filters.congr (filters_authenticateUser.bind fun _ _ => (filters_setUser userId).bind fun user _ =>
    (filters_setHotel hotelId).bind fun hotel _ => (filters_authorize .index (.cls .order)).bind fun _ _ =>
      Action.Filters.read fun _ => by rw [Except.ok.injEq]) fun r => ?_
  constructor
  · rintro ⟨-, hauth, user, hu, hotel, hh, -, hcan, rfl⟩
    exact ⟨hauth, user, hotel, hu, hh, hcan, rfl⟩
  · rintro ⟨hauth, user, hotel, hu, hh, hcan, rfl⟩
    exact ⟨(), hauth, user, hu, hotel, hh, (), hcan, rfl⟩

/-- Showing an order: what is rendered. -/
theorem filters_show :
    («show» env ctx id).Filters db fun r => Authenticated env ctx db ∧ ∃ i o,
      findParam db.orders id = some (i, o) ∧
      can (currentUser ctx db) .show (.record .order (some o.userId)) = true ∧ r = ⟨.ok, .order i o⟩ := by
  refine Action.Filters.congr (filters_authenticateUser.bind fun _ _ => (filters_setOrder id).bind fun order _ =>
    (filters_authorize .show (.record .order (some order.2.userId))).bind fun _ _ => Action.Filters.pure _ db)
    fun r => ?_
  constructor
  · rintro ⟨-, hauth, ⟨i, o⟩, ho, -, hcan, rfl⟩
    exact ⟨hauth, i, o, ho, hcan, rfl⟩
  · rintro ⟨hauth, i, o, ho, hcan, rfl⟩
    exact ⟨(), hauth, (i, o), ho, (), hcan, rfl⟩

theorem bind_eq_ok_iff {ε α β : Type} {x : Except ε α} {f : α → Except ε β} {b : β} :
    x >>= f = .ok b ↔ ∃ a, x = .ok a ∧ f a = .ok b := by
  cases x <;> simp [bind, Except.bind]

theorem pure_eq_ok_iff {ε α : Type} {a b : α} : (pure a : Except ε α) = .ok b ↔ a = b :=
  iff_of_eq (Except.ok.injEq a b)

/-- A list is converted exactly when each of its elements is. -/
theorem mapM_eq_ok_iff {ε α β : Type} {f : α → Except ε β} {l : List α} {l' : List β} :
    l.mapM f = .ok l' ↔ List.Forall₂ (fun x y => f x = .ok y) l l' := by
  induction l generalizing l' with
  | nil => rw [List.mapM_nil, pure_eq_ok_iff, List.forall₂_nil_left_iff, eq_comm]
  | cons x l ih =>
    simp only [List.mapM_cons, bind_eq_ok_iff, pure_eq_ok_iff, ih, List.forall₂_cons_left_iff]
    constructor
    · rintro ⟨y, hy, ys, hys, rfl⟩
      exact ⟨y, ys, hy, hys, rfl⟩
    · rintro ⟨y, ys, hy, hys, rfl⟩
      exact ⟨y, hy, ys, hys, rfl⟩

@[simp] theorem converted_eq_ok {α : Type} {x : Except ConversionError α} {a : α} :
    converted x = .ok a ↔ x = .ok a := by
  match x with
  | .error .noMethodError => simp [converted]
  | .error .floatDomainError => simp [converted]
  | .ok b => simp [converted]

theorem convertOrder_eq_ok {b : OrderBody} {p : OrderParams} :
    convertOrder b = .ok p ↔ b.totalPrice.toF = .ok p.totalPrice ∧ p.status = b.status := by
  obtain ⟨total, status⟩ := p
  simp only [convertOrder, bind_eq_ok_iff, pure_eq_ok_iff, converted_eq_ok, OrderParams.mk.injEq]
  constructor
  · rintro ⟨t, ht, rfl, rfl⟩
    exact ⟨ht, rfl⟩
  · rintro ⟨ht, rfl⟩
    exact ⟨total, ht, rfl, rfl⟩

theorem convertItem_eq_ok {x : Option ItemBody} {p : ItemParams} :
    convertItem x = .ok p ↔ ∃ b, x = some b ∧ b.menuId.toI = .ok p.menuId ∧ b.quantity.toI = .ok p.quantity ∧
      b.price.toF = .ok p.price := by
  obtain ⟨menuId, quantity, price⟩ := p
  cases x with
  | none => simp [convertItem]
  | some b =>
    simp only [convertItem, bind_eq_ok_iff, pure_eq_ok_iff, converted_eq_ok, ItemParams.mk.injEq, Option.some.injEq,
      exists_eq_left']
    constructor
    · rintro ⟨i, hi, n, hn, q, hq, rfl, rfl, rfl⟩
      exact ⟨hi, hn, hq⟩
    · rintro ⟨hi, hn, hq⟩
      exact ⟨menuId, hi, quantity, hn, price, hq, rfl, rfl, rfl⟩

theorem filters_orderParams :
    (orderParams order).Filters db fun p => ∃ b, order = .hash b ∧ convertOrder b = .ok p :=
  (filters_permitted "order" order).bind fun _ _ => Action.Filters.read fun _ => Iff.rfl

/-- The items of a request after their conversion. -/
def ConvertsTo (b : ItemsBody) (items : List ItemParams) : Prop :=
  ∃ l, b = .list l ∧ l ≠ [] ∧ l.mapM convertItem = .ok items

theorem filters_orderItemsParams : (orderItemsParams orderItems).Filters db (ConvertsTo orderItems) := by
  unfold ConvertsTo
  match orderItems with
  | .missing => exact (Action.Filters.throw _ db).congr (by simp)
  | .notList => exact (Action.Filters.throw _ db).congr (by simp)
  | .list [] => exact (Action.Filters.throw _ db).congr (by simp)
  | .list (a :: l) => exact (Action.Filters.read fun _ => Iff.rfl).congr (by simp)

/-- What reaches the service: an accepted token, the path's hotel, converted parameters, and
the user that is logged in, who may create orders. -/
structure Calls (env : Env) (ctx : Ctx) (hotelId : String) (order : Required OrderBody) (orderItems : ItemsBody)
    (db : DB) (user hotel : ℕ) (params : OrderParams) (items : List ItemParams) : Prop where
  auth : Authenticated env ctx db
  path : ∃ h, findParam db.hotels hotelId = some (hotel, h)
  params : ∃ b, order = .hash b ∧ convertOrder b = .ok params
  can : can (currentUser ctx db) .create (.record .order (attributesFor (currentUser ctx db) .create .order)) = true
  items : ConvertsTo orderItems items
  current : ∃ u, currentUser ctx db = some (user, u)

/-- A creation leaves what the service leaves. -/
theorem leaves_create :
    (create env ctx hotelId order orderItems).Leaves db fun db' => ∃ user hotel params items,
      Calls env ctx hotelId order orderItems db user hotel params items ∧
        db' = ((CreateOrderService.call user hotel params items).run db).2 := by
  refine Action.Leaves.congr (filters_authenticateUser.leaves fun _ _ => (filters_setHotel hotelId).leaves fun hotel _ =>
    filters_orderParams.leaves fun params _ => (filters_authorizeBuilt .create .order).leaves fun _ _ =>
      filters_orderItemsParams.leaves fun items _ => filters_requireCurrentUser.leaves fun current _ =>
        Action.Leaves.bind (P := (· = ((CreateOrderService.call current.1 hotel.1 params items).run db).2))
          (Action.Leaves.mapError (P := (· = ((CreateOrderService.call current.1 hotel.1 params items).run db).2))
            (.inl rfl) _) fun _ _ => rfl) fun db' => ?_
  constructor
  · rintro ⟨-, hauth, ⟨i, h⟩, hh, params, hp, -, hcan, items, hitems, ⟨j, u⟩, hcur, hdb⟩
    exact ⟨j, i, params, items, ⟨hauth, ⟨h, hh⟩, hp, hcan, hitems, ⟨u, hcur⟩⟩, hdb⟩
  · rintro ⟨j, i, params, items, ⟨hauth, ⟨h, hh⟩, hp, hcan, hitems, ⟨u, hcur⟩⟩, hdb⟩
    exact ⟨(), hauth, (i, h), hh, params, hp, (), hcan, items, hitems, (j, u), hcur, hdb⟩

/-- A request reaches the service with one user, hotel, order and list of items. -/
theorem Calls.unique {user hotel user' hotel' : ℕ} {p p' : OrderParams} {items items' : List ItemParams}
    (h : Calls env ctx hotelId order orderItems db user hotel p items)
    (h' : Calls env ctx hotelId order orderItems db user' hotel' p' items') :
    user = user' ∧ hotel = hotel' ∧ p = p' ∧ items = items' := by
  obtain ⟨-, ⟨x, hx⟩, ⟨b, hb, hp⟩, -, ⟨l, hl, -, hitems⟩, ⟨u, hu⟩⟩ := h
  obtain ⟨-, ⟨x', hx'⟩, ⟨b', hb', hp'⟩, -, ⟨l', hl', -, hitems'⟩, ⟨u', hu'⟩⟩ := h'
  cases hx.symm.trans hx'
  cases hb.symm.trans hb'
  cases hl.symm.trans hl'
  cases hu.symm.trans hu'
  exact ⟨rfl, rfl, Except.ok.inj (hp.symm.trans hp'), Except.ok.inj (hitems.symm.trans hitems')⟩

/-- A creation that reaches the service leaves what the service leaves. -/
theorem Calls.state {user hotel : ℕ} {p : OrderParams} {items : List ItemParams}
    (h : Calls env ctx hotelId order orderItems db user hotel p items) :
    ((create env ctx hotelId order orderItems).run db).2 = CreateOrderService.placed db user hotel p items := by
  rcases @leaves_create env ctx hotelId db order orderItems with
    ⟨user', hotel', p', items', h', hs⟩ | ⟨hno, -⟩
  · obtain ⟨rfl, rfl, rfl, rfl⟩ := h.unique h'
    rw [hs, CreateOrderService.call_state]
  · exact absurd ⟨user, hotel, p, items, h, rfl⟩ (hno _)

end OrdersController

/-- Listing order items: what is rendered. -/
theorem OrderItemsController.filters_index {env : Env} {ctx : Ctx} {db : DB} :
    (OrderItemsController.index env ctx).Filters db fun r =>
      Authenticated env ctx db ∧ r = ⟨.ok, .orderItems db.orderItems.rows⟩ := by
  refine Action.Filters.congr (filters_authenticateUser.bind fun _ _ =>
    Action.Filters.read fun _ => by rw [Except.ok.injEq]) fun r => ?_
  simp [eq_comm]

end FoodFactory
