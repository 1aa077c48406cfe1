import FoodFactory.Controller.Router

/-!
# Who deletes and who sees orders

Three users meet in a request about orders: the one who is logged in, whom the ability
judges by role alone where orders are concerned; the one that the path names; and the one
the order belongs to. `destroy` compares the second with the third, `index` picks orders
by the second, and no action compares the first with the third.

## What is proved

* `deletesOnlyOwn_iff`: a destroy takes orders only from its requester, or is an admin's,
  exactly when a client who names an order's owner in the path is that owner.
* `seesOnlyOwn_iff`: a response shows its requester only orders that they may see exactly
  under the condition `Entitled`, spelled out for the three actions and the roles of the
  requester and the path's user.
* `client_deletes_order_of_other`, `client_sees_order_of_other`: a client deletes, and sees
  in three ways, the order of another client, in a state that sign-ups and requests lead to.
-/

namespace FoodFactory

open Store

variable {env : Env} {ctx : Ctx} {db : DB}

/-! ### Deleting -/

/-- An order that the request removes is its requester's, unless the requester is an admin; and a request that
removes none leaves orders and order items as they are. -/
def DeletesOnlyOwn (env : Env) (ctx : Ctx) (db : DB) (userId hotelId id : String) : Prop :=
  let db' := after env ctx (.ordersDestroy userId hotelId id) db
  (∀ j o, db.orders.find j = some o → ¬ db'.orders.Has j →
      ∃ k u, currentUser ctx db = some (k, u) ∧ (u.role = some .admin ∨ o.userId = k)) ∧
    ((∀ j, db.orders.Has j → db'.orders.Has j) → db'.orders = db.orders ∧ db'.orderItems = db.orderItems)

/-- Who may destroy an order: admins and clients. -/
theorem can_destroy_order {u : Option (ℕ × User)} {j : Option ℕ} :
    can u .destroy (.record .order j) = true ↔
      ∃ k v, u = some (k, v) ∧ (v.role = some .admin ∨ v.role = some .client) := by
  match u with
  | none => simp
  | some (k, v) =>
    cases hr : v.role with
    | none => simp [can_of_no_role hr, Permission.covers, hr]
    | some r =>
      cases r with
      | admin => simp [can_admin hr, hr]
      | client => simp [can_order_of_client hr, hr]
      | hotelOwner => simp [can_order_of_hotelOwner hr, Permission.covers, hr]

/-- The order that a destroy removes. -/
theorem not_has_dropOrders {i j : ℕ} {o : Order} (hj : db.orders.find j = some o) :
    ¬ (db.dropOrders fun k => k == i).orders.Has j ↔ j = i := by
  simp [Table.Has, DB.dropOrders, Table.find_filter, hj]

/-- **Deleting orders**: a destroy removes only an order of its requester, or is an admin's, exactly when a client
with an accepted token, who names in the path an order and the user it belongs to, is that user. -/
theorem deletesOnlyOwn_iff (env : Env) (ctx : Ctx) (db : DB) (userId hotelId id : String) :
    DeletesOnlyOwn env ctx db userId hotelId id ↔
      ∀ i o v k u, Authenticated env ctx db → findParam db.orders id = some (i, o) →
        findParam db.users userId = some (o.userId, v) → currentUser ctx db = some (k, u) →
        u.role = some .client → o.userId = k := by
  unfold DeletesOnlyOwn
  dsimp only
  rcases @OrdersController.leaves_destroy env ctx userId id db with
    ⟨i, o, hd⟩ | ⟨hno, hsame⟩
  · have hafter : after env ctx (.ordersDestroy userId hotelId id) db = db.dropOrders fun j => j == i := hd.state
    have ho : db.orders.find i = some o := findParam_find hd.path
    rw [hafter]
    constructor
    · rintro ⟨hown, -⟩ i' o' v k u - hpath - hcur hclient
      cases hd.path.symm.trans hpath
      obtain ⟨k', u', hcur', h⟩ := hown i o ho ((not_has_dropOrders ho).mpr rfl)
      cases hcur.symm.trans hcur'
      rcases h with h | h
      · rw [hclient] at h
        cases h
      · exact h
    · intro h
      refine ⟨fun j x hj hgone => ?_, fun hkeep => ?_⟩
      · obtain rfl : j = i := (not_has_dropOrders hj).mp hgone
        obtain rfl : o = x := Option.some.inj (ho.symm.trans hj)
        obtain ⟨k, u, hcur, hrole⟩ := can_destroy_order.mp hd.can
        obtain ⟨v, hv⟩ := hd.user
        refine ⟨k, u, hcur, ?_⟩
        rcases hrole with hrole | hrole
        · exact .inl hrole
        · exact .inr (h j o v k u hd.auth hd.path hv hcur hrole)
      · exact absurd (hkeep i (Table.Has.of_find ho)) ((not_has_dropOrders ho).mpr rfl)
  · have hafter : after env ctx (.ordersDestroy userId hotelId id) db = db := hsame
    rw [hafter]
    refine iff_of_true ⟨fun j o hj hgone => absurd (Table.Has.of_find hj) hgone, fun _ => ⟨rfl, rfl⟩⟩ ?_
    intro i o v k u hauth hpath hv hcur hclient
    exact absurd ⟨i, o, hauth, hpath, ⟨v, hv⟩, can_destroy_order.mpr ⟨k, u, hcur, .inr hclient⟩, rfl⟩ (hno _)

/-- Another client has signed up. -/
def otherSignedUp : DB :=
  (sampleEvents ++ [sampleSignUp "Other" "other@mail.com" "client"]).foldl (DB.step Plain.env) DB.empty

theorem otherSignedUp_eq : otherSignedUp =
    { DB.ordered with
      users := DB.ordered.users.insert ⟨"Other", some .client, "other@mail.com", "password"⟩ } := by
  rw [otherSignedUp, List.foldl_append, foldl_sampleEvents]
  decide +kernel

/-- Client 3 names the owner of order 1, client 1, in the path: the order is deleted. -/
theorem client_deletes_order_of_other : ¬ DeletesOnlyOwn Plain.env (sampleCtx 3) otherSignedUp "1" "1" "1" := by
  rw [otherSignedUp_eq]
  rintro ⟨hown, -⟩
  obtain ⟨k, u, hcur, h⟩ := hown 1 ⟨1, 1, 200, "pending"⟩ (by decide +kernel) (by decide +kernel)
  obtain ⟨hk, hu⟩ := currentUser_eq_some.mp hcur
  cases hk
  cases hu
  rcases h with h | h <;> exact absurd h (by decide)

/-! ### Seeing -/

/-- User `u`, under id `k`, may see order `o`: an admin sees all orders, a hotel owner those of their hotels, and
a client their own. -/
def MaySee (db : DB) (k : ℕ) (u : User) (o : Order) : Prop :=
  match u.role with
  | some .admin => True
  | some .hotelOwner => db.hotelOf k o.hotelId = true
  | some .client => o.userId = k
  | none => False

/-- The orders in a response. -/
def Body.ordersIn : Body → List (ℕ × Order)
  | .order i o => [(i, o)]
  | .orders l => l
  | _ => []

/-- The order items in a response. -/
def Body.itemsIn : Body → List (ℕ × OrderItem)
  | .orderItems l => l
  | _ => []

/-- The requests that show orders or order items. -/
inductive OrderView where
  | index (userId hotelId : String)
  | show (userId hotelId id : String)
  | items (userId hotelId orderId : String)

/-- The request itself. -/
def OrderView.req : OrderView → Req
  | .index userId hotelId => .ordersIndex userId hotelId
  | .show userId hotelId id => .ordersShow userId hotelId id
  | .items userId hotelId orderId => .orderItemsIndex userId hotelId orderId

/-- Every order in a successful response, and the order of every item in it, is one the requester may see. -/
def SeesOnlyOwn (env : Env) (ctx : Ctx) (db : DB) (view : OrderView) : Prop :=
  ∀ r k u, ((handle env ctx view.req).run db).1 = .ok r → r.status = .ok → currentUser ctx db = some (k, u) →
    (∀ o ∈ r.body.ordersIn, MaySee db k u o.2) ∧
      ∀ x ∈ r.body.itemsIn, ∃ o, db.orders.find x.2.orderId = some o ∧ MaySee db k u o

/-- User `u`, under id `k`, may see what `index` lists for user `v`, under id `j`, and hotel `h`. -/
def MayList (db : DB) (k : ℕ) (u : User) (j : ℕ) (v : User) (h : ℕ) : Prop :=
  match u.role, v.role with
  | some .admin, _ => True
  | some .hotelOwner, some .admin => ∀ i o, db.orders.find i = some o → db.hotelOf k o.hotelId = true
  | some .hotelOwner, some .hotelOwner => db.hotelOf k h = true ∨ ∀ i o, db.orders.find i = some o → o.hotelId ≠ h
  | some .hotelOwner, _ => ∀ i o, db.orders.find i = some o → o.userId = j → db.hotelOf k o.hotelId = true
  | some .client, some .admin => ∀ i o, db.orders.find i = some o → o.userId = k
  | some .client, some .hotelOwner => ∀ i o, db.orders.find i = some o → o.hotelId = h → o.userId = k
  | some .client, _ => j = k ∨ ∀ i o, db.orders.find i = some o → o.userId ≠ j
  | none, some .admin => ∀ i, db.orders.find i = none
  | none, some .hotelOwner => ∀ i o, db.orders.find i = some o → o.hotelId ≠ h
  | none, _ => ∀ i o, db.orders.find i = some o → o.userId ≠ j

/-- When the requester may see what the request shows. -/
def Entitled (db : DB) (k : ℕ) (u : User) : OrderView → Prop
  | .index userId hotelId => ∀ j v h x, findParam db.users userId = some (j, v) →
      findParam db.hotels hotelId = some (h, x) → MayList db k u j v h
  | .show _ _ id => ∀ i o, findParam db.orders id = some (i, o) → MaySee db k u o
  | .items _ _ _ => ∀ i x, db.orderItems.find i = some x →
      ∃ o, db.orders.find x.orderId = some o ∧ MaySee db k u o

/-- Everybody who is logged in may read orders. -/
theorem can_read_order (k : ℕ) (u : User) (v : Verb) (hv : Permission.read.covers v = true) (s : Subject)
    (hs : s.model = .order) : can (some (k, u)) v s = true := by
  rcases hr : u.role with _ | (_ | _ | _)
  · rw [can_of_no_role hr, hv]
  · exact can_admin hr v s
  · simp [can, ability, hr, Rule.relevant, Permission.covers, hs]
  · simp [can, ability, hr, Rule.relevant, hv, hs]

/-- What `index` lists, as a condition on an order. -/
theorem mem_ordersFor {j h i : ℕ} {v : User} {o : Order} :
    (i, o) ∈ OrdersController.ordersFor db (j, v) h ↔ db.orders.find i = some o ∧
      match v.role with
      | some .admin => True
      | some .hotelOwner => o.hotelId = h
      | _ => o.userId = j := by
  unfold OrdersController.ordersFor
  rcases v.role with _ | (_ | _ | _) <;> simp [Table.mem_select, Table.find_eq_some]

/-- What does not depend on the order holds for all orders of a kind when it holds, or there are none. -/
theorem or_forall_not_iff {P : Prop} {Q : Order → Prop} :
    (P ∨ ∀ i o, db.orders.find i = some o → ¬ Q o) ↔ ∀ i o, db.orders.find i = some o → Q o → P := by
  constructor
  · rintro (h | h) i o ho hQ
    · exact h
    · exact absurd hQ (h i o ho)
  · intro h
    by_cases hP : P
    · exact .inl hP
    · exact .inr fun i o ho hQ => hP (h i o ho hQ)

/-- The table of roles is what `index` needs. -/
theorem mayList_iff {k j h : ℕ} {u v : User} :
    MayList db k u j v h ↔ ∀ i o, (i, o) ∈ OrdersController.ordersFor db (j, v) h → MaySee db k u o := by
  have howner : (∀ i o, db.orders.find i = some o → o.hotelId = h → db.hotelOf k o.hotelId = true) ↔
      ∀ i o, db.orders.find i = some o → o.hotelId = h → db.hotelOf k h = true :=
    forall₄_congr fun i o _ hh => by rw [hh]
  have hclient : (∀ i o, db.orders.find i = some o → o.userId = j → o.userId = k) ↔
      ∀ i o, db.orders.find i = some o → o.userId = j → j = k :=
    forall₄_congr fun i o _ hj => by rw [hj]
  have hnone : (∀ i, db.orders.find i = none) ↔ ∀ i o, db.orders.find i ≠ some o :=
    forall_congr' fun i => Option.eq_none_iff_forall_ne_some
  simp only [mem_ordersFor, MayList, MaySee]
  rcases u.role with _ | (_ | _ | _) <;> rcases v.role with _ | (_ | _ | _) <;>
    simp [howner, hclient, hnone, or_forall_not_iff]

/-- **Seeing orders**: a response shows its requester only what they may see exactly when the requester, having an
accepted token, is entitled to what the request asks for. -/
theorem seesOnlyOwn_iff (env : Env) (ctx : Ctx) (db : DB) (view : OrderView) :
    SeesOnlyOwn env ctx db view ↔
      ∀ k u, Authenticated env ctx db → currentUser ctx db = some (k, u) → Entitled db k u view := by
  unfold SeesOnlyOwn
  cases view with
  | index userId hotelId =>
    constructor
    · intro h k u hauth hcur j v x y hv hx
      have hrun := (@OrdersController.filters_index env ctx userId hotelId db).2 _ |>.mpr ⟨hauth, (j, v), (x, y), hv, hx,
        hcur ▸ can_read_order k u .index rfl (.cls .order) rfl, rfl⟩
      exact mayList_iff.mpr fun i o ho => (h _ k u hrun rfl hcur).1 (i, o) ho
    · intro h r k u hrun _ hcur
      obtain ⟨hauth, ⟨j, v⟩, ⟨x, y⟩, hv, hx, -, rfl⟩ := (OrdersController.filters_index.2 r).mp hrun
      exact ⟨fun o ho => mayList_iff.mp (h k u hauth hcur j v x y hv hx) o.1 o.2 ho,
        fun o ho => absurd ho (by simp [Body.itemsIn])⟩
  | «show» userId hotelId id =>
    constructor
    · intro h k u hauth hcur i o ho
      have hrun := (@OrdersController.filters_show env ctx id db).2 _ |>.mpr ⟨hauth, i, o, ho,
        hcur ▸ can_read_order k u .show rfl (.record .order _) rfl, rfl⟩
      exact (h _ k u hrun rfl hcur).1 (i, o) (List.mem_singleton.mpr rfl)
    · intro h r k u hrun _ hcur
      obtain ⟨hauth, i, o, ho, -, rfl⟩ := (OrdersController.filters_show.2 r).mp hrun
      refine ⟨fun x hx => ?_, fun x hx => absurd hx (by simp [Body.itemsIn])⟩
      rw [List.mem_singleton.mp hx]
      exact h k u hauth hcur i o ho
  | items userId hotelId orderId =>
    constructor
    · intro h k u hauth hcur i x hx
      have hrun := (@OrderItemsController.filters_index env ctx db).2 _ |>.mpr ⟨hauth, rfl⟩
      exact (h _ k u hrun rfl hcur).2 (i, x) (Table.find_eq_some.mp hx)
    · intro h r k u hrun _ hcur
      obtain ⟨hauth, rfl⟩ := (OrderItemsController.filters_index.2 r).mp hrun
      exact ⟨fun o ho => absurd ho (by simp [Body.ordersIn]),
        fun x hx => h k u hauth hcur x.1 x.2 (Table.find_eq_some.mpr hx)⟩

/-- Client 3 sees the order of client 1: by its id, in the list of client 1, and by its items. -/
theorem client_sees_order_of_other :
    ¬ SeesOnlyOwn Plain.env (sampleCtx 3) otherSignedUp (.show "3" "1" "1") ∧
      ¬ SeesOnlyOwn Plain.env (sampleCtx 3) otherSignedUp (.index "1" "1") ∧
      ¬ SeesOnlyOwn Plain.env (sampleCtx 3) otherSignedUp (.items "3" "1" "1") := by
  rw [otherSignedUp_eq]
  refine ⟨fun h => ?_, fun h => ?_, fun h => ?_⟩
  · have hsee := (h ⟨.ok, .order 1 ⟨1, 1, 200, "pending"⟩⟩ 3 _ (by decide +kernel) rfl rfl).1 _
      (List.mem_singleton.mpr rfl)
    exact absurd (show 1 = 3 from hsee) (by decide)
  · have hsee := (h ⟨.ok, .orders [(1, ⟨1, 1, 200, "pending"⟩)]⟩ 3 _ (by decide +kernel) rfl rfl).1 _
      (List.mem_singleton.mpr rfl)
    exact absurd (show 1 = 3 from hsee) (by decide)
  · obtain ⟨o, ho, hsee⟩ := (h ⟨.ok, .orderItems [(1, ⟨1, 1, "2", 100⟩)]⟩ 3 _ (by decide +kernel) rfl rfl).2 _
      (List.mem_singleton.mpr rfl)
    cases ho
    exact absurd (show 1 = 3 from hsee) (by decide)

end FoodFactory
