import FoodFactory.Controller.Router

/-!
# What a request leaves alone

Every write of a request stands behind two filters, the token and the ability, and the
ability depends on the role of the user who is logged in. Going through the effects of
requests once (`Effect`), this module reads off what each kind of requester cannot change,
cascades included.

`writeFrame` is the result: without an accepted token and a user nothing changes, a client
changes no hotel and no menu, a hotel owner changes no order, and nobody adds or deletes a
user or changes another one.
-/

namespace FoodFactory

open Store

variable {env : Env} {ctx : Ctx} {db db' : DB} {req : Req} {k : ℕ} {u : User}

theorem exists_of_can {c : Option (ℕ × User)} {v : Verb} {s : Subject} (h : can c v s = true) :
    ∃ k u, c = some (k, u) := by
  match c with
  | none => simp at h
  | some (k, u) => exact ⟨k, u, rfl⟩

namespace Effect

/-- A request that changes something has an accepted token and a user. -/
theorem authenticated (h : Effect env ctx db req db') :
    db' = db ∨ (Authenticated env ctx db ∧ ∃ k u, currentUser ctx db = some (k, u)) := by
  cases h with
  | nothing => exact .inl rfl
  | updateUser h => exact .inr ⟨h.auth, exists_of_can h.can⟩
  | createHotel h => exact .inr ⟨h.auth, exists_of_can h.can⟩
  | updateHotel h => exact .inr ⟨h.auth, exists_of_can h.can⟩
  | destroyHotel h => exact .inr ⟨h.auth, exists_of_can h.can⟩
  | createMenu h => exact .inr ⟨h.auth, exists_of_can h.can⟩
  | updateMenu h => exact .inr ⟨h.auth, exists_of_can h.can⟩
  | destroyMenu h => exact .inr ⟨h.auth, exists_of_can h.can⟩
  | createOrder h => exact .inr ⟨h.auth, exists_of_can h.can⟩
  | destroyOrder h => exact .inr ⟨h.auth, exists_of_can h.can⟩

/-- A client's request changes no hotel and no menu. -/
theorem of_client (h : Effect env ctx db req db') (hcur : currentUser ctx db = some (k, u))
    (hrole : u.role = some .client) : db'.hotels = db.hotels ∧ db'.menus = db.menus := by
  have hhotel (v : Verb) (j : Option ℕ) (hc : can (currentUser ctx db) v (.record .hotel j) = true) :
      Permission.read.covers v = true := by rwa [hcur, can_hotel_of_client hrole] at hc
  have hmenu (v : Verb) (j : Option ℕ) (hc : can (currentUser ctx db) v (.record .menu j) = true) :
      Permission.read.covers v = true := by rwa [hcur, can_menu_of_client hrole] at hc
  cases h with
  | nothing => exact ⟨rfl, rfl⟩
  | updateUser h => exact h.state ▸ ⟨rfl, rfl⟩
  | createHotel h => exact absurd (hhotel _ _ h.can) (by decide)
  | updateHotel h => exact absurd (hhotel _ _ h.can) (by decide)
  | destroyHotel h => exact absurd (hhotel _ _ h.can) (by decide)
  | createMenu h => exact absurd (hmenu _ _ h.can) (by decide)
  | updateMenu h => exact absurd (hmenu _ _ h.can) (by decide)
  | destroyMenu h => exact absurd (hmenu _ _ h.can) (by decide)
  | createOrder h =>
    rw [CreateOrderService.call_state, CreateOrderService.placed]
    split <;> exact ⟨rfl, rfl⟩
  | destroyOrder h => exact h.state ▸ ⟨rfl, rfl⟩

/-- A hotel owner's request changes no order. -/
theorem of_hotelOwner (h : Effect env ctx db req db') (hcur : currentUser ctx db = some (k, u))
    (hrole : u.role = some .hotelOwner) : db'.orders = db.orders := by
  have horder (v : Verb) (j : Option ℕ) (hc : can (currentUser ctx db) v (.record .order j) = true) :
      Permission.read.covers v = true := by rwa [hcur, can_order_of_hotelOwner hrole] at hc
  rcases h.orders with h | ⟨_, _, _, _, _, _, _, _, -, h, -⟩ | ⟨_, _, _, _, _, -, h⟩
  · exact h
  · exact absurd (horder _ _ h.can) (by decide)
  · exact absurd (horder _ _ h.can) (by decide)

/-- A request adds and deletes no user, and changes none but the one who is logged in. -/
theorem find_users (h : Effect env ctx db req db') (i : ℕ) :
    (db'.users.Has i ↔ db.users.Has i) ∧
      ((∀ u, currentUser ctx db ≠ some (i, u)) → db'.users.find i = db.users.find i) := by
  rcases h.users with hs | ⟨id, body, j, u, u', -, h⟩
  · rw [hs]
    exact ⟨Iff.rfl, fun _ => rfl⟩
  · rw [h.state]
    refine ⟨Table.has_set, fun hi => ?_⟩
    have hij : i ≠ j := by
      rintro rfl
      exact hi u h.current
    simp only [Table.find_set, if_neg hij]

end Effect

/-- What a request leaves alone, by its token and the user who is logged in. -/
structure WriteFrame (env : Env) (ctx : Ctx) (db db' : DB) : Prop where
  /-- Without a user, or with a token that is missing, invalid, expired or revoked, nothing changes. -/
  unauthenticated : currentUser ctx db = none ∨ ¬ Authenticated env ctx db → db' = db
  /-- A client changes no hotel and no menu. -/
  client : ∀ k u, currentUser ctx db = some (k, u) → u.role = some .client →
    db'.hotels = db.hotels ∧ db'.menus = db.menus
  /-- A hotel owner changes no order. -/
  hotelOwner : ∀ k u, currentUser ctx db = some (k, u) → u.role = some .hotelOwner → db'.orders = db.orders
  /-- No user is added or deleted. -/
  users : ∀ i, db'.users.Has i ↔ db.users.Has i
  /-- No user is changed but the one who is logged in. -/
  otherUsers : ∀ i, (∀ u, currentUser ctx db ≠ some (i, u)) → db'.users.find i = db.users.find i

/-- **The write frame of a request**, for every database, route, path, body, header and session. -/
theorem writeFrame (env : Env) (ctx : Ctx) (req : Req) (db : DB) : WriteFrame env ctx db (after env ctx req db) := by
  have h := handle_effect env ctx req db
  refine ⟨fun hn => ?_, fun _ _ => h.of_client, fun _ _ => h.of_hotelOwner, fun i => (h.find_users i).1,
    fun i => (h.find_users i).2⟩
  rcases h.authenticated with h | ⟨hauth, k, u, hcur⟩
  · exact h
  · rcases hn with hn | hn
    · rw [hcur] at hn
      cases hn
    · exact absurd hauth hn

end FoodFactory
