import FoodFactory.Controller.Users

/-!
# The menus controller

`app/controllers/menus_controller.rb`. `show`, `update` and `destroy` load the menu by its
own id; `create` builds a menu of the hotel that the path names; the path's user is looked
at by `index` only, for the role that decides which menus are listed.
-/

namespace FoodFactory

open Store

namespace MenusController

/-- `create_object_index`. -/
def createObjectIndex (menus : List (ℕ × Menu)) : List MenuData :=
  menus.map fun m => ⟨m.1, m.2.menuName, m.2.hotelId, m.2.description, m.2.price⟩

/-- `MenusController#index`. -/
def index (env : Env) (ctx : Ctx) (userId hotelId : String) : Action DB Stop Response := do
  authenticateUser env ctx
  let hotel ← setHotel hotelId
  let user ← setUser userId
  authorize ctx .index (.cls .menu)
  Action.read fun db =>
    let menus :=
      if user.2.role = some .hotelOwner then db.menus.select fun m => m.hotelId == hotel.1 else db.menus.rows
    .ok ⟨.ok, .menus (createObjectIndex menus)⟩

/-- `MenusController#show`. -/
def «show» (env : Env) (ctx : Ctx) (id : String) : Action DB Stop Response := do
  authenticateUser env ctx
  let menu ← setMenu id
  authorize ctx .show (.record .menu none)
  pure ⟨.ok, .menu menu.1 menu.2⟩

/-- `MenusController#create`. -/
def create (env : Env) (ctx : Ctx) (hotelId : String) (body : Required MenuParams) : Action DB Stop Response := do
  authenticateUser env ctx
  let hotel ← setHotel hotelId
  let menuParams ← permitted "menu" body
  authorizeBuilt ctx .create .menu
  let r ← raising (Menu.save menuParams hotel.1)
  match r with
  | .ok m => pure ⟨.created, .menu m.1 m.2⟩
  | .error es => pure ⟨.unprocessableEntity, .recordErrors es⟩

/-- `MenusController#update`. -/
def update (env : Env) (ctx : Ctx) (id : String) (body : Required MenuParams) : Action DB Stop Response := do
  authenticateUser env ctx
  let menu ← setMenu id
  authorize ctx .update (.record .menu none)
  let menuParams ← permitted "menu" body
  let r ← raising (Menu.update menu.1 menu.2 menuParams)
  match r with
  | .ok m => pure ⟨.ok, .menu menu.1 m⟩
  | .error es => pure ⟨.unprocessableEntity, .recordErrors es⟩

/-- `MenusController#destroy`. -/
def destroy (env : Env) (ctx : Ctx) (id : String) : Action DB Stop Response := do
  authenticateUser env ctx
  let menu ← setMenu id
  authorize ctx .destroy (.record .menu none)
  raising (destroyMenu menu.1)
  pure ⟨.ok, .message (menu.2.menuName ++ " is deleted successfully")⟩

/-! ### What the actions do -/

variable {env : Env} {ctx : Ctx} {userId hotelId id : String} {body : Required MenuParams} {db : DB}

/-- What an accepted creation does: a menu of the hotel that the path names. -/
structure Creates (env : Env) (ctx : Ctx) (hotelId : String) (body : Required MenuParams) (db db' : DB) (i : ℕ)
    (h : Hotel) (m : Menu) : Prop where
  auth : Authenticated env ctx db
  path : findParam db.hotels hotelId = some (i, h)
  can : can (currentUser ctx db) .create (.record .menu (attributesFor (currentUser ctx db) .create .menu)) = true
  valid : ∃ p, body = .hash p ∧ p.validateNew i = .ok m ∧ inRange m.price = true
  state : db' = { db with menus := db.menus.insert m }

theorem leaves_create :
    (create env ctx hotelId body).Leaves db fun db' => ∃ i h m, Creates env ctx hotelId body db db' i h m := by
  refine Action.Leaves.congr (filters_authenticateUser.leaves fun _ _ => (filters_setHotel hotelId).leaves fun hotel _ =>
    (filters_permitted "menu" body).leaves fun p _ => (filters_authorizeBuilt .create .menu).leaves fun _ _ =>
      ((Menu.leaves_save p hotel.1 db).mapError _).bind fun r _ => by cases r <;> rfl) fun db' => ?_
  constructor
  · rintro ⟨-, hauth, ⟨i, h⟩, hh, p, hp, -, hcan, m, hv, hr, -, hdb⟩
    exact ⟨i, h, m, hauth, hh, hcan, ⟨p, hp, hv, hr⟩, hdb⟩
  · rintro ⟨i, h, m, hauth, hh, hcan, ⟨p, hp, hv, hr⟩, hdb⟩
    exact ⟨(), hauth, (i, h), hh, p, hp, (), hcan, m, hv, hr, Table.Has.of_find (findParam_find hh), hdb⟩

/-- What an accepted update does: the menu gets new values, and stays with its hotel. -/
structure Updates (env : Env) (ctx : Ctx) (id : String) (body : Required MenuParams) (db db' : DB) (i : ℕ)
    (m m' : Menu) : Prop where
  auth : Authenticated env ctx db
  path : findParam db.menus id = some (i, m)
  can : can (currentUser ctx db) .update (.record .menu none) = true
  valid : ∃ p, body = .hash p ∧ Menu.validateUpdate m p = .ok m' ∧ inRange m'.price = true
  state : db' = { db with menus := db.menus.set i m' }

theorem leaves_update :
    (update env ctx id body).Leaves db fun db' => ∃ i m m', Updates env ctx id body db db' i m m' := by
  refine Action.Leaves.congr (filters_authenticateUser.leaves fun _ _ => (filters_setMenu id).leaves fun menu hm =>
    (filters_authorize .update (.record .menu none)).leaves fun _ _ =>
      (filters_permitted "menu" body).leaves fun p _ =>
        ((Menu.leaves_update p (findParam_find hm)).mapError _).bind fun r _ => by cases r <;> rfl) fun db' => ?_
  constructor
  · rintro ⟨-, hauth, ⟨i, m⟩, hm, -, hcan, p, hp, m', hv, hr, hdb⟩
    exact ⟨i, m, m', hauth, hm, hcan, ⟨p, hp, hv, hr⟩, hdb⟩
  · rintro ⟨i, m, m', hauth, hm, hcan, ⟨p, hp, hv, hr⟩, hdb⟩
    exact ⟨(), hauth, (i, m), hm, (), hcan, p, hp, m', hv, hr, hdb⟩

/-- What an accepted destroy does: the menu goes, with its order items. -/
structure Destroys (env : Env) (ctx : Ctx) (id : String) (db db' : DB) (i : ℕ) (m : Menu) : Prop where
  auth : Authenticated env ctx db
  path : findParam db.menus id = some (i, m)
  can : can (currentUser ctx db) .destroy (.record .menu none) = true
  state : db' = db.dropMenus fun j => j == i

theorem leaves_destroy :
    (destroy env ctx id).Leaves db fun db' => ∃ i m, Destroys env ctx id db db' i m := by
  refine Action.Leaves.congr (filters_authenticateUser.leaves fun _ _ => (filters_setMenu id).leaves fun menu _ =>
    (filters_authorize .destroy (.record .menu none)).leaves fun _ _ =>
      Action.Leaves.bind (P := (· = db.dropMenus fun j => j == menu.1)) (Action.Leaves.mapError ?_ _) fun _ _ => rfl)
    fun db' => ?_
  · exact .inl (by rw [destroyMenu_run])
  · constructor
    · rintro ⟨-, hauth, ⟨i, m⟩, hm, -, hcan, hdb⟩
      exact ⟨i, m, hauth, hm, hcan, hdb⟩
    · rintro ⟨i, m, hauth, hm, hcan, hdb⟩
      exact ⟨(), hauth, (i, m), hm, (), hcan, hdb⟩

/-- Listing menus writes nothing. -/
theorem index_state : ((index env ctx userId hotelId).run db).2 = db :=
  (filters_authenticateUser.bind fun _ _ => (filters_setHotel hotelId).bind fun _ _ =>
    (filters_setUser userId).bind fun _ _ => (filters_authorize .index (.cls .menu)).bind fun _ _ =>
      Action.Filters.read fun _ => Iff.rfl).1

/-- Showing a menu writes nothing. -/
theorem show_state : ((«show» env ctx id).run db).2 = db :=
  (filters_authenticateUser.bind fun _ _ => (filters_setMenu id).bind fun _ _ =>
    (filters_authorize .show (.record .menu none)).bind fun _ _ => Action.Filters.pure _ db).1

end MenusController

end FoodFactory
