import FoodFactory.Controller.Users

/-!
# The hotels controller

`app/controllers/hotels_controller.rb`. `index` and `create` load the user that the path
names; `show`, `update` and `destroy` load the hotel by its own id and do not look at the
path's user. `create` authorizes a hotel that the library builds for the requester, and
then builds another one, for the path's user, and saves that.
-/

namespace FoodFactory

open Store

namespace HotelsController

/-- `hotel_params`: `params.require(:hotel).permit(:Hotel_name)`. -/
abbrev HotelParams := Option (Option String)

/-- `indexObjectMaker`. -/
def indexObjectMaker (db : DB) (user : ℕ × User) : List HotelData :=
  let hotels :=
    if user.2.role = some .client ∨ user.2.role = some .admin then db.hotels.rows
    else db.hotels.select fun h => h.userId == user.1
  hotels.map fun h => ⟨h.1, h.2.hotelName, h.2.userId⟩

/-- `HotelsController#index`. -/
def index (env : Env) (ctx : Ctx) (userId : String) : Action DB Stop Response := do
  authenticateUser env ctx
  let user ← setUser userId
  authorize ctx .index (.cls .hotel)
  Action.read fun db => .ok ⟨.ok, .hotels (indexObjectMaker db user)⟩

/-- `HotelsController#show`. -/
def «show» (env : Env) (ctx : Ctx) (id : String) : Action DB Stop Response := do
  authenticateUser env ctx
  let hotel ← setHotel id
  authorize ctx .show (.record .hotel (some hotel.2.userId))
  pure ⟨.ok, .hotel hotel.1 hotel.2⟩

/-- `HotelsController#create`. -/
def create (env : Env) (ctx : Ctx) (userId : String) (body : Required HotelParams) : Action DB Stop Response := do
  authenticateUser env ctx
  let user ← setUser userId
  let hotelParams ← permitted "hotel" body
  authorizeBuilt ctx .create .hotel
  let r ← raising (Hotel.save hotelParams.join user.1)
  match r with
  | .ok h => pure ⟨.created, .hotel h.1 h.2⟩
  | .error es => pure ⟨.unprocessableEntity, .recordErrors es⟩

/-- `HotelsController#update`. -/
def update (env : Env) (ctx : Ctx) (id : String) (body : Required HotelParams) : Action DB Stop Response := do
  authenticateUser env ctx
  let hotel ← setHotel id
  authorize ctx .update (.record .hotel (some hotel.2.userId))
  let hotelParams ← permitted "hotel" body
  let r ← raising (Hotel.update hotel.1 hotel.2 hotelParams)
  match r with
  | .ok h => pure ⟨.ok, .hotel hotel.1 h⟩
  | .error es => pure ⟨.unprocessableEntity, .recordErrors es⟩

/-- `HotelsController#destroy`. -/
def destroy (env : Env) (ctx : Ctx) (id : String) : Action DB Stop Response := do
  authenticateUser env ctx
  let hotel ← setHotel id
  authorize ctx .destroy (.record .hotel (some hotel.2.userId))
  raising (destroyHotel hotel.1)
  pure ⟨.ok, .message (hotel.2.hotelName ++ " hotel was deleted successfully")⟩

/-! ### What the actions do -/

variable {env : Env} {ctx : Ctx} {userId id : String} {body : Required HotelParams} {db : DB}

/-- What an accepted creation does: a hotel of the user that the path names. -/
structure Creates (env : Env) (ctx : Ctx) (userId : String) (body : Required HotelParams) (db db' : DB) (i : ℕ)
    (h : Hotel) : Prop where
  auth : Authenticated env ctx db
  path : ∃ u, findParam db.users userId = some (i, u)
  can : can (currentUser ctx db) .create (.record .hotel (attributesFor (currentUser ctx db) .create .hotel)) = true
  valid : ∃ p, body = .hash p ∧ Hotel.validate p.join i = .ok h
  state : db' = { db with hotels := db.hotels.insert h }

theorem leaves_create :
    (create env ctx userId body).Leaves db fun db' => ∃ i h, Creates env ctx userId body db db' i h := by
  refine Action.Leaves.congr (filters_authenticateUser.leaves fun _ _ => (filters_setUser userId).leaves fun user _ =>
    (filters_permitted "hotel" body).leaves fun p _ => (filters_authorizeBuilt .create .hotel).leaves fun _ _ =>
      ((Hotel.leaves_save p.join user.1 db).mapError _).bind fun r _ => by cases r <;> rfl) fun db' => ?_
  constructor
  · rintro ⟨-, hauth, ⟨i, u⟩, huser, p, hp, -, hcan, h, hv, -, hdb⟩
    exact ⟨i, h, hauth, ⟨u, huser⟩, hcan, ⟨p, hp, hv⟩, hdb⟩
  · rintro ⟨i, h, hauth, ⟨u, huser⟩, hcan, ⟨p, hp, hv⟩, hdb⟩
    exact ⟨(), hauth, (i, u), huser, p, hp, (), hcan, h, hv, Table.Has.of_find (findParam_find huser), hdb⟩

/-- What an accepted update does: the hotel gets a new name. -/
structure Updates (env : Env) (ctx : Ctx) (id : String) (body : Required HotelParams) (db db' : DB) (i : ℕ)
    (h h' : Hotel) : Prop where
  auth : Authenticated env ctx db
  path : findParam db.hotels id = some (i, h)
  can : can (currentUser ctx db) .update (.record .hotel (some h.userId)) = true
  valid : ∃ p, body = .hash p ∧ Hotel.validate (p.getD (some h.hotelName)) h.userId = .ok h'
  state : db' = { db with hotels := db.hotels.set i h' }

theorem leaves_update :
    (update env ctx id body).Leaves db fun db' => ∃ i h h', Updates env ctx id body db db' i h h' := by
  refine Action.Leaves.congr (filters_authenticateUser.leaves fun _ _ => (filters_setHotel id).leaves fun hotel hh =>
    (filters_authorize .update (.record .hotel (some hotel.2.userId))).leaves fun _ _ =>
      (filters_permitted "hotel" body).leaves fun p _ =>
        ((Hotel.leaves_update p (findParam_find hh)).mapError _).bind fun r _ => by cases r <;> rfl) fun db' => ?_
  constructor
  · rintro ⟨-, hauth, ⟨i, h⟩, hh, -, hcan, p, hp, h', hv, hdb⟩
    exact ⟨i, h, h', hauth, hh, hcan, ⟨p, hp, hv⟩, hdb⟩
  · rintro ⟨i, h, h', hauth, hh, hcan, ⟨p, hp, hv⟩, hdb⟩
    exact ⟨(), hauth, (i, h), hh, (), hcan, p, hp, h', hv, hdb⟩

/-- What an accepted destroy does: the hotel goes, with its menus and their order items. -/
structure Destroys (env : Env) (ctx : Ctx) (id : String) (db db' : DB) (i : ℕ) (h : Hotel) : Prop where
  auth : Authenticated env ctx db
  path : findParam db.hotels id = some (i, h)
  can : can (currentUser ctx db) .destroy (.record .hotel (some h.userId)) = true
  state : db' = db.dropHotels fun j => j == i

theorem leaves_destroy :
    (destroy env ctx id).Leaves db fun db' => ∃ i h, Destroys env ctx id db db' i h := by
  refine Action.Leaves.congr (filters_authenticateUser.leaves fun _ _ => (filters_setHotel id).leaves fun hotel _ =>
    (filters_authorize .destroy (.record .hotel (some hotel.2.userId))).leaves fun _ _ =>
      Action.Leaves.bind (P := (· = db.dropHotels fun j => j == hotel.1)) (Action.Leaves.mapError ?_ _) fun _ _ => rfl)
    fun db' => ?_
  · exact .inl (by rw [destroyHotel_run])
  · constructor
    · rintro ⟨-, hauth, ⟨i, h⟩, hh, -, hcan, hdb⟩
      exact ⟨i, h, hauth, hh, hcan, hdb⟩
    · rintro ⟨i, h, hauth, hh, hcan, hdb⟩
      exact ⟨(), hauth, (i, h), hh, (), hcan, hdb⟩

/-- Listing hotels writes nothing. -/
theorem index_state : ((index env ctx userId).run db).2 = db :=
  (filters_authenticateUser.bind fun _ _ => (filters_setUser userId).bind fun _ _ =>
    (filters_authorize .index (.cls .hotel)).bind fun _ _ => Action.Filters.read fun _ => Iff.rfl).1

/-- Showing a hotel writes nothing. -/
theorem show_state : ((«show» env ctx id).run db).2 = db :=
  (filters_authenticateUser.bind fun _ _ => (filters_setHotel id).bind fun hotel _ =>
    (filters_authorize .show (.record .hotel (some hotel.2.userId))).bind fun _ _ => Action.Filters.pure _ db).1

end HotelsController

end FoodFactory
