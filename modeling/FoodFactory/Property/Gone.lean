import FoodFactory.Property.Untouched

/-!
# Rows that are gone, and requests that are sent again

A client that has seen no answer sends a request again, and does not know what happened in between.

## What is proved

* `gone_interleaved`: once a row has been destroyed, every request that begins later and whose
  filters load that row is refused and does nothing, whatever else happens. So a destroy can be
  sent again at any time: the id is never given to another row.
* `repeated_requests`: an update or a destroy of a hotel, a menu or an order that has taken effect does
  nothing more when it is repeated at once, any number of times and by anyone. Only the requests that create
  something do more, and the update of a user, which must give a password: its digest is made with a new salt.
-/

namespace FoodFactory

open Store Ruby Program

variable {env : Env} {ctx : Ctx} {db db' : DB}

/-! ### Rows that are gone -/

/-- The id of the row was given, and the row is not there. -/
def Row.Gone (db : DB) : Row → Prop
  | .user i => i < db.users.next ∧ db.users.find i = none
  | .hotel i => i < db.hotels.next ∧ db.hotels.find i = none
  | .menu i => i < db.menus.next ∧ db.menus.find i = none
  | .order i => i < db.orders.next ∧ db.orders.find i = none
  | .orderItem i => i < db.orderItems.next ∧ db.orderItems.find i = none

theorem gone_of_later {ρ κ : Type} {f : ρ → κ} {t t' : Table ρ} (h : t.Later f t') {i : ℕ}
    (hi : i < t.next ∧ t.find i = none) : i < t'.next ∧ t'.find i = none :=
  ⟨lt_of_lt_of_le hi.1 h.next_le, h.find_eq_none hi.1 hi.2⟩

/-- What is gone stays gone. -/
theorem Row.Gone.later {r : Row} (h : r.Gone db) (hlater : db.Later db') : r.Gone db' := by
  cases r with
  | user i => exact gone_of_later hlater.users h
  | hotel i => exact gone_of_later hlater.hotels h
  | menu i => exact gone_of_later hlater.menus h
  | order i => exact gone_of_later hlater.orders h
  | orderItem i => exact gone_of_later hlater.orderItems h

/-- The rows that the filters of a request load. -/
def Req.loads : Req → Set Row
  | .usersShow id | .usersUpdate id _ => {.user (named id)}
  | .hotelsIndex userId | .hotelsCreate userId _ => {.user (named userId)}
  | .hotelsShow _ id | .hotelsUpdate _ id _ | .hotelsDestroy _ id => {.hotel (named id)}
  | .menusIndex userId hotelId | .ordersIndex userId hotelId => {.user (named userId), .hotel (named hotelId)}
  | .menusCreate _ hotelId _ | .ordersCreate _ hotelId _ _ => {.hotel (named hotelId)}
  | .menusShow _ _ id | .menusUpdate _ _ id _ | .menusDestroy _ _ id => {.menu (named id)}
  | .ordersShow _ _ id => {.order (named id)}
  | .ordersDestroy userId _ id => {.user (named userId), .order (named id)}
  | .usersIndex | .orderItemsIndex _ _ _ | .undefinedAction => ∅

section Loading

variable {α : Type} {param : String} {f : ℕ × User → Program DB Stop α} {g : ℕ × Hotel → Program DB Stop α}

/-- A filter does not find a row that is gone. -/
theorem not_findParam {ρ : Type} {t : Table ρ} (h : named param < t.next ∧ t.find (named param) = none)
    {r : ℕ × ρ} (hr : findParam t param = some r) : False := by
  have hfind := findParam_find (r := r.2) hr
  rw [← named_of_findParam hr, h.2] at hfind
  cases hfind

/-- Every request looks at its token first. -/
theorem refused_authenticate {J : DB → Prop} {f : Unit → Program DB Stop α} (h : (f ()).Refused J) :
    (lift (authenticateUser env ctx) >>= f).Refused J :=
  .filter (fun _ => filters_authenticateUser) fun _ _ _ _ => h

theorem refused_setUser : (lift (setUser param) >>= f).Refused (Row.user (named param)).Gone :=
  .filter (fun _ => filters_setUser param) fun _ _ hs h => (not_findParam hs h).elim

theorem refused_setHotel : (lift (setHotel param) >>= g).Refused (Row.hotel (named param)).Gone :=
  .filter (fun _ => filters_setHotel param) fun _ _ hs h => (not_findParam hs h).elim

theorem refused_setMenu {f : ℕ × Menu → Program DB Stop α} :
    (lift (setMenu param) >>= f).Refused (Row.menu (named param)).Gone :=
  .filter (fun _ => filters_setMenu param) fun _ _ hs h => (not_findParam hs h).elim

theorem refused_setOrder {f : ℕ × Order → Program DB Stop α} :
    (lift (setOrder param) >>= f).Refused (Row.order (named param)).Gone :=
  .filter (fun _ => filters_setOrder param) fun _ _ hs h => (not_findParam hs h).elim

end Loading

/-- A request is refused while a row is gone that its filters load. -/
theorem Req.refused_of_gone (req : Req) {r : Row} (hr : r ∈ req.loads) : (req.steps env ctx).Refused r.Gone := by
  cases req with
  | usersIndex => cases hr
  | usersShow id =>
    cases hr
    exact refused_authenticate refused_setUser
  | usersUpdate id body =>
    cases hr
    exact refused_authenticate refused_setUser
  | hotelsIndex userId =>
    cases hr
    exact refused_authenticate refused_setUser
  | hotelsShow userId id =>
    cases hr
    exact refused_authenticate refused_setHotel
  | hotelsCreate userId body =>
    cases hr
    exact refused_authenticate refused_setUser
  | hotelsUpdate userId id body =>
    cases hr
    exact refused_authenticate refused_setHotel
  | hotelsDestroy userId id =>
    cases hr
    exact refused_authenticate refused_setHotel
  | menusIndex userId hotelId =>
    rcases hr with rfl | rfl
    · exact refused_authenticate (.filter (fun _ => filters_setHotel hotelId) fun _ _ _ _ => refused_setUser)
    · exact refused_authenticate refused_setHotel
  | menusShow userId hotelId id =>
    cases hr
    exact refused_authenticate refused_setMenu
  | menusCreate userId hotelId body =>
    cases hr
    exact refused_authenticate refused_setHotel
  | menusUpdate userId hotelId id body =>
    cases hr
    exact refused_authenticate refused_setMenu
  | menusDestroy userId hotelId id =>
    cases hr
    exact refused_authenticate refused_setMenu
  | ordersIndex userId hotelId =>
    rcases hr with rfl | rfl
    · exact refused_authenticate refused_setUser
    · exact refused_authenticate (.filter (fun _ => filters_setUser userId) fun _ _ _ _ => refused_setHotel)
  | ordersShow userId hotelId id =>
    cases hr
    exact refused_authenticate refused_setOrder
  | ordersCreate userId hotelId order orderItems =>
    cases hr
    exact refused_authenticate refused_setHotel
  | ordersDestroy userId hotelId id =>
    rcases hr with rfl | rfl
    · exact refused_authenticate (.filter (fun _ => filters_setOrder id) fun _ _ _ _ => refused_setUser)
    · exact refused_authenticate refused_setOrder
  | orderItemsIndex userId hotelId orderId => cases hr
  | undefinedAction => cases hr

variable {ι : Type} [DecidableEq ι]

/-- **What is gone is gone for good**: in every interleaving, when a row is gone and a request has not begun whose filters
load that row, then no turn of that request does anything, and it does not end with success. -/
theorem gone_interleaved (env : Env) (db : DB) (task : ι → Task) {ks : List ι} {r : Row}
    (hgone : r.Gone ((serve env db task).run ks).shared) {k : ι} {req : Req} (hk : task k = .request ctx req)
    (hnew : k ∉ ks) (hr : r ∈ req.loads) (ks' : List ι) :
    ((serve env db task).run (ks ++ ks' ++ [k])).shared = ((serve env db task).run (ks ++ ks')).shared ∧
      ∀ response, (((serve env db task).run (ks ++ ks')).thread k).result ≠ some (.ok response) := by
  have hthread : ((serve env db task).run ks).thread k = (task k).program env :=
    Pool.thread_run_of_notMem (serve env db task) hnew
  have hrefused : (((serve env db task).run ks).thread k).Refused r.Gone := by
    rw [hthread, hk]
    exact (req.refused_of_gone hr).bind _
  have hstays (ks₁ : List ι) : r.Gone (((serve env db task).run ks).run ks₁).shared := by
    rw [← Pool.run_append]
    exact hgone.later (Pool.run_rel DB.Later.refl (fun _ _ _ => DB.Later.trans) (fun _ _ => Move.later)
      (steps_serve env db task) ks ks₁)
  rw [List.append_assoc, Pool.run_append, Pool.run_append _ ks ks']
  exact Pool.run_refused hrefused hstays ks'

/-- A client deletes an order, and deletes it again. -/
def destroyTwice (_ : Bool) : Task := .request (sampleCtx 1) (.ordersDestroy "1" "1" "1")

/-- The second time nothing happens. -/
theorem gone_interleaved_order :
    ((serve Plain.env DB.ordered destroyTwice).run (List.replicate 6 true ++ [false] ++ [false])).shared =
      ((serve Plain.env DB.ordered destroyTwice).run (List.replicate 6 true ++ [false])).shared := by
  have hgone : (Row.order (named "1")).Gone ((serve Plain.env DB.ordered destroyTwice).run (List.replicate 6 true)).shared :=
    ⟨by decide +kernel, by decide +kernel⟩
  exact (gone_interleaved Plain.env DB.ordered destroyTwice hgone (k := false) rfl (by decide) (.inr rfl) [false]).1

/-! ### Requests that are repeated at once -/

/-- The request writes something new each time: it adds rows, or it makes a digest of a password. -/
def Req.WritesAnew : Req → Prop
  | .hotelsCreate .. | .menusCreate .. | .ordersCreate .. | .usersUpdate .. => True
  | _ => False

/-- The same values, given to a hotel that has them, leave it as it is. -/
theorem Hotel.validate_again {p : Option (Option String)} {h h' h'' : Hotel}
    (hfirst : Hotel.validate (p.getD (some h.hotelName)) h.userId = .ok h')
    (hagain : Hotel.validate (p.getD (some h'.hotelName)) h'.userId = .ok h'') : h'' = h' := by
  obtain ⟨-, rfl⟩ := validated_eq_ok.mp hfirst
  obtain ⟨-, rfl⟩ := validated_eq_ok.mp hagain
  cases p <;> rfl

theorem Menu.validateUpdate_again {p : MenuParams} {m m' m'' : Menu} (hfirst : Menu.validateUpdate m p = .ok m')
    (hagain : Menu.validateUpdate m' p = .ok m'') : m'' = m' := by
  obtain ⟨-, rfl⟩ := validated_eq_ok.mp hfirst
  obtain ⟨-, rfl⟩ := validated_eq_ok.mp hagain
  obtain ⟨name, description, price⟩ := p
  cases name <;> cases description <;> cases price <;> rfl

section Again

variable {ctx' : Ctx} {db'' : DB} {userId id : String} {i j : ℕ}

/-- The row that the same path names later, if it names one. -/
theorem find_again {ρ : Type} {t t' : Table ρ} {r r' : ρ} (h : findParam t id = some (i, r))
    (h' : findParam t' id = some (j, r')) : j = i ∧ t'.find i = some r' := by
  obtain rfl : j = i := (named_of_findParam h').symm.trans (named_of_findParam h)
  exact ⟨rfl, findParam_find h'⟩

theorem HotelsController.Updates.again {body : Required HotelParams} {x x' y y' : Hotel}
    (h : Updates env ctx id body db db' i x x') (h' : Updates env ctx' id body db' db'' j y y') : db'' = db' := by
  obtain ⟨rfl, hfind⟩ := find_again h.path h'.path
  have hstored : db'.hotels.find j = some x' := by
    rw [h.state]
    exact Table.find_set_self (findParam_find h.path) x'
  obtain rfl : x' = y := Option.some.inj (hstored.symm.trans hfind)
  obtain ⟨p, rfl, hv⟩ := h.valid
  obtain ⟨_, hp, hv'⟩ := h'.valid
  cases hp
  obtain rfl := Hotel.validate_again hv hv'
  rw [h'.state, Table.set_of_find hstored]

theorem MenusController.Updates.again {body : Required MenuParams} {x x' y y' : Menu}
    (h : Updates env ctx id body db db' i x x') (h' : Updates env ctx' id body db' db'' j y y') : db'' = db' := by
  obtain ⟨rfl, hfind⟩ := find_again h.path h'.path
  have hstored : db'.menus.find j = some x' := by
    rw [h.state]
    exact Table.find_set_self (findParam_find h.path) x'
  obtain rfl : x' = y := Option.some.inj (hstored.symm.trans hfind)
  obtain ⟨p, rfl, hv, -⟩ := h.valid
  obtain ⟨_, hp, hv', -⟩ := h'.valid
  cases hp
  obtain rfl := Menu.validateUpdate_again hv hv'
  rw [h'.state, Table.set_of_find hstored]

/-- A row that was filtered out is not found. -/
theorem not_find_dropped {ρ : Type} {t : Table ρ} {r : ρ} (h : (t.filter fun k _ => !(k == i)).find i = some r) : False := by
  have := (Table.find_filter_eq_some.mp h).2
  simp at this

theorem HotelsController.Destroys.not_again {x y : Hotel} (h : Destroys env ctx id db db' i x)
    (h' : Destroys env ctx' id db' db'' j y) : False := by
  have hfind := (find_again h.path h'.path).2
  rw [h.state] at hfind
  exact not_find_dropped hfind

theorem MenusController.Destroys.not_again {x y : Menu} (h : Destroys env ctx id db db' i x)
    (h' : Destroys env ctx' id db' db'' j y) : False := by
  have hfind := (find_again h.path h'.path).2
  rw [h.state] at hfind
  exact not_find_dropped hfind

theorem OrdersController.Destroys.not_again {x y : Order} (h : Destroys env ctx userId id db db' i x)
    (h' : Destroys env ctx' userId id db' db'' j y) : False := by
  have hfind := (find_again h.path h'.path).2
  rw [h.state] at hfind
  exact not_find_dropped hfind

/-- **A request that has taken effect, and writes nothing new each time, has no further effect.** -/
theorem Effect.again {req : Req} (hreq : ¬ req.WritesAnew) (hfirst : Effect env ctx db req db') (hne : db' ≠ db)
    (hagain : Effect env ctx' db' req db'') : db'' = db' := by
  cases hfirst with
  | nothing => exact absurd rfl hne
  | updateUser _ => exact absurd trivial hreq
  | createHotel _ => exact absurd trivial hreq
  | updateHotel h =>
    cases hagain with
    | nothing => rfl
    | updateHotel h' => exact h.again h'
  | destroyHotel h =>
    cases hagain with
    | nothing => rfl
    | destroyHotel h' => exact (h.not_again h').elim
  | createMenu _ => exact absurd trivial hreq
  | updateMenu h =>
    cases hagain with
    | nothing => rfl
    | updateMenu h' => exact h.again h'
  | destroyMenu h =>
    cases hagain with
    | nothing => rfl
    | destroyMenu h' => exact (h.not_again h').elim
  | createOrder _ => exact absurd trivial hreq
  | destroyOrder h =>
    cases hagain with
    | nothing => rfl
    | destroyOrder h' => exact (h.not_again h').elim

end Again

/-- **Repeating a request does nothing more**, any number of times and by anyone, if it writes nothing new each
time. -/
theorem repeated_requests (env : Env) (db : DB) (ctx : Ctx) {req : Req} (hreq : ¬ req.WritesAnew)
    (heffect : after env ctx req db ≠ db) (ctxs : List Ctx) :
    ctxs.foldl (fun db ctx' => after env ctx' req db) (after env ctx req db) = after env ctx req db := by
  induction ctxs with
  | nil => rfl
  | cons ctx' ctxs ih =>
    rw [List.foldl_cons, (handle_effect env ctx req db).again hreq heffect (handle_effect env ctx' req _)]
    exact ih

/-- The owner changes the name and the price of the menu. -/
def changeMenu : Req := .menusUpdate "2" "1" "1" (.hash ⟨some (some "New"), none, some (.int 150)⟩)

/-- The request is repeated, by the owner and by another user. -/
theorem repeated_requests_rename :
    (after Plain.env (sampleCtx 2) changeMenu DB.ordered).menus.find 1 = some ⟨"New", 1, none, 150⟩ ∧
      [sampleCtx 2, sampleCtx 1, sampleCtx 2].foldl (fun db ctx => after Plain.env ctx changeMenu db)
        (after Plain.env (sampleCtx 2) changeMenu DB.ordered) = after Plain.env (sampleCtx 2) changeMenu DB.ordered := by
  have hanew : ¬ changeMenu.WritesAnew := not_false
  have hmenu : (after Plain.env (sampleCtx 2) changeMenu DB.ordered).menus.find 1 = some ⟨"New", 1, none, 150⟩ := by
    decide +kernel
  refine ⟨hmenu, repeated_requests Plain.env DB.ordered (sampleCtx 2) hanew (fun h => ?_) _⟩
  rw [h] at hmenu
  exact absurd hmenu (by decide)

end FoodFactory
