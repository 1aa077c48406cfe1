import Mathlib.Order.CompletePartialOrder
import FoodFactory.Store.Announce
import FoodFactory.Property.Interleaving

/-!
# Created rows and the responses that tell of them

A sign-up that succeeds, a hotel and a menu that are created, are answered with the id of the new
row. Each of these rows is inserted by the last step of its request, so that between the
insertion and the response nothing can go wrong.

## What is proved

`announced_interleaved`: at any time of any interleaving, the ids that were given to users, hotels
and menus since the beginning are exactly the ids that responses have announced, each of them
once. No request that is answered with an error, or raises, has created one; no two requests are
answered with the same id; and none of the other tasks creates one.

Orders are not among it: an order is stored some steps before its response, and it stays there
when an item of it is refused.
-/

namespace FoodFactory

open Store Program

/-- The tables whose rows are created by one step. -/
inductive Kind where
  | users
  | hotels
  | menus
  deriving DecidableEq

/-- The ids that were given out, by table. -/
def DB.ids (db : DB) : Kind → Multiset ℕ
  | .users => Multiset.range db.users.next
  | .hotels => Multiset.range db.hotels.next
  | .menus => Multiset.range db.menus.next

/-- The ids that a response announces, by table. -/
def Response.announces : Response → Kind → Multiset ℕ
  | ⟨.created, .hotel i _⟩ => Pi.single .hotels {i}
  | ⟨.created, .menu i _⟩ => Pi.single .menus {i}
  | ⟨_, .signedUp _ _ i _⟩ => Pi.single .users {i}
  | _ => 0

/-- What a task announces, that may have no response. -/
def announces (r : Option Response) : Kind → Multiset ℕ := (r.map Response.announces).getD 0

/-- No id is given out. -/
def Quiet (db db' : DB) : Prop := db'.ids = db.ids

variable {env : Env} {ctx : Ctx} {db : DB}

/-! ### The rows that are created -/

theorem range_next_insert {ρ : Type} (t : Table ρ) (r : ρ) :
    Multiset.range (t.insert r).next = Multiset.range t.next + {t.next} := by
  show Multiset.range (t.next + 1) = _
  rw [Multiset.range_succ, ← Multiset.singleton_add, add_comm]

theorem ids_insertUser (db : DB) (u : User) :
    ({ db with users := db.users.insert u } : DB).ids = db.ids + Pi.single .users {db.users.next} := by
  funext kind
  cases kind with
  | users => exact range_next_insert db.users u
  | hotels => exact (add_zero _).symm
  | menus => exact (add_zero _).symm

theorem ids_insertHotel (db : DB) (h : Hotel) :
    ({ db with hotels := db.hotels.insert h } : DB).ids = db.ids + Pi.single .hotels {db.hotels.next} := by
  funext kind
  cases kind with
  | users => exact (add_zero _).symm
  | hotels => exact range_next_insert db.hotels h
  | menus => exact (add_zero _).symm

theorem ids_insertMenu (db : DB) (m : Menu) :
    ({ db with menus := db.menus.insert m } : DB).ids = db.ids + Pi.single .menus {db.menus.next} := by
  funext kind
  cases kind with
  | users => exact (add_zero _).symm
  | hotels => exact (add_zero _).symm
  | menus => exact range_next_insert db.menus m

/-- The step stores a row and gives its id, or changes nothing. -/
def Saves {ρ : Type} (kind : Kind) (m : Action DB Stop (Except (List ModelError) (ℕ × ρ))) : Prop :=
  ∀ db, (∃ x db', m.run db = (.ok (.ok x), db') ∧ db'.ids = db.ids + Pi.single kind {x.1}) ∨
    (∃ es, m.run db = (.ok (.error es), db)) ∨ ∃ e, m.run db = (.error e, db)

theorem Hotel.saves (name : Option String) (userId : ℕ) : Saves .hotels (raising (Hotel.save name userId)) := by
  intro db
  simp only [raising, Action.run_mapError]
  unfold Hotel.save
  cases Hotel.validate name userId with
  | error es => exact .inr (.inl ⟨es, rfl⟩)
  | ok h =>
    dsimp only
    cases hp : hotelsT.parents db h with
    | true =>
      rw [Action.run_bind_ok (hotelsT.run_insert_ok hp)]
      exact .inl ⟨_, _, rfl, ids_insertHotel db h⟩
    | false =>
      rw [Action.run_bind_error (hotelsT.run_insert_error hp)]
      exact .inr (.inr ⟨_, rfl⟩)

theorem Menu.saves (p : MenuParams) (hotelId : ℕ) : Saves .menus (raising (Menu.save p hotelId)) := by
  intro db
  simp only [raising, Action.run_mapError]
  unfold Menu.save
  cases Menu.validate p.menuName.join hotelId p.description.join (p.price.bind Ruby.Scalar.castInteger) with
  | error es => exact .inr (.inl ⟨es, rfl⟩)
  | ok m =>
    dsimp only
    rcases (filters_checkRange m.price db).run_cases with ⟨_, -, hr⟩ | ⟨-, e, hr⟩
    · rw [Action.run_bind_ok hr]
      cases hp : menusT.parents db m with
      | true =>
        rw [Action.run_bind_ok (menusT.run_insert_ok hp)]
        exact .inl ⟨_, _, rfl, ids_insertMenu db m⟩
      | false =>
        rw [Action.run_bind_error (menusT.run_insert_error hp)]
        exact .inr (.inr ⟨_, rfl⟩)
    · rw [Action.run_bind_error hr]
      exact .inr (.inr ⟨_, rfl⟩)

theorem RegistrationsController.saves (p : SignUpParams) : Saves .users (buildAndSave env p) := by
  intro db
  unfold buildAndSave
  cases castRole (p.role.getD .nil) with
  | error e => exact .inr (.inr ⟨_, rfl⟩)
  | ok role =>
    simp only [Except.mapError]
    rw [Action.run_get_bind (fun _ => role), raising, Action.run_mapError]
    cases hv : User.validateNew env.downcase db p.toUserParams role p.passwordConfirmation.join with
    | error es =>
      rw [User.run_save_error hv]
      exact .inr (.inl ⟨es, rfl⟩)
    | ok u =>
      rw [User.run_save_ok hv]
      exact .inl ⟨_, _, rfl, ids_insertUser db u⟩

/-- A request that ends by storing a row, and tells its id. -/
theorem Saves.announces {ρ : Type} {kind : Kind} {m : Action DB Stop (Except (List ModelError) (ℕ × ρ))}
    (h : Saves kind m) (respond : Except (List ModelError) (ℕ × ρ) → Response)
    {k : Except (List ModelError) (ℕ × ρ) → Program DB Stop Response} (hk : ∀ r, k r = pure (respond r))
    (hok : ∀ x, (respond (.ok x)).announces = Pi.single kind {x.1}) (hno : ∀ es, (respond (.error es)).announces = 0) :
    (lift m >>= k).Announces DB.ids Response.announces := by
  obtain rfl : k = fun r => pure (respond r) := funext hk
  refine fun db => ⟨?_, fun r _ => trivial⟩
  rw [next]
  rcases h db with ⟨x, db', hrun, hids⟩ | ⟨es, hrun⟩ | ⟨e, hrun⟩
  · rw [hrun]
    exact hids.trans (congrArg _ (hok x).symm)
  · rw [hrun]
    exact (add_zero _).symm.trans (congrArg _ (hno es).symm)
  · rw [hrun]
    exact (add_zero _).symm

/-! ### The requests that create them -/

/-- A request that begins with a step that only reads. -/
theorem announces_read {β : Type} {m : Action DB Stop β} {k : β → Program DB Stop Response} (hm : ∀ db, (m.run db).2 = db)
    (hk : ∀ b, (k b).announced Response.announces = 0 ∧ (k b).Announces DB.ids Response.announces) :
    (lift m >>= k).Announces DB.ids Response.announces :=
  .first (fun db => congrArg DB.ids (hm db)) fun _ b _ => hk b

/-- The response to a save: the row with its id, or the errors. -/
def saveResponse {ρ : Type} (body : ℕ → ρ → Body) : Except (List ModelError) (ℕ × ρ) → Response
  | .ok r => ⟨.created, body r.1 r.2⟩
  | .error es => ⟨.unprocessableEntity, .recordErrors es⟩

theorem HotelsController.announces_create (userId : String) (body : Required HotelParams) :
    (createSteps env ctx userId body).Announces DB.ids Response.announces := by
  refine announces_read (fun _ => rfl) fun _ => ⟨rfl, announces_read (fun _ => rfl) fun user => ⟨rfl,
    announces_read (fun _ => (filters_permitted "hotel" body).1) fun p => ⟨rfl,
      announces_read (fun _ => rfl) fun _ => ⟨rfl, (Hotel.saves p.join user.1).announces
        (saveResponse .hotel) ?_ (fun _ => rfl) fun _ => rfl⟩⟩⟩⟩
  intro r
  cases r <;> rfl

theorem MenusController.announces_create (hotelId : String) (body : Required MenuParams) :
    (createSteps env ctx hotelId body).Announces DB.ids Response.announces := by
  refine announces_read (fun _ => rfl) fun _ => ⟨rfl, announces_read (fun _ => rfl) fun hotel => ⟨rfl,
    announces_read (fun _ => (filters_permitted "menu" body).1) fun p => ⟨rfl,
      announces_read (fun _ => rfl) fun _ => ⟨rfl, (Menu.saves p hotel.1).announces
        (saveResponse .menu) ?_ (fun _ => rfl) fun _ => rfl⟩⟩⟩⟩
  intro r
  cases r <;> rfl

theorem RegistrationsController.announces_create (body : Required SignUpParams) :
    (createSteps env body).Announces DB.ids Response.announces := by
  refine announces_read (fun _ => filters_validateRole.1) fun _ => ⟨rfl,
    announces_read (fun _ => (filters_permitted "user" body).1) fun p => ⟨rfl,
      (saves p).announces respondWith (fun _ => rfl) (fun _ => rfl) fun es => ?_⟩⟩
  unfold respondWith
  dsimp only
  split_ifs <;> rfl

/-! ### The others -/

/-- The changes that give out an id. -/
def created : Set Change := {.insertUser, .insertHotel, .insertMenu}

/-- A move by other changes gives out no id. -/
theorem Move.quiet {K : Set Change} {db db' : DB} (hK : Disjoint K created) (hm : Move K db db') : Quiet db db' := by
  have hout (c : Change) (hc : c ∈ K) : c ∉ created := Set.disjoint_left.mp hK hc
  cases hm with
  | insertUser _ _ hk => exact absurd (.inl rfl) (hout _ hk)
  | insertHotel _ _ hk => exact absurd (.inr (.inl rfl)) (hout _ hk)
  | insertMenu _ _ hk => exact absurd (.inr (.inr rfl)) (hout _ hk)
  | _ => rfl

/-- The request creates a hotel or a menu. -/
def Req.Creates : Req → Prop
  | .hotelsCreate .. | .menusCreate .. => True
  | _ => False

theorem Req.disjoint_created (req : Req) (h : ¬ req.Creates) : Disjoint req.changes created := by
  cases req with
  | hotelsCreate userId body => exact absurd trivial h
  | menusCreate userId hotelId body => exact absurd trivial h
  | _ => simp [changes, created]

/-- A request that creates nothing, and announces nothing. -/
theorem Req.announces_quiet (req : Req) (h : ¬ req.Creates)
    (he : (req.steps env ctx).Ends fun r => r.announces = 0) : (req.steps env ctx).Announces DB.ids Response.announces :=
  .of_steps (req.steps_changes.mono fun _ _ => Move.quiet (req.disjoint_created h)) he

theorem UsersController.ends_update (id : String) (body : Required UserParams) :
    (updateSteps env ctx id body).Ends fun r => r.announces = 0 := by
  refine .first fun _ => .first fun user => .first fun loaded => (ends_any (needUser loaded)).bind fun current _ => ?_
  split_ifs
  · refine .first fun p => .first fun r => ?_
    cases r <;> rfl
  · rfl

theorem OrdersController.ends_create (hotelId : String) (order : Required OrderBody) (orderItems : ItemsBody) :
    (createSteps env ctx hotelId order orderItems).Ends fun r => r.announces = 0 := by
  refine .first fun _ => .first fun hotel => .first fun params => .first fun loaded => .first fun items =>
    (ends_any (needUser loaded)).bind fun current _ =>
      (ends_any (CreateOrderService.callSteps current.1 hotel.1 params items)).bind fun r _ => ?_
  cases r <;> rfl

theorem OrdersController.ends_destroy (userId id : String) :
    (destroySteps env ctx userId id).Ends fun r => r.announces = 0 := by
  refine .first fun _ => .first fun order => .first fun user => .first fun _ => .first fun owner => ?_
  split_ifs
  · exact .first fun _ => rfl
  · rfl

/-- A response that is rendered from what is there. -/
theorem ends_read {f : DB → Except Stop Response} (h : ∀ db r, f db = .ok r → r.announces = 0) :
    (lift (Action.read f)).Ends fun r => r.announces = 0 := .lift h

/-- A request announces what it creates. -/
theorem Req.announces_steps (req : Req) : (req.steps env ctx).Announces DB.ids Response.announces := by
  cases req with
  | usersIndex =>
    refine announces_quiet _ not_false (.first fun _ => .first fun loaded =>
      (ends_any (needUser loaded)).bind fun _ _ => ends_read fun db r hr => ?_)
    split_ifs at hr <;> (cases hr; rfl)
  | usersShow id =>
    exact announces_quiet _ not_false (.first fun _ => .first fun _ => .first fun _ => rfl)
  | usersUpdate id body => exact announces_quiet _ not_false (UsersController.ends_update id body)
  | hotelsIndex userId =>
    refine announces_quiet _ not_false (.first fun _ => .first fun _ => .first fun _ =>
      ends_read fun db r hr => ?_)
    cases hr
    rfl
  | hotelsShow userId id =>
    exact announces_quiet _ not_false (.first fun _ => .first fun _ => .first fun _ => rfl)
  | hotelsCreate userId body => exact HotelsController.announces_create userId body
  | hotelsUpdate userId id body =>
    refine announces_quiet _ not_false (.first fun _ => .first fun _ => .first fun _ =>
      .first fun _ => .first fun r => ?_)
    cases r <;> rfl
  | hotelsDestroy userId id =>
    exact announces_quiet _ not_false (.first fun _ => .first fun _ => .first fun _ => .first fun _ => rfl)
  | menusIndex userId hotelId =>
    refine announces_quiet _ not_false (.first fun _ => .first fun _ => .first fun _ => .first fun _ =>
      ends_read fun db r hr => ?_)
    cases hr
    rfl
  | menusShow userId hotelId id =>
    exact announces_quiet _ not_false (.first fun _ => .first fun _ => .first fun _ => rfl)
  | menusCreate userId hotelId body => exact MenusController.announces_create hotelId body
  | menusUpdate userId hotelId id body =>
    refine announces_quiet _ not_false (.first fun _ => .first fun _ => .first fun _ =>
      .first fun _ => .first fun r => ?_)
    cases r <;> rfl
  | menusDestroy userId hotelId id =>
    exact announces_quiet _ not_false (.first fun _ => .first fun _ => .first fun _ => .first fun _ => rfl)
  | ordersIndex userId hotelId =>
    refine announces_quiet _ not_false (.first fun _ => .first fun _ => .first fun _ => .first fun _ =>
      ends_read fun db r hr => ?_)
    cases hr
    rfl
  | ordersShow userId hotelId id =>
    exact announces_quiet _ not_false (.first fun _ => .first fun _ => .first fun _ => rfl)
  | ordersCreate userId hotelId order orderItems =>
    exact announces_quiet _ not_false
      (OrdersController.ends_create hotelId order orderItems)
  | ordersDestroy userId hotelId id =>
    exact announces_quiet _ not_false (OrdersController.ends_destroy userId id)
  | orderItemsIndex userId hotelId orderId =>
    refine announces_quiet _ not_false (.first fun _ => ends_read fun db r hr => ?_)
    cases hr
    rfl
  | undefinedAction => trivial

theorem SessionsController.announces_destroy (now : ℕ) (authorization : Option String) :
    (destroySteps env now authorization).Announces DB.ids Response.announces := by
  refine .of_steps ((steps_destroy now authorization).mono fun _ _ => Move.quiet (by simp [created])) ?_
  unfold destroySteps
  split_ifs
  · refine .first fun decoded => ?_
    cases decoded with
    | none => rfl
    | some p => exact .first fun _ => rfl
  · rfl

/-- A task announces what it creates, and nothing before its first step. -/
theorem Task.announces_program (t : Task) :
    (t.program env).Announces DB.ids announces ∧ (t.program env).announced announces = 0 := by
  cases t with
  | request ctx req =>
    have hreq : (req.steps env ctx).Announces DB.ids Response.announces := req.announces_steps
    obtain ⟨h, hstart⟩ := hreq.map announces some fun _ => rfl
    refine ⟨h, hstart.trans ?_⟩
    cases req <;> rfl
  | signUp body =>
    exact (RegistrationsController.announces_create body).map announces some fun _ => rfl
  | logout now authorization =>
    have hlogout : (SessionsController.destroySteps env now authorization).Announces DB.ids Response.announces :=
      SessionsController.announces_destroy now authorization
    obtain ⟨h, hstart⟩ := hlogout.map announces some fun _ => rfl
    refine ⟨h, hstart.trans ?_⟩
    unfold SessionsController.destroySteps
    split_ifs <;> rfl
  | clearExpired now => exact ⟨.first (fun _ => rfl) fun _ _ hb => ⟨by cases hb; rfl, trivial⟩, rfl⟩
  | destroyUser id =>
    have hquiet : Disjoint (Task.destroyUser id).changes created := by simp [changes, created]
    exact ⟨.of_steps ((Task.destroyUser id).steps_program.mono fun _ _ => Move.quiet hquiet) (.first fun _ => rfl), rfl⟩

variable {ι : Type} [DecidableEq ι] [Fintype ι]

/-- **Created rows are announced, and announced rows created**: in every interleaving, the ids that users, hotels and
menus have got are those that they had, and those that responses have announced. -/
theorem announced_interleaved (env : Env) (db : DB) (task : ι → Task) (ks : List ι) :
    ((serve env db task).run ks).shared.ids = db.ids + ((serve env db task).run ks).announced announces :=
  Pool.run_announced (fun k => (task k).announces_program.1) (fun k => (task k).announces_program.2) ks

end FoodFactory
