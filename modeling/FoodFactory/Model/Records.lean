import FoodFactory.Model.Schema

/-!
# The records

The models of `app/models`: what each validates, and how it is saved. A
`validate` function gives the row to be written or the errors, in the order in
which the model declares its validations; `save` is `record.save` of a new
record, `update` is `record.update`, and `create` is `create!`, which raises where
`save` returns `false`.

A record built through its parent's association (`@user.hotels.build`) has that
parent, so the parent's presence is not in question; `belongs_to` is checked for
the other parents. An update that leaves a foreign key alone does not check it
again (`belongs_to_required_validates_foreign_key` is off in the 7.1 defaults).

In the parameters, `none` is an absent key and `some none` is `nil`. A value for
a string column is given as the string the column would hold.
-/

namespace FoodFactory

open Store Ruby

/-- The row, or the errors when there are some. -/
def validated {ρ : Type} (errors : List ModelError) (row : ρ) : Except (List ModelError) ρ :=
  if errors.isEmpty then .ok row else .error errors

/-- `validates a, presence: true`. -/
def presence (a : Attr) (ok : Bool) : List ModelError := if ok then [] else [⟨a, .blank⟩]

/-- `belongs_to a`. -/
def required (a : Attr) (ok : Bool) : List ModelError := if ok then [] else [⟨a, .required⟩]

/-- `value.present?`. -/
def present : Option String → Bool
  | none => false
  | some s => !blank s

@[simp] theorem validated_eq_ok {ρ : Type} {es : List ModelError} {r r' : ρ} :
    validated es r = .ok r' ↔ es = [] ∧ r = r' := by
  unfold validated
  cases es <;> simp

@[simp] theorem presence_eq_nil {a : Attr} {b : Bool} : presence a b = [] ↔ b = true := by
  unfold presence
  cases b <;> simp

@[simp] theorem required_eq_nil {a : Attr} {b : Bool} : required a b = [] ↔ b = true := by
  unfold required
  cases b <;> simp

/-! ### Users -/

/-- What a request may set of a user: `:name, :email, :password, :role`. -/
structure UserParams where
  name : Option (Option String) := none
  email : Option (Option String) := none
  password : Option (Option String) := none
  role : Option Scalar := none
  deriving DecidableEq

/-- Assigning to an enum attribute: its keys and its values are accepted, a blank
value is `nil`, and anything else raises. -/
def castRole : Scalar → Except Exn (Option Role)
  | .nil => .ok none
  | .str s =>
      match Role.ofKey? s with
      | some r => .ok (some r)
      | none => if blank s then .ok none else .error .argumentError
  | .int n =>
      match Role.ofValue? n with
      | some r => .ok (some r)
      | none => .error .argumentError
  | .flt x =>
      match x.toRat?.bind Role.ofValue? with
      | some r => .ok (some r)
      | none => .error .argumentError
  | .bool b => if b then .error .argumentError else .ok none

/-- `config.email_regexp`: `/\A[^@\s]+@[^@\s]+\z/`. -/
def emailRegexp (s : String) : Bool :=
  let cs := s.toList
  cs.all (fun c => !asciiSpace c) && cs.count '@' == 1 && cs.head? != some '@' && cs.getLast? != some '@'

/-- `case_insensitive_keys` and `strip_whitespace_keys`, before validation. -/
def normalizeEmail (downcase : String → String) (email : String) : String := strip (downcase email)

/-- The email is used by a user other than `self`. -/
def emailTaken (db : DB) (self : Option ℕ) (email : String) : Bool :=
  db.users.rows.any fun u => u.2.email == email && some u.1 != self

/-- The validations of Devise's `validatable` on the email, which may have changed. -/
def emailErrors (db : DB) (self : Option ℕ) (email : Option String) (changed : Bool) : List ModelError :=
  presence .email (present email) ++
    (if present email && changed then
      (if emailTaken db self (email.getD "") then [⟨.email, .taken⟩] else []) ++
        (if emailRegexp (email.getD "") then [] else [⟨.email, .invalid⟩])
    else [])

/-- The validations of Devise's `validatable` on the password, where one is required. -/
def passwordErrors (isRequired : Bool) (password confirmation : Option String) : List ModelError :=
  (if isRequired then
    presence .password (present password) ++
      (if confirmation.isSome && confirmation != password then [⟨.passwordConfirmation, .confirmation⟩] else [])
  else []) ++
    (if present password then
      (if (password.getD "").length < 6 then [⟨.password, .tooShort⟩] else []) ++
        (if 128 < (password.getD "").length then [⟨.password, .tooLong⟩] else [])
    else [])

/-- `validates :name, :role, :email, :password, presence: true`. -/
def userPresence (name : Option String) (role : Option Role) (email password : Option String) : List ModelError :=
  presence .name (present name) ++ presence .role role.isSome ++ presence .email (present email) ++
    presence .password (present password)

/-- A new user. The column `email` defaults to the empty string. -/
def User.validateNew (downcase : String → String) (db : DB) (p : UserParams) (role : Option Role)
    (confirmation : Option String) : Except (List ModelError) User :=
  let email := (p.email.getD (some "")).map (normalizeEmail downcase)
  let password := p.password.join
  validated
    (emailErrors db none email (email != some "") ++ passwordErrors true password confirmation ++
      userPresence p.name.join role email password)
    ⟨p.name.join.getD "", role, email.getD "", password.getD ""⟩

/-- `User#save` of a new user. -/
def User.save (downcase : String → String) (p : UserParams) (role : Option Role) (confirmation : Option String) :
    Action DB Exn (Except (List ModelError) (ℕ × User)) := do
  let v ← Action.read fun db => .ok (User.validateNew downcase db p role confirmation)
  match v with
  | .error es => pure (.error es)
  | .ok u => do
    let i ← usersT.insert u
    pure (.ok (i, u))

/-- A user with new values. The password is not kept in the record, so one has to
be given for the record to be valid. -/
def User.validateUpdate (downcase : String → String) (db : DB) (i : ℕ) (u : User) (p : UserParams)
    (role : Option Role) : Except (List ModelError) User :=
  let name := p.name.getD (some u.name)
  let email := (p.email.getD (some u.email)).map (normalizeEmail downcase)
  let password := p.password.join
  validated
    (emailErrors db (some i) email (email != some u.email) ++ passwordErrors password.isSome password none ++
      userPresence name role email password)
    ⟨name.getD "", role, email.getD "", password.getD ""⟩

/-- `@user.update(params)`. -/
def User.update (downcase : String → String) (i : ℕ) (u : User) (p : UserParams) :
    Action DB Exn (Except (List ModelError) User) := do
  let role ← Action.read fun _ =>
    match p.role with
    | none => .ok u.role
    | some r => castRole r
  let v ← Action.read fun db => .ok (User.validateUpdate downcase db i u p role)
  match v with
  | .error es => pure (.error es)
  | .ok u' => do
    usersT.update i u'
    pure (.ok u')

/-- The role a user gets by an update. -/
def UserParams.roleFor (p : UserParams) (u : User) : Except Exn (Option Role) :=
  match p.role with
  | none => .ok u.role
  | some r => castRole r

theorem User.validateNew_role {downcase : String → String} {db : DB} {p : UserParams} {role : Option Role}
    {confirmation : Option String} {u : User} (h : User.validateNew downcase db p role confirmation = .ok u) :
    u.role = role := by
  obtain ⟨-, rfl⟩ := validated_eq_ok.mp h
  rfl

theorem User.validateUpdate_role {downcase : String → String} {db : DB} {i : ℕ} {u u' : User} {p : UserParams}
    {role : Option Role} (h : User.validateUpdate downcase db i u p role = .ok u') : u'.role = role := by
  obtain ⟨-, rfl⟩ := validated_eq_ok.mp h
  rfl

/-- Saving a valid user. -/
theorem User.run_save_ok {downcase : String → String} {db : DB} {p : UserParams} {role : Option Role}
    {confirmation : Option String} {u : User} (h : User.validateNew downcase db p role confirmation = .ok u) :
    (User.save downcase p role confirmation).run db =
      (.ok (.ok (db.users.next, u)), { db with users := db.users.insert u }) := by
  rw [User.save, Action.run_get_bind, h]
  rfl

/-- Saving an invalid user. -/
theorem User.run_save_error {downcase : String → String} {db : DB} {p : UserParams} {role : Option Role}
    {confirmation : Option String} {es : List ModelError}
    (h : User.validateNew downcase db p role confirmation = .error es) :
    (User.save downcase p role confirmation).run db = (.ok (.error es), db) := by
  rw [User.save, Action.run_get_bind, h]
  rfl

theorem User.leaves_save (downcase : String → String) (p : UserParams) (role : Option Role)
    (confirmation : Option String) (db : DB) :
    (User.save downcase p role confirmation).Leaves db fun db' =>
      ∃ u, User.validateNew downcase db p role confirmation = .ok u ∧ db' = { db with users := db.users.insert u } := by
  refine (Action.Filters.leaves (Q := fun v (db' : DB) => ∃ u, v = .ok u ∧ db' = { db with users := db.users.insert u })
    (Action.Filters.read fun a => by rw [Except.ok.injEq]) fun v _ => ?_).congr fun db' => by simp
  cases v with
  | error es => exact (Action.Filters.pure _ db).leaves_nothing.congr (by simp)
  | ok u => exact ((usersT.leaves_insert u db).bind fun _ _ => rfl).congr (by simp [usersT])

theorem User.leaves_update (downcase : String → String) {i : ℕ} {u : User} (p : UserParams) {db : DB}
    (hu : db.users.find i = some u) :
    (User.update downcase i u p).Leaves db fun db' =>
      ∃ role u', p.roleFor u = .ok role ∧ User.validateUpdate downcase db i u p role = .ok u' ∧
        db' = { db with users := db.users.set i u' } := by
  refine (Action.Filters.leaves (P := fun role => p.roleFor u = .ok role)
    (Q := fun role (db' : DB) => ∃ u', User.validateUpdate downcase db i u p role = .ok u' ∧
      db' = { db with users := db.users.set i u' })
    (Action.Filters.read fun _ => Iff.rfl) fun role _ => ?_).congr fun db' => by simp
  refine (Action.Filters.leaves (Q := fun v (db' : DB) => ∃ u', v = .ok u' ∧ db' = { db with users := db.users.set i u' })
    (Action.Filters.read fun a => by rw [Except.ok.injEq]) fun v _ => ?_).congr fun db' => by simp
  cases v with
  | error es => exact (Action.Filters.pure _ db).leaves_nothing.congr (by simp)
  | ok u' => exact ((usersT.leaves_update (r := u') hu rfl).bind fun _ _ => rfl).congr (by simp [usersT])

/-! ### Hotels -/

/-- `validates :Hotel_name, :user_id, presence: true`; the user is the one it was built for. -/
def Hotel.validate (hotelName : Option String) (userId : ℕ) : Except (List ModelError) Hotel :=
  validated (presence .hotelName (present hotelName)) ⟨hotelName.getD "", userId⟩

/-- `@user.hotels.build(params).save`. -/
def Hotel.save (hotelName : Option String) (userId : ℕ) : Action DB Exn (Except (List ModelError) (ℕ × Hotel)) :=
  match Hotel.validate hotelName userId with
  | .error es => pure (.error es)
  | .ok h => do
    let i ← hotelsT.insert h
    pure (.ok (i, h))

/-- `@hotel.update(params)`. -/
def Hotel.update (i : ℕ) (h : Hotel) (hotelName : Option (Option String)) :
    Action DB Exn (Except (List ModelError) Hotel) :=
  match Hotel.validate (hotelName.getD (some h.hotelName)) h.userId with
  | .error es => pure (.error es)
  | .ok h' => do
    hotelsT.update i h'
    pure (.ok h')

theorem Hotel.validate_userId {name : Option String} {i : ℕ} {h : Hotel} (hv : Hotel.validate name i = .ok h) :
    h.userId = i := by
  obtain ⟨-, rfl⟩ := validated_eq_ok.mp hv
  rfl

theorem Hotel.leaves_save (hotelName : Option String) (userId : ℕ) (db : DB) :
    (Hotel.save hotelName userId).Leaves db fun db' =>
      ∃ h, Hotel.validate hotelName userId = .ok h ∧ db.users.Has userId ∧
        db' = { db with hotels := db.hotels.insert h } := by
  unfold Hotel.save
  cases hv : Hotel.validate hotelName userId with
  | error es => exact (Action.Filters.pure _ db).leaves_nothing.congr (by simp)
  | ok h =>
    refine ((hotelsT.leaves_insert h db).bind fun _ _ => rfl).congr fun db' => ?_
    simp [hotelsT, Hotel.validate_userId hv]

theorem Hotel.leaves_update {i : ℕ} {h : Hotel} (hotelName : Option (Option String)) {db : DB}
    (hh : db.hotels.find i = some h) :
    (Hotel.update i h hotelName).Leaves db fun db' =>
      ∃ h', Hotel.validate (hotelName.getD (some h.hotelName)) h.userId = .ok h' ∧
        db' = { db with hotels := db.hotels.set i h' } := by
  unfold Hotel.update
  cases hv : Hotel.validate (hotelName.getD (some h.hotelName)) h.userId with
  | error es => exact (Action.Filters.pure _ db).leaves_nothing.congr (by simp)
  | ok h' =>
    have hk : hotelsT.keys h' = hotelsT.keys h := by simp [hotelsT, Hotel.validate_userId hv]
    exact ((hotelsT.leaves_update hh hk).bind fun _ _ => rfl).congr (by simp [hotelsT])

/-! ### Menus -/

/-- What a request may set of a menu: `:menu_name, :description, :price`. -/
structure MenuParams where
  menuName : Option (Option String) := none
  description : Option (Option String) := none
  price : Option Scalar := none
  deriving DecidableEq

/-- `validates :menu_name, :hotel_id, :price, presence: true`; the hotel is the one it
was built for. -/
def Menu.validate (menuName : Option String) (hotelId : ℕ) (description : Option String) (price : Option ℤ) :
    Except (List ModelError) Menu :=
  validated (presence .menuName (present menuName) ++ presence .price price.isSome)
    ⟨menuName.getD "", hotelId, description, price.getD 0⟩

/-- `@hotel.menus.build(params).save`. -/
def Menu.save (p : MenuParams) (hotelId : ℕ) : Action DB Exn (Except (List ModelError) (ℕ × Menu)) :=
  match Menu.validate p.menuName.join hotelId p.description.join (p.price.bind Scalar.castInteger) with
  | .error es => pure (.error es)
  | .ok m => do
    checkRange m.price
    let i ← menusT.insert m
    pure (.ok (i, m))

/-- The menu with new values. -/
def Menu.validateUpdate (m : Menu) (p : MenuParams) : Except (List ModelError) Menu :=
  Menu.validate (p.menuName.getD (some m.menuName)) m.hotelId (p.description.getD m.description)
    (match p.price with
      | none => some m.price
      | some x => x.castInteger)

/-- `@menu.update(params)`. -/
def Menu.update (i : ℕ) (m : Menu) (p : MenuParams) : Action DB Exn (Except (List ModelError) Menu) :=
  match Menu.validateUpdate m p with
  | .error es => pure (.error es)
  | .ok m' => do
    checkRange m'.price
    menusT.update i m'
    pure (.ok m')

/-- The menu that new values make, for a hotel. -/
def MenuParams.validateNew (p : MenuParams) (hotelId : ℕ) : Except (List ModelError) Menu :=
  Menu.validate p.menuName.join hotelId p.description.join (p.price.bind Scalar.castInteger)

theorem Menu.validate_hotelId {name description : Option String} {i : ℕ} {price : Option ℤ} {m : Menu}
    (hv : Menu.validate name i description price = .ok m) : m.hotelId = i := by
  obtain ⟨-, rfl⟩ := validated_eq_ok.mp hv
  rfl

theorem Menu.leaves_save (p : MenuParams) (hotelId : ℕ) (db : DB) :
    (Menu.save p hotelId).Leaves db fun db' =>
      ∃ m, p.validateNew hotelId = .ok m ∧ inRange m.price = true ∧ db.hotels.Has hotelId ∧
        db' = { db with menus := db.menus.insert m } := by
  unfold Menu.save MenuParams.validateNew
  cases hv : Menu.validate p.menuName.join hotelId p.description.join (p.price.bind Scalar.castInteger) with
  | error es => exact (Action.Filters.pure _ db).leaves_nothing.congr (by simp)
  | ok m =>
    refine ((filters_checkRange m.price db).leaves fun _ _ =>
      (menusT.leaves_insert m db).bind fun _ _ => rfl).congr fun db' => ?_
    simp [menusT, Menu.validate_hotelId hv]

theorem Menu.leaves_update {i : ℕ} {m : Menu} (p : MenuParams) {db : DB} (hm : db.menus.find i = some m) :
    (Menu.update i m p).Leaves db fun db' =>
      ∃ m', Menu.validateUpdate m p = .ok m' ∧ inRange m'.price = true ∧
        db' = { db with menus := db.menus.set i m' } := by
  unfold Menu.update
  cases hv : Menu.validateUpdate m p with
  | error es => exact (Action.Filters.pure _ db).leaves_nothing.congr (by simp)
  | ok m' =>
    have hk : menusT.keys m' = menusT.keys m := by simp [menusT, Menu.validate_hotelId hv]
    refine ((filters_checkRange m'.price db).leaves fun _ _ =>
      (menusT.leaves_update hm hk).bind fun _ _ => rfl).congr fun db' => ?_
    simp [menusT]

/-! ### Orders -/

/-- What the service is given for the order itself. -/
structure OrderParams where
  totalPrice : Binary64
  status : Option String
  deriving DecidableEq

/-- What the service is given for one item. -/
structure ItemParams where
  menuId : ℤ
  quantity : ℤ
  price : Binary64
  deriving DecidableEq

/-- A float fits its integer column: truncated, it is in range. -/
def fits (x : Binary64) : Bool := (floatToI x).any inRange

theorem fits_iff {x : Binary64} : fits x = true ↔ ∃ n, floatToI x = some n ∧ inRange n = true := by
  simp [fits, Option.any_eq_true]

/-- `validates :user_id, :hotel_id, :status, presence: true`, `total_price` present and at
least `0`, and `belongs_to :hotel`; the user is the one it was built for. The total is
compared as it was given, and present as the integer column keeps it. -/
def Order.validate (db : DB) (userId hotelId : ℕ) (p : OrderParams) : Except (List ModelError) Order :=
  validated
    (presence .status (present p.status) ++ presence .totalPrice (floatToI p.totalPrice).isSome ++
      (if p.totalPrice.nonneg then [] else [⟨.totalPrice, .greaterThanOrEqualToZero⟩]) ++
        required .hotel (decide (db.hotels.Has hotelId)))
    ⟨userId, hotelId, (floatToI p.totalPrice).getD 0, p.status.getD ""⟩

/-- `@user.orders.new(params).save`. -/
def Order.save (userId hotelId : ℕ) (p : OrderParams) :
    Action DB Exn (Except (List ModelError) (ℕ × Order)) := do
  let v ← Action.read fun db => .ok (Order.validate db userId hotelId p)
  match v with
  | .error es => pure (.error es)
  | .ok o => do
    checkRange o.totalPrice
    let i ← ordersT.insert o
    pure (.ok (i, o))

/-- The order that is written for a user at a hotel, if one is: it is valid, its total fits the column, and
the user is there. -/
def Order.accepted (db : DB) (userId hotelId : ℕ) (p : OrderParams) : Option Order :=
  match Order.validate db userId hotelId p with
  | .error _ => none
  | .ok o => if inRange o.totalPrice = true ∧ db.users.Has userId then some o else none

theorem Order.accepted_eq_some {db : DB} {userId hotelId : ℕ} {p : OrderParams} {o : Order} :
    Order.accepted db userId hotelId p = some o ↔
      Order.validate db userId hotelId p = .ok o ∧ inRange o.totalPrice = true ∧ db.users.Has userId := by
  unfold Order.accepted
  cases hv : Order.validate db userId hotelId p with
  | error es => simp
  | ok o' =>
    simp only [Option.ite_none_right_eq_some, Option.some.injEq, Except.ok.injEq]
    constructor
    · rintro ⟨⟨hr, hu⟩, rfl⟩
      exact ⟨rfl, hr, hu⟩
    · rintro ⟨rfl, hr, hu⟩
      exact ⟨⟨hr, hu⟩, rfl⟩

theorem Order.validate_eq_ok {db : DB} {userId hotelId : ℕ} {p : OrderParams} {o : Order} :
    Order.validate db userId hotelId p = .ok o ↔ present p.status = true ∧ p.totalPrice.nonneg = true ∧
      db.hotels.Has hotelId ∧ ∃ n, floatToI p.totalPrice = some n ∧ o = ⟨userId, hotelId, n, p.status.getD ""⟩ := by
  simp only [Order.validate, validated_eq_ok, List.append_eq_nil_iff, presence_eq_nil, required_eq_nil,
    decide_eq_true_eq, Option.isSome_iff_exists, ite_eq_left_iff, List.cons_ne_nil, imp_false, not_not]
  constructor
  · rintro ⟨⟨⟨⟨hs, n, hn⟩, ht⟩, hh⟩, rfl⟩
    exact ⟨hs, ht, hh, n, hn, by rw [hn, Option.getD_some]⟩
  · rintro ⟨hs, ht, hh, n, hn, rfl⟩
    exact ⟨⟨⟨⟨hs, n, hn⟩, ht⟩, hh⟩, by rw [hn, Option.getD_some]⟩

/-- A row of `menus` under an integer that a request gave. -/
def menuExists (db : DB) (menuId : ℤ) : Bool := decide (0 ≤ menuId) && decide (db.menus.Has menuId.toNat)

/-- The row for an item. The quantity is kept as a decimal string and the price truncated. -/
def ItemParams.row (p : ItemParams) (orderId : ℕ) : OrderItem :=
  ⟨orderId, p.menuId.toNat, toString p.quantity, (floatToI p.price).getD 0⟩

/-- `validates :order_id, :menu_id, :quantity, :price, presence: true` and `belongs_to :menu`;
the order is the one it was built for. -/
def OrderItem.validate (db : DB) (orderId : ℕ) (p : ItemParams) : Except (List ModelError) OrderItem :=
  validated (presence .price (floatToI p.price).isSome ++ required .menu (menuExists db p.menuId)) (p.row orderId)

/-- `order.order_items.create!(params)`. -/
def OrderItem.create (orderId : ℕ) (p : ItemParams) : Action DB Exn Unit := do
  let x ← Action.read fun db =>
    match OrderItem.validate db orderId p with
    | .error es => .error (.recordInvalid es)
    | .ok x => .ok x
  checkRange x.price
  let _ ← orderItemsT.insert x
  pure ()

/-- What `create!` takes: the menu is there, and the price fits the column. -/
def OrderItem.acceptable (db : DB) (p : ItemParams) : Bool := menuExists db p.menuId && fits p.price

/-- Saving an order that is accepted. -/
theorem Order.run_save_ok {db : DB} {userId hotelId : ℕ} {p : OrderParams} {o : Order}
    (h : Order.accepted db userId hotelId p = some o) :
    (Order.save userId hotelId p).run db =
      (.ok (.ok (db.orders.next, o)), { db with orders := db.orders.insert o }) := by
  obtain ⟨hv, hr, hu⟩ := Order.accepted_eq_some.mp h
  have hp : ordersT.parents db o = true := by
    obtain ⟨-, -, -, n, -, rfl⟩ := Order.validate_eq_ok.mp hv
    exact decide_eq_true hu
  unfold Order.save
  rw [Action.run_get_bind, hv]
  dsimp only
  have hrange : (checkRange o.totalPrice).run db = (.ok (), db) := by
    rw [checkRange, Action.run_read, if_pos hr]
  rw [Action.run_bind_ok hrange, Action.run_bind_ok (ordersT.run_insert_ok hp)]
  rfl

/-- Saving an order that is not accepted: it has errors, or saving raises. -/
theorem Order.run_save_refused {db : DB} {userId hotelId : ℕ} {p : OrderParams}
    (h : Order.accepted db userId hotelId p = none) :
    (∃ es, (Order.save userId hotelId p).run db = (.ok (.error es), db)) ∨
      ∃ e, (Order.save userId hotelId p).run db = (.error e, db) := by
  unfold Order.save
  rw [Action.run_get_bind]
  cases hv : Order.validate db userId hotelId p with
  | error es => exact .inl ⟨es, rfl⟩
  | ok o =>
    right
    rcases (filters_checkRange o.totalPrice db).run_cases with ⟨_, hr, hrun⟩ | ⟨_, e, hrun⟩
    · refine ⟨.invalidForeignKey, ?_⟩
      have hu : ¬ db.users.Has userId := fun hu => by
        rw [Order.accepted_eq_some.mpr ⟨hv, hr, hu⟩] at h
        cases h
      have hp : ordersT.parents db o = false := by
        obtain ⟨-, -, -, n, -, rfl⟩ := Order.validate_eq_ok.mp hv
        exact decide_eq_false hu
      dsimp only
      rw [Action.run_bind_ok hrun, Action.run_bind_error (ordersT.run_insert_error hp)]
      rfl
    · exact ⟨e, Action.run_bind_error hrun⟩

theorem menuExists_iff {db : DB} {n : ℤ} : menuExists db n = true ↔ 0 ≤ n ∧ db.menus.Has n.toNat := by
  simp [menuExists]

/-- An item that is acceptable is valid, and its price fits. -/
theorem OrderItem.of_acceptable {db : DB} {p : ItemParams} (h : OrderItem.acceptable db p = true) (i : ℕ) :
    menuExists db p.menuId = true ∧ floatToI p.price = some (p.row i).price ∧ inRange (p.row i).price = true ∧
      OrderItem.validate db i p = .ok (p.row i) := by
  obtain ⟨hmenu, hfits⟩ := Bool.and_eq_true_iff.mp h
  obtain ⟨n, hn, hr⟩ := fits_iff.mp hfits
  have hprice : (p.row i).price = n := by rw [ItemParams.row, hn, Option.getD_some]
  exact ⟨hmenu, hprice ▸ hn, hprice ▸ hr, by simp [OrderItem.validate, hmenu, hn]⟩

/-- Creating an item that is acceptable, for an order that is there. -/
theorem OrderItem.run_create_ok {db : DB} {i : ℕ} {p : ItemParams} (hi : db.orders.Has i)
    (h : OrderItem.acceptable db p = true) :
    (OrderItem.create i p).run db = (.ok (), { db with orderItems := db.orderItems.insert (p.row i) }) := by
  obtain ⟨hmenu, -, hr, hv⟩ := OrderItem.of_acceptable h i
  have hp : orderItemsT.parents db (p.row i) = true := by
    simp only [orderItemsT, ItemParams.row, Bool.and_eq_true, decide_eq_true_eq]
    exact ⟨hi, (menuExists_iff.mp hmenu).2⟩
  have hrange : (checkRange (p.row i).price).run db = (.ok (), db) := by
    rw [checkRange, Action.run_read, if_pos hr]
  unfold OrderItem.create
  rw [Action.run_read_bind (a := p.row i) (by rw [hv]), Action.run_bind_ok hrange,
    Action.run_bind_ok (orderItemsT.run_insert_ok hp)]
  rfl

/-- Creating an item that is not acceptable raises, without effect. -/
theorem OrderItem.run_create_refused {db : DB} {i : ℕ} {p : ItemParams} (h : OrderItem.acceptable db p = false) :
    ∃ e, (OrderItem.create i p).run db = (.error e, db) := by
  unfold OrderItem.create
  cases hv : OrderItem.validate db i p with
  | error es => exact ⟨_, Action.run_bind_error (by rw [Action.run_read, hv])⟩
  | ok x =>
    -- a valid item has a menu and a finite price, which is out of range
    obtain ⟨herrors, rfl⟩ := validated_eq_ok.mp hv
    obtain ⟨hprice, hmenu⟩ := List.append_eq_nil_iff.mp herrors
    obtain ⟨n, hn⟩ := Option.isSome_iff_exists.mp (presence_eq_nil.mp hprice)
    have hr : inRange n = false := by
      simpa [OrderItem.acceptable, required_eq_nil.mp hmenu, fits, hn] using h
    have hrange : (checkRange (p.row i).price).run db = (.error .rangeError, db) := by
      rw [checkRange, Action.run_read, if_neg (by simp [ItemParams.row, hn, hr])]
    exact ⟨_, by rw [Action.run_read_bind (a := p.row i) (by rw [hv]), Action.run_bind_error hrange]⟩

/-- Creating an item for an order that is gone raises: the foreign key stops the insertion. -/
theorem OrderItem.run_create_gone {db : DB} {i : ℕ} {p : ItemParams} (hi : ¬ db.orders.Has i)
    (h : OrderItem.acceptable db p = true) : ∃ e, (OrderItem.create i p).run db = (.error e, db) := by
  obtain ⟨-, -, hr, hv⟩ := OrderItem.of_acceptable h i
  have hp : orderItemsT.parents db (p.row i) = false := by
    show (decide (db.orders.Has i) && _) = false
    rw [decide_eq_false hi, Bool.false_and]
  have hrange : (checkRange (p.row i).price).run db = (.ok (), db) := by
    rw [checkRange, Action.run_read, if_pos hr]
  unfold OrderItem.create
  exact ⟨_, by rw [Action.run_read_bind (a := p.row i) (by rw [hv]), Action.run_bind_ok hrange,
    Action.run_bind_error (orderItemsT.run_insert_error hp)]⟩

/-! ### Revoked tokens -/

/-- `JwtBlacklist.create!(jti:, exp:)`: the identifier is present and not yet in the table. -/
def JwtBlacklist.create (jti : Option String) (exp : ℕ) : Action DB Exn Unit := fun db =>
  let errors := presence .jti (present jti) ++
    (if db.jwtBlacklists.rows.any fun r => some r.2.jti == jti then [⟨.jti, .taken⟩] else [])
  if errors.isEmpty then
    (.ok (), { db with jwtBlacklists := db.jwtBlacklists.insert ⟨jti.getD "", exp⟩ })
  else (.error (.recordInvalid errors), db)

theorem JwtBlacklist.run_create_ok {db : DB} {j : String} (hb : blank j = false)
    (hnew : (db.jwtBlacklists.rows.any fun r => some r.2.jti == some j) = false) (exp : ℕ) :
    (JwtBlacklist.create (some j) exp).run db =
      (.ok (), { db with jwtBlacklists := db.jwtBlacklists.insert ⟨j, exp⟩ }) := by
  simp only [Action.run, JwtBlacklist.create, hnew, presence, present, hb, Bool.not_false, if_true]
  rfl

end FoodFactory
