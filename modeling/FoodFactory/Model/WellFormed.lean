import FoodFactory.Model.Records

/-!
# Well-formed rows

What the validations of `app/models`, the casts of Active Record and the limits of the columns
promise of a row that is stored. A new row is well formed when its record is valid
(`User.wellFormed_of_validateNew`, `Hotel.wellFormed_of_validate` and so on). An update of a
user is judged column by column (`User.validateUpdate_columns`), as an update writes the
columns that it changes, and the address is checked only where it is one of them.
-/

namespace FoodFactory

open Store Ruby

/-- A user has a name, a role, an address and a password of 6 to 128 characters. -/
structure User.WellFormed (u : User) : Prop where
  name : blank u.name = false
  role : u.role.isSome = true
  email : emailRegexp u.email = true
  password : blank u.password = false ∧ 6 ≤ u.password.length ∧ u.password.length ≤ 128

/-- A hotel has a name. -/
def Hotel.WellFormed (h : Hotel) : Prop := blank h.hotelName = false

/-- A menu has a name, and a price that fits its column. -/
structure Menu.WellFormed (m : Menu) : Prop where
  name : blank m.menuName = false
  price : inRange m.price = true

/-- An order has a status, and a total that is not negative and fits its column. -/
structure Order.WellFormed (o : Order) : Prop where
  status : blank o.status = false
  total : 0 ≤ o.totalPrice ∧ inRange o.totalPrice = true

/-- The quantity of an item is the numeral of an integer, and its price fits its column. -/
structure OrderItem.WellFormed (x : OrderItem) : Prop where
  quantity : ∃ n : ℤ, x.quantity = toString n
  price : inRange x.price = true

/-- A revoked token has an identifier. -/
def JwtBlacklist.WellFormed (r : JwtBlacklist) : Prop := blank r.jti = false

/-- Every row of every table is well formed. -/
structure DB.WellFormed (db : DB) : Prop where
  users : db.users.All User.WellFormed
  hotels : db.hotels.All Hotel.WellFormed
  menus : db.menus.All Menu.WellFormed
  orders : db.orders.All Order.WellFormed
  orderItems : db.orderItems.All OrderItem.WellFormed
  jwtBlacklists : db.jwtBlacklists.All JwtBlacklist.WellFormed

theorem DB.WellFormed.empty : DB.empty.WellFormed :=
  ⟨Table.All.empty, Table.All.empty, Table.All.empty, Table.All.empty, Table.All.empty, Table.All.empty⟩

/-! ### Validations -/

theorem blank_of_present {x : Option String} (h : present x = true) : blank (x.getD "") = false := by
  cases x with
  | none => cases h
  | some s => simpa [present] using h

/-- An address without errors is there, and where it has changed it is nobody else's and has the form of one. -/
theorem emailErrors_nil {db : DB} {self : Option ℕ} {email : Option String} {changed : Bool}
    (h : emailErrors db self email changed = []) :
    present email = true ∧ (changed = true → emailTaken db self (email.getD "") = false ∧
      emailRegexp (email.getD "") = true) := by
  rw [emailErrors, List.append_eq_nil_iff, presence_eq_nil] at h
  refine ⟨h.1, fun hc => ?_⟩
  have hchecks := h.2
  rw [h.1, hc, Bool.and_self, if_pos rfl, List.append_eq_nil_iff] at hchecks
  constructor
  · by_contra htaken
    simp [htaken] at hchecks
  · by_contra hform
    simp [hform] at hchecks

/-- A password without errors, where there is one, has its length. -/
theorem passwordErrors_nil {isRequired : Bool} {password confirmation : Option String}
    (h : passwordErrors isRequired password confirmation = []) (hp : present password = true) :
    6 ≤ (password.getD "").length ∧ (password.getD "").length ≤ 128 := by
  rw [passwordErrors, List.append_eq_nil_iff] at h
  have hlength := h.2
  rw [if_pos hp, List.append_eq_nil_iff] at hlength
  constructor
  · by_contra hshort
    simp [Nat.lt_of_not_le hshort] at hlength
  · by_contra hlong
    simp [Nat.lt_of_not_le hlong] at hlength

theorem userPresence_nil {name : Option String} {role : Option Role} {email password : Option String}
    (h : userPresence name role email password = []) :
    present name = true ∧ role.isSome = true ∧ present password = true := by
  simp only [userPresence, List.append_eq_nil_iff, presence_eq_nil] at h
  exact ⟨h.1.1.1, h.1.1.2, h.2⟩

/-- **A valid new user is well formed**, with an address that nobody has. -/
theorem User.wellFormed_of_validateNew {downcase : String → String} {db : DB} {p : UserParams} {role : Option Role}
    {confirmation : Option String} {u : User} (h : User.validateNew downcase db p role confirmation = .ok u) :
    u.WellFormed ∧ emailTaken db none u.email = false := by
  obtain ⟨herrors, rfl⟩ := validated_eq_ok.mp h
  simp only [List.append_eq_nil_iff] at herrors
  obtain ⟨⟨hemail, hpassword⟩, hpresence⟩ := herrors
  obtain ⟨hname, hrole, hgiven⟩ := userPresence_nil hpresence
  obtain ⟨hpresent, hchecks⟩ := emailErrors_nil hemail
  -- what is present is not the empty string, which the column has by default
  have hnew : ((p.email.getD (some "")).map (normalizeEmail downcase) != some "") = true := by
    rw [bne_iff_ne]
    intro he
    rw [he] at hpresent
    exact absurd hpresent (by decide)
  obtain ⟨htaken, hform⟩ := hchecks hnew
  exact ⟨⟨blank_of_present hname, hrole, hform, blank_of_present hgiven, passwordErrors_nil hpassword hgiven⟩, htaken⟩

/-- The columns of a valid update of a user: the name, the role and the password are good whatever they were, and the
address is where it has changed. -/
structure User.GoodColumns (db : DB) (i : ℕ) (old new : User) : Prop where
  name : blank new.name = false
  role : new.role.isSome = true
  email : new.email ≠ old.email → emailRegexp new.email = true ∧ emailTaken db (some i) new.email = false
  password : blank new.password = false ∧ 6 ≤ new.password.length ∧ new.password.length ≤ 128

theorem User.validateUpdate_columns {downcase : String → String} {db : DB} {i : ℕ} {u u' : User} {p : UserParams}
    {role : Option Role} (h : User.validateUpdate downcase db i u p role = .ok u') : User.GoodColumns db i u u' := by
  obtain ⟨herrors, rfl⟩ := validated_eq_ok.mp h
  simp only [List.append_eq_nil_iff] at herrors
  obtain ⟨⟨hemail, hpassword⟩, hpresence⟩ := herrors
  obtain ⟨hname, hrole, hgiven⟩ := userPresence_nil hpresence
  refine ⟨blank_of_present hname, hrole, fun hne => ?_, blank_of_present hgiven, passwordErrors_nil hpassword hgiven⟩
  refine ((emailErrors_nil hemail).2 ?_).symm
  rw [bne_iff_ne]
  intro he
  exact hne (by rw [he, Option.getD_some])

/-- **A valid hotel is well formed.** -/
theorem Hotel.wellFormed_of_validate {name : Option String} {i : ℕ} {h : Hotel} (hv : Hotel.validate name i = .ok h) :
    h.WellFormed := by
  obtain ⟨hname, rfl⟩ := validated_eq_ok.mp hv
  exact blank_of_present (presence_eq_nil.mp hname)

/-- **A valid menu is well formed**, when its price fits. -/
theorem Menu.wellFormed_of_validate {name description : Option String} {i : ℕ} {price : Option ℤ} {m : Menu}
    (hv : Menu.validate name i description price = .ok m) (hr : inRange m.price = true) : m.WellFormed := by
  obtain ⟨herrors, rfl⟩ := validated_eq_ok.mp hv
  rw [List.append_eq_nil_iff] at herrors
  exact ⟨blank_of_present (presence_eq_nil.mp herrors.1), hr⟩

/-- Truncating a number that is not negative does not make it negative. -/
theorem floatToI_nonneg {x : Binary64} {n : ℤ} (h : x.nonneg = true) (hn : floatToI x = some n) : 0 ≤ n := by
  cases x with
  | finite q hq =>
    cases hn
    exact Int.tdiv_nonneg (Rat.num_nonneg.mpr (of_decide_eq_true h)) (Int.natCast_nonneg _)
  | infinity negative => cases hn

/-- **An order that is accepted is well formed.** -/
theorem Order.wellFormed_of_accepted {db : DB} {userId hotelId : ℕ} {p : OrderParams} {o : Order}
    (h : Order.accepted db userId hotelId p = some o) : o.WellFormed := by
  obtain ⟨hv, hr, -⟩ := Order.accepted_eq_some.mp h
  obtain ⟨hstatus, htotal, -, n, hn, rfl⟩ := Order.validate_eq_ok.mp hv
  exact ⟨blank_of_present hstatus, floatToI_nonneg htotal hn, hr⟩

/-- **The row of an item that is accepted is well formed.** -/
theorem ItemParams.wellFormed_row {db : DB} {p : ItemParams} (h : OrderItem.acceptable db p = true) (i : ℕ) :
    (p.row i).WellFormed :=
  ⟨⟨p.quantity, rfl⟩, (OrderItem.of_acceptable h i).2.2.1⟩

end FoodFactory
