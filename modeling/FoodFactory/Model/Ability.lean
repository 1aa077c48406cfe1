import FoodFactory.Model.Schema

/-!
# Abilities

`app/models/ability.rb`, and what the authorization library does with it. An
ability is a list of `can` rules; a request for an action on a subject, which is
a class or a record, is permitted when some rule is relevant: `:manage` covers
every action and `:read` covers `index` and `show`, `:all` covers every class, and
a condition compares an attribute of a record (a class meets every condition).
-/

namespace FoodFactory

/-- The controller actions that the library authorizes. -/
inductive Verb where
  | index
  | show
  | create
  | update
  | destroy
  deriving DecidableEq

/-- The actions a rule can name. -/
inductive Permission where
  | manage
  | read
  deriving DecidableEq

/-- The action is covered by what the rule names. -/
def Permission.covers : Permission → Verb → Bool
  | .manage, _ => true
  | .read, .index => true
  | .read, .show => true
  | .read, _ => false

/-- The classes a rule can name. -/
inductive Model where
  | user
  | hotel
  | menu
  | order
  | orderItem
  deriving DecidableEq

/-- What a request is about: a class, or a record with its `user_id` where it has one. -/
inductive Subject where
  | cls (m : Model)
  | record (m : Model) (userId : Option ℕ)
  deriving DecidableEq

/-- The class of a subject. -/
def Subject.model : Subject → Model
  | .cls m => m
  | .record m _ => m

/-- `can permission, model, user_id: userId`; no model is `:all`. -/
structure Rule where
  permission : Permission
  model : Option Model
  userId : Option ℕ := none
  deriving DecidableEq

/-- The rule permits the action on the subject. -/
def Rule.relevant (r : Rule) (v : Verb) (s : Subject) : Bool :=
  r.permission.covers v && (r.model == none || r.model == some s.model) &&
    match r.userId, s with
    | none, _ => true
    | some _, .cls _ => true
    | some i, .record _ j => some i == j

/-- `Ability#initialize`. -/
def ability : Option (ℕ × User) → List Rule
  | none => []
  | some (i, u) =>
      match u.role with
      | some .admin => [⟨.manage, none, none⟩]
      | some .hotelOwner =>
          [⟨.manage, some .menu, none⟩, ⟨.manage, some .hotel, some i⟩, ⟨.read, some .order, none⟩,
            ⟨.read, some .orderItem, none⟩, ⟨.manage, some .user, none⟩]
      | some .client =>
          [⟨.manage, some .order, none⟩, ⟨.read, some .hotel, none⟩, ⟨.read, some .menu, none⟩,
            ⟨.read, some .orderItem, none⟩, ⟨.manage, some .user, none⟩]
      | none => [⟨.read, none, none⟩]

/-- `can?`. -/
def can (u : Option (ℕ × User)) (v : Verb) (s : Subject) : Bool := (ability u).any fun r => r.relevant v s

/-! ### What each role may do -/

@[simp] theorem can_none (v : Verb) (s : Subject) : can none v s = false := rfl

theorem can_admin {i : ℕ} {u : User} (h : u.role = some .admin) (v : Verb) (s : Subject) :
    can (some (i, u)) v s = true := by
  simp [can, ability, h, Rule.relevant, Permission.covers]

/-- A hotel owner writes hotels of their own. -/
theorem can_hotel_of_hotelOwner {i : ℕ} {u : User} (h : u.role = some .hotelOwner) (v : Verb) (j : Option ℕ) :
    can (some (i, u)) v (.record .hotel j) = (some i == j) := by
  simp only [can, ability, h]
  cases v <;> cases hj : (some i == j) <;> simp [Rule.relevant, Permission.covers, Subject.model, hj]

/-- A hotel owner only reads orders. -/
theorem can_order_of_hotelOwner {i : ℕ} {u : User} (h : u.role = some .hotelOwner) (v : Verb) (j : Option ℕ) :
    can (some (i, u)) v (.record .order j) = Permission.read.covers v := by
  simp only [can, ability, h]
  cases v <;> rfl

/-- A hotel owner writes every menu. -/
theorem can_menu_of_hotelOwner {i : ℕ} {u : User} (h : u.role = some .hotelOwner) (v : Verb) (j : Option ℕ) :
    can (some (i, u)) v (.record .menu j) = true := by
  simp only [can, ability, h]
  cases v <;> rfl

/-- A client writes every order. -/
theorem can_order_of_client {i : ℕ} {u : User} (h : u.role = some .client) (v : Verb) (j : Option ℕ) :
    can (some (i, u)) v (.record .order j) = true := by
  simp only [can, ability, h]
  cases v <;> rfl

/-- A client only reads hotels. -/
theorem can_hotel_of_client {i : ℕ} {u : User} (h : u.role = some .client) (v : Verb) (j : Option ℕ) :
    can (some (i, u)) v (.record .hotel j) = Permission.read.covers v := by
  simp only [can, ability, h]
  cases v <;> rfl

/-- A client only reads menus. -/
theorem can_menu_of_client {i : ℕ} {u : User} (h : u.role = some .client) (v : Verb) (j : Option ℕ) :
    can (some (i, u)) v (.record .menu j) = Permission.read.covers v := by
  simp only [can, ability, h]
  cases v <;> rfl

/-- A user without a role only reads. -/
theorem can_of_no_role {i : ℕ} {u : User} (h : u.role = none) (v : Verb) (s : Subject) :
    can (some (i, u)) v s = Permission.read.covers v := by
  simp only [can, ability, h]
  cases v <;> rfl

end FoodFactory
