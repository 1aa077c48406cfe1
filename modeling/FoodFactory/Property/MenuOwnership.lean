import FoodFactory.Controller.Router

/-!
# Who writes menus

The ability of a hotel owner manages hotels under a condition, `user_id: user.id`, and menus
under none. `update` and `destroy` find the menu by its own id, `create` builds it for the
hotel that the path names, and nothing asks whose hotel that is.

## What is proved

* `writesOnlyOwnMenus_iff`: what a hotel owner's request inserts, changes or deletes is of a
  hotel of theirs exactly when what the path names is (`OwnsTarget`).
* `owner_writes_menus_of_other`: a hotel owner adds a menu to the hotel of another, changes
  a menu of it, and deletes the menu, with an order item of a client.
-/

namespace FoodFactory

open Store

/-- The requests that write menus. -/
inductive MenuWrite where
  | create (userId hotelId : String) (body : Required MenuParams)
  | update (userId hotelId id : String) (body : Required MenuParams)
  | destroy (userId hotelId id : String)

/-- The request itself. -/
def MenuWrite.req : MenuWrite → Req
  | .create userId hotelId body => .menusCreate userId hotelId body
  | .update userId hotelId id body => .menusUpdate userId hotelId id body
  | .destroy userId hotelId id => .menusDestroy userId hotelId id

/-- Every row of `menus` that differs between `db` and `db'`, before and after, is of a hotel of user `k`, and so is
the menu of every order item that is not left as it was. -/
structure OnlyMenusOf (k : ℕ) (db db' : DB) : Prop where
  before : ∀ i m, db.menus.find i = some m → db'.menus.find i ≠ some m → db.hotelOf k m.hotelId = true
  after : ∀ i m, db'.menus.find i = some m → db.menus.find i ≠ some m → db.hotelOf k m.hotelId = true
  items : ∀ i x, db.orderItems.find i = some x → db'.orderItems.find i ≠ some x →
    ∃ m, db.menus.find x.menuId = some m ∧ db.hotelOf k m.hotelId = true

/-- What a hotel owner's request writes is of a hotel of theirs. -/
def WritesOnlyOwnMenus (env : Env) (ctx : Ctx) (db : DB) (w : MenuWrite) : Prop :=
  ∀ k u, currentUser ctx db = some (k, u) → u.role = some .hotelOwner → OnlyMenusOf k db (after env ctx w.req db)

/-- The hotel for which the request would add a valid menu, or of which it would change or delete a menu, belongs to
user `k`. -/
def OwnsTarget (db : DB) (k : ℕ) : MenuWrite → Prop
  | .create _ hotelId body => ∀ h x p m, findParam db.hotels hotelId = some (h, x) → body = .hash p →
      p.validateNew h = .ok m → inRange m.price = true → x.userId = k
  | .update _ _ id body => ∀ i m p m', findParam db.menus id = some (i, m) → body = .hash p →
      Menu.validateUpdate m p = .ok m' → inRange m'.price = true → m' ≠ m → db.hotelOf k m.hotelId = true
  | .destroy _ _ id => ∀ i m, findParam db.menus id = some (i, m) → db.hotelOf k m.hotelId = true

variable {env : Env} {ctx : Ctx} {db db' : DB} {k : ℕ} {u : User}

theorem OnlyMenusOf.refl (k : ℕ) (db : DB) : OnlyMenusOf k db db :=
  ⟨fun _ _ h h' => absurd h h', fun _ _ h h' => absurd h h', fun _ _ h h' => absurd h h'⟩

/-- Adding a menu. -/
theorem onlyMenusOf_insert {m : Menu} :
    OnlyMenusOf k db { db with menus := db.menus.insert m } ↔ db.hotelOf k m.hotelId = true := by
  constructor
  · intro h
    refine h.after db.menus.next m (Table.find_insert_next ..) ?_
    simp [Table.find_next]
  · intro h
    refine ⟨fun i x hx hne => ?_, fun i x hx hne => ?_, fun _ _ h h' => absurd h h'⟩
    · exact absurd (Table.find_insert_of_find hx m) hne
    · rcases Table.find_insert_eq_some.mp hx with ⟨-, rfl⟩ | hx
      · exact h
      · exact absurd hx hne

/-- Changing a menu, which stays with its hotel. -/
theorem onlyMenusOf_set {i : ℕ} {m m' : Menu} (hm : db.menus.find i = some m) (hh : m'.hotelId = m.hotelId) :
    OnlyMenusOf k db { db with menus := db.menus.set i m' } ↔ (m' ≠ m → db.hotelOf k m.hotelId = true) := by
  have hfind (j : ℕ) : (db.menus.set i m').find j = if j = i then some m' else db.menus.find j := by
    rw [Table.find_set]
    split_ifs with hj
    · rw [hj, hm, Option.map_some]
    · rfl
  constructor
  · intro h hne
    refine h.before i m hm ?_
    simpa [hfind] using hne
  · intro h
    refine ⟨fun j x hx hne => ?_, fun j x hx hne => ?_, fun _ _ h h' => absurd h h'⟩
    · simp only [hfind] at hne
      split_ifs at hne with hj
      · rw [hj, hm] at hx
        cases hx
        exact h fun he => hne (by rw [he])
      · exact absurd hx hne
    · simp only [hfind] at hx
      split_ifs at hx with hj
      · cases hx
        rw [hh]
        exact h fun he => hne (by rw [hj, hm, he])
      · exact absurd hx hne

/-- Dropping a menu, with its order items. -/
theorem onlyMenusOf_dropMenus {i : ℕ} {m : Menu} (hm : db.menus.find i = some m) :
    OnlyMenusOf k db (db.dropMenus fun j => j == i) ↔ db.hotelOf k m.hotelId = true := by
  constructor
  · intro h
    exact h.before i m hm (by simp [DB.dropMenus, Table.find_filter, hm])
  · intro h
    refine ⟨fun j x hx hne => ?_, fun j x hx hne => ?_, fun j x hx hne => ?_⟩
    · obtain rfl : j = i := by
        by_contra hj
        exact hne (by simp [DB.dropMenus, Table.find_filter, hx, hj])
      cases hm.symm.trans hx
      exact h
    · exact absurd (Table.find_of_find_filter hx) hne
    · obtain hj : x.menuId = i := by
        by_contra hj
        exact hne (by simp [DB.dropMenus, Table.find_filter, hx, hj])
      exact ⟨m, hj ▸ hm, h⟩

/-- A hotel owner may do everything to every menu. -/
theorem can_write_menu (hcur : currentUser ctx db = some (k, u)) (hrole : u.role = some .hotelOwner) (v : Verb)
    (j : Option ℕ) : can (currentUser ctx db) v (.record .menu j) = true := by
  rw [hcur]
  exact can_menu_of_hotelOwner hrole v j

/-- A hotel owner's request to add a menu. -/
theorem onlyMenusOf_menusCreate (hcur : currentUser ctx db = some (k, u)) (hrole : u.role = some .hotelOwner)
    (userId hotelId : String) (body : Required MenuParams) :
    OnlyMenusOf k db (after env ctx (.menusCreate userId hotelId body) db) ↔
      (Authenticated env ctx db → OwnsTarget db k (.create userId hotelId body)) := by
  rcases @MenusController.leaves_create env ctx hotelId body db with
    ⟨h, x, m, hc⟩ | ⟨hno, hsame⟩
  · have hafter : after env ctx (.menusCreate userId hotelId body) db = _ := hc.state
    obtain ⟨p, hb, hv, hr⟩ := hc.valid
    have hown : db.hotelOf k m.hotelId = true ↔ x.userId = k := by
      rw [Menu.validate_hotelId hv, DB.hotelOf, findParam_find hc.path]
      simp
    rw [hafter, onlyMenusOf_insert, hown]
    constructor
    · rintro h' - h₁ x₁ p₁ m₁ hpath hb₁ hv₁ hr₁
      cases hc.path.symm.trans hpath
      exact h'
    · intro h'
      exact h' hc.auth h x p m hc.path hb hv hr
  · have hafter : after env ctx (.menusCreate userId hotelId body) db = db := hsame
    rw [hafter]
    refine iff_of_true (.refl k db) fun hauth h x p m hpath hb hv hr => ?_
    exact absurd ⟨h, x, m, hauth, hpath, can_write_menu hcur hrole _ _, ⟨p, hb, hv, hr⟩, rfl⟩ (hno _)

/-- A hotel owner's request to change a menu. -/
theorem onlyMenusOf_menusUpdate (hcur : currentUser ctx db = some (k, u)) (hrole : u.role = some .hotelOwner)
    (userId hotelId id : String) (body : Required MenuParams) :
    OnlyMenusOf k db (after env ctx (.menusUpdate userId hotelId id body) db) ↔
      (Authenticated env ctx db → OwnsTarget db k (.update userId hotelId id body)) := by
  rcases @MenusController.leaves_update env ctx id body db with
    ⟨i, m, m', hc⟩ | ⟨hno, hsame⟩
  · have hafter : after env ctx (.menusUpdate userId hotelId id body) db = _ := hc.state
    obtain ⟨p, hb, hv, hr⟩ := hc.valid
    rw [hafter, onlyMenusOf_set (findParam_find hc.path) (Menu.validate_hotelId hv)]
    constructor
    · intro h' _ i₁ m₁ p₁ m₁' hpath hb₁ hv₁ hr₁ hne
      cases hc.path.symm.trans hpath
      cases hb.symm.trans hb₁
      cases hv.symm.trans hv₁
      exact h' hne
    · intro h' hne
      exact h' hc.auth i m p m' hc.path hb hv hr hne
  · have hafter : after env ctx (.menusUpdate userId hotelId id body) db = db := hsame
    rw [hafter]
    refine iff_of_true (.refl k db) fun hauth i m p m' hpath hb hv hr _ => ?_
    exact absurd ⟨i, m, m', hauth, hpath, can_write_menu hcur hrole _ _, ⟨p, hb, hv, hr⟩, rfl⟩ (hno _)

/-- A hotel owner's request to delete a menu. -/
theorem onlyMenusOf_menusDestroy (hcur : currentUser ctx db = some (k, u)) (hrole : u.role = some .hotelOwner)
    (userId hotelId id : String) :
    OnlyMenusOf k db (after env ctx (.menusDestroy userId hotelId id) db) ↔
      (Authenticated env ctx db → OwnsTarget db k (.destroy userId hotelId id)) := by
  rcases @MenusController.leaves_destroy env ctx id db with
    ⟨i, m, hc⟩ | ⟨hno, hsame⟩
  · have hafter : after env ctx (.menusDestroy userId hotelId id) db = _ := hc.state
    rw [hafter, onlyMenusOf_dropMenus (findParam_find hc.path)]
    constructor
    · intro h' _ i₁ m₁ hpath
      cases hc.path.symm.trans hpath
      exact h'
    · intro h'
      exact h' hc.auth i m hc.path
  · have hafter : after env ctx (.menusDestroy userId hotelId id) db = db := hsame
    rw [hafter]
    refine iff_of_true (.refl k db) fun hauth i m hpath => ?_
    exact absurd ⟨i, m, hauth, hpath, can_write_menu hcur hrole _ _, rfl⟩ (hno _)

/-- **Writing menus**: a hotel owner's request writes menus of their hotels only, exactly when, the token being
accepted, what it names is theirs. -/
theorem writesOnlyOwnMenus_iff (env : Env) (ctx : Ctx) (db : DB) (w : MenuWrite) :
    WritesOnlyOwnMenus env ctx db w ↔
      ∀ k u, currentUser ctx db = some (k, u) → u.role = some .hotelOwner → Authenticated env ctx db →
        OwnsTarget db k w := by
  refine forall₄_congr fun k u hcur hrole => ?_
  cases w with
  | create userId hotelId body => exact onlyMenusOf_menusCreate hcur hrole userId hotelId body
  | update userId hotelId id body => exact onlyMenusOf_menusUpdate hcur hrole userId hotelId id body
  | destroy userId hotelId id => exact onlyMenusOf_menusDestroy hcur hrole userId hotelId id

/-- Another hotel owner has signed up. -/
def otherOwner : DB :=
  (sampleEvents ++ [sampleSignUp "Other" "other@mail.com" "hotel_owner"]).foldl (DB.step Plain.env) DB.empty

theorem otherOwner_eq : otherOwner =
    { DB.ordered with
      users := DB.ordered.users.insert ⟨"Other", some .hotelOwner, "other@mail.com", "password"⟩ } := by
  rw [otherOwner, List.foldl_append, foldl_sampleEvents]
  decide +kernel

/-- Owner 3, who has no hotel, adds a menu to the hotel of owner 2, changes the price of a menu of that hotel, and
deletes that menu. -/
theorem owner_writes_menus_of_other :
    ¬ WritesOnlyOwnMenus Plain.env (sampleCtx 3) otherOwner
        (.create "3" "1" (.hash ⟨some (some "Mine"), none, some (.int 1)⟩)) ∧
      ¬ WritesOnlyOwnMenus Plain.env (sampleCtx 3) otherOwner (.update "3" "1" "1" (.hash ⟨none, none, some (.int 1)⟩)) ∧
      ¬ WritesOnlyOwnMenus Plain.env (sampleCtx 3) otherOwner (.destroy "3" "1" "1") := by
  rw [otherOwner_eq]
  refine ⟨fun h => ?_, fun h => ?_, fun h => ?_⟩
  · have hown := (h 3 _ rfl rfl).after 2 ⟨"Mine", 1, none, 1⟩ (by decide +kernel) (by decide +kernel)
    cases hown
  · have hown := (h 3 _ rfl rfl).before 1 ⟨"Menu", 1, none, 100⟩ rfl (by decide +kernel)
    cases hown
  · have hown := (h 3 _ rfl rfl).before 1 ⟨"Menu", 1, none, 100⟩ rfl (by decide +kernel)
    cases hown

end FoodFactory
