import FoodFactory.Store.Run
import FoodFactory.Controller.Router

/-!
# Who owns a hotel

A hotel belongs to the user whose id stands in its row. Three actions write hotels: `update`
and `destroy` authorize the very record that `set_hotel` loads, and `create` authorizes a record
that the library builds for the requester and saves another one.

## What is proved

* `Effect.find_hotel`: a request keeps the owner of every hotel that it keeps, and gives no
  hotel an id that was used before.
* `hotelOwnership`: so over every run of sign-ups and requests the owner of a hotel never
  changes, and a hotel is renamed or deleted only by an admin or by its owner.
* `ownHotelsOnly_iff`: a hotel owner's request to create a hotel inserts one of their own
  exactly when the path names themselves, or nothing is inserted.
* `owner_registers_hotel_for_other`: it inserts one of another user.
-/

namespace FoodFactory

open Store

variable {env : Env} {ctx : Ctx} {db db' : DB} {i k : ℕ} {u : User} {x y : Hotel}

/-! ### Ownership over runs -/

/-- Who may write a hotel of user `j`: an admin, and user `j`. -/
theorem admin_or_owner_of_can {c : Option (ℕ × User)} {v : Verb} {j : ℕ} (hv : Permission.read.covers v = false)
    (h : can c v (.record .hotel (some j)) = true) :
    ∃ k u, c = some (k, u) ∧ (u.role = some .admin ∨ k = j) := by
  match c with
  | none => simp at h
  | some (k, u) =>
    refine ⟨k, u, rfl, ?_⟩
    match hrole : u.role with
    | some .admin => exact .inl rfl
    | some .hotelOwner =>
      rw [can_hotel_of_hotelOwner hrole] at h
      exact .inr (by simpa using h)
    | some .client =>
      rw [can_hotel_of_client hrole, hv] at h
      cases h
    | none =>
      rw [can_of_no_role hrole, hv] at h
      cases h

/-- A hotel that is there after a request, under an id given out before it, was there and had the same owner. -/
theorem Effect.find_hotel {req : Req} (he : Effect env ctx db req db') (hi : i < db.hotels.next)
    (h : db'.hotels.find i = some y) : ∃ x, db.hotels.find i = some x ∧ y.userId = x.userId := by
  rcases he.hotels with hs | ⟨_, _, _, z, -, hc⟩ | ⟨_, _, _, j, z, z', -, hu⟩ | ⟨_, _, j, z, -, hd⟩
  · exact ⟨y, hs ▸ h, rfl⟩
  · rw [hc.state] at h
    simp only [Table.find_insert, if_neg (Nat.ne_of_lt hi)] at h
    exact ⟨y, h, rfl⟩
  · rw [hu.state] at h
    simp only [Table.find_set] at h
    split_ifs at h with hij
    · -- the record that is saved again keeps its owner: the name is all that may be set
      obtain ⟨p, -, hv⟩ := hu.valid
      obtain ⟨w, hw, rfl⟩ := Option.map_eq_some_iff.mp h
      rw [hij, findParam_find hu.path] at hw
      cases hw
      exact ⟨z, hij ▸ findParam_find hu.path, Hotel.validate_userId hv⟩
    · exact ⟨y, h, rfl⟩
  · rw [hd.state] at h
    exact ⟨y, Table.find_of_find_filter h, rfl⟩

/-- A hotel that a request renames or deletes is the requester's, or the requester is an admin. -/
theorem Effect.hotel_writer {req : Req} (he : Effect env ctx db req db') (hx : db.hotels.find i = some x)
    (hne : db'.hotels.find i ≠ some x) :
    ∃ k u, currentUser ctx db = some (k, u) ∧ (u.role = some .admin ∨ k = x.userId) := by
  rcases he.hotels with hs | ⟨_, _, _, z, -, hc⟩ | ⟨_, _, _, j, z, z', -, hu⟩ | ⟨_, _, j, z, -, hd⟩
  · exact absurd (hs ▸ hx) hne
  · rw [hc.state] at hne
    exact absurd (Table.find_insert_of_find hx z) hne
  · obtain rfl : i = j := by
      by_contra hij
      rw [hu.state] at hne
      exact hne (by simp [Table.find_set, hij, hx])
    cases hx.symm.trans (findParam_find hu.path)
    exact admin_or_owner_of_can rfl hu.can
  · obtain rfl : i = j := by
      by_contra hij
      rw [hd.state] at hne
      exact hne (by simp [DB.dropHotels, Table.find_filter, hx, hij])
    cases hx.symm.trans (findParam_find hd.path)
    exact admin_or_owner_of_can rfl hd.can

/-- No id of a hotel is given back. -/
theorem Effect.hotels_next_le {req : Req} (he : Effect env ctx db req db') : db.hotels.next ≤ db'.hotels.next := by
  rcases he.hotels with hs | ⟨_, _, _, z, -, hc⟩ | ⟨_, _, _, j, z, z', -, hu⟩ | ⟨_, _, j, z, -, hd⟩
  · rw [hs]
  · rw [hc.state]
    exact Nat.le_succ _
  · rw [hu.state]
    exact le_rfl
  · rw [hd.state]
    exact le_rfl

/-- The event comes in over a route: a sign-up or a request, and not a destroy from the console. -/
def Event.ViaRoute : Event → Prop
  | .destroyUser _ => False
  | _ => True

/-- A hotel that is there after an event, under an id given out before it, was there and had the same owner. -/
theorem find_hotel_step {e : Event} (he : e.ViaRoute) (hi : i < db.hotels.next)
    (h : (db.step env e).hotels.find i = some y) : ∃ x, db.hotels.find i = some x ∧ y.userId = x.userId := by
  cases e with
  | signUp body =>
    rcases step_signUp env db body with hs | ⟨p, r, v, hs⟩
    · exact ⟨y, hs ▸ h, rfl⟩
    · rw [hs.state] at h
      exact ⟨y, h, rfl⟩
  | request ctx req => exact (handle_effect env ctx req db).find_hotel hi h
  | destroyUser j => exact he.elim

theorem hotels_next_le_step {e : Event} (he : e.ViaRoute) : db.hotels.next ≤ (db.step env e).hotels.next := by
  cases e with
  | signUp body =>
    rcases step_signUp env db body with hs | ⟨p, r, v, hs⟩
    · rw [hs]
    · rw [hs.state]
  | request ctx req => exact (handle_effect env ctx req db).hotels_next_le
  | destroyUser j => exact he.elim

/-- The owner of a hotel at the end of a run is the one it had at the start. -/
theorem owner_foldl {es : List Event} (hes : ∀ e ∈ es, e.ViaRoute) (hi : i < db.hotels.next)
    (h : (es.foldl (DB.step env) db).hotels.find i = some y) :
    ∃ x, db.hotels.find i = some x ∧ y.userId = x.userId := by
  induction es generalizing db with
  | nil => exact ⟨y, h, rfl⟩
  | cons e es ih =>
    have he : e.ViaRoute := hes e (List.mem_cons_self ..)
    obtain ⟨z, hz, hyz⟩ :=
      ih (fun e' h' => hes e' (List.mem_cons_of_mem _ h')) (hi.trans_le (hotels_next_le_step he)) h
    obtain ⟨x, hx, hzx⟩ := find_hotel_step he hi hz
    exact ⟨x, hx, hyz.trans hzx⟩

/-- Ownership of hotels in the run `es` from `db₀`. -/
structure HotelOwnership (env : Env) (db₀ : DB) (es : List Event) : Prop where
  /-- A hotel that is there in two states of the run has the same owner in both. -/
  stable : ∀ es₁ es₂ es₃ i x y, es = es₁ ++ (es₂ ++ es₃) → (es₁.foldl (DB.step env) db₀).hotels.find i = some x →
    ((es₁ ++ es₂).foldl (DB.step env) db₀).hotels.find i = some y → y.userId = x.userId
  /-- A step of the run that renames or deletes a hotel is a request of an admin or of the hotel's owner. -/
  exclusive : ∀ es₁ e es₂ i x, es = es₁ ++ e :: es₂ → (es₁.foldl (DB.step env) db₀).hotels.find i = some x →
    ((es₁.foldl (DB.step env) db₀).step env e).hotels.find i ≠ some x →
      ∃ ctx req k u, e = .request ctx req ∧ currentUser ctx (es₁.foldl (DB.step env) db₀) = some (k, u) ∧
        (u.role = some .admin ∨ k = x.userId)

/-- **Ownership of hotels is stable and exclusive**, in every run of sign-ups and requests from every database. -/
theorem hotelOwnership {es : List Event} (env : Env) (db₀ : DB) (hes : ∀ e ∈ es, e.ViaRoute) :
    HotelOwnership env db₀ es := by
  constructor
  · rintro es₁ es₂ es₃ i x y rfl hx hy
    rw [List.foldl_append] at hy
    obtain ⟨z, hz, hyz⟩ := owner_foldl (fun e he => hes e (by simp [he])) (Table.lt_next (Table.Has.of_find hx)) hy
    cases hx.symm.trans hz
    exact hyz
  · rintro es₁ e es₂ i x rfl hx hne
    cases e with
    | signUp body =>
      -- a sign-up writes no hotels
      rcases step_signUp env (es₁.foldl (DB.step env) db₀) body with hs | ⟨p, r, v, hs⟩
      · rw [hs] at hne
        exact absurd hx hne
      · rw [hs.state] at hne
        exact absurd hx hne
    | request ctx req =>
      obtain ⟨k, u, hcur, hwho⟩ := (handle_effect env ctx req _).hotel_writer hx hne
      exact ⟨ctx, req, k, u, rfl, hcur, hwho⟩
    | destroyUser j => exact False.elim (hes (.destroyUser j) (by simp))

theorem hotelOwnership_sampleEvents : HotelOwnership Plain.env DB.empty sampleEvents := by
  refine hotelOwnership Plain.env DB.empty fun e he => ?_
  simp only [sampleEvents, sampleSignUp, List.mem_cons, List.not_mem_nil, or_false] at he
  rcases he with rfl | rfl | rfl | rfl | rfl <;> trivial

/-! ### Registering a hotel -/

/-- What a hotel owner's request to create a hotel inserts is theirs, and what the ability lets them create. -/
def OwnHotelsOnly (env : Env) (ctx : Ctx) (db : DB) (userId : String) (body : Required HotelsController.HotelParams) :
    Prop :=
  ∀ k u, currentUser ctx db = some (k, u) → u.role = some .hotelOwner →
    ∀ i x, (after env ctx (.hotelsCreate userId body) db).hotels.find i = some x → db.hotels.find i ≠ some x →
      x.userId = k ∧ can (some (k, u)) .create (.record .hotel (some x.userId)) = true

/-- The record that the library builds for a hotel owner is one of their own, which they may create. -/
theorem can_create_built (hrole : u.role = some .hotelOwner) :
    can (some (k, u)) .create (.record .hotel (attributesFor (some (k, u)) .create .hotel)) = true := by
  have hbuilt : attributesFor (some (k, u)) .create .hotel = some k := by
    simp only [attributesFor, ability, hrole]
    rfl
  rw [hbuilt, can_hotel_of_hotelOwner hrole]
  simp

/-- **Registering hotels**: a hotel owner's request inserts no hotel of another user exactly when the user that the
path names is the requester, the token being accepted and the name given. -/
theorem ownHotelsOnly_iff (env : Env) (ctx : Ctx) (db : DB) (userId : String)
    (body : Required HotelsController.HotelParams) :
    OwnHotelsOnly env ctx db userId body ↔
      ∀ k u, currentUser ctx db = some (k, u) → u.role = some .hotelOwner → Authenticated env ctx db →
        ∀ j v p, findParam db.users userId = some (j, v) → body = .hash p → present p.join = true → j = k := by
  refine forall₄_congr fun k u hcur hrole => ?_
  rcases @HotelsController.leaves_create env ctx userId body db with ⟨j, x, hc⟩ | ⟨hno, hsame⟩
  · have hafter : after env ctx (.hotelsCreate userId body) db = _ := hc.state
    obtain ⟨v, hv⟩ := hc.path
    obtain ⟨p, hb, hx⟩ := hc.valid
    obtain ⟨hname, -⟩ := validated_eq_ok.mp hx
    rw [hafter]
    constructor
    · intro h _ j' v' p' hpath _ _
      cases hv.symm.trans hpath
      rw [← Hotel.validate_userId hx]
      exact (h db.hotels.next x (Table.find_insert_next ..) (by simp [Table.find_next])).1
    · intro h i y hy hne
      have hjk : j = k := h hc.auth j v p hv hb (presence_eq_nil.mp hname)
      rcases Table.find_insert_eq_some.mp hy with ⟨-, rfl⟩ | hy
      · have hyk : y.userId = k := (Hotel.validate_userId hx).trans hjk
        refine ⟨hyk, ?_⟩
        rw [hyk, can_hotel_of_hotelOwner hrole]
        simp
      · exact absurd hy hne
  · have hafter : after env ctx (.hotelsCreate userId body) db = db := hsame
    rw [hafter]
    refine iff_of_true (fun i x hx hne => absurd hx hne) fun hauth j v p hpath hb hname => ?_
    -- nothing would stop such a request
    have hvalid : Hotel.validate p.join j = .ok ⟨p.join.getD "", j⟩ :=
      validated_eq_ok.mpr ⟨presence_eq_nil.mpr hname, rfl⟩
    exact absurd ⟨j, _, hauth, ⟨v, hpath⟩, hcur ▸ can_create_built hrole, ⟨p, hb, hvalid⟩, rfl⟩ (hno _)

/-- Owner 2 creates a hotel under the path of client 1: it is a hotel of client 1. -/
theorem owner_registers_hotel_for_other :
    ¬ OwnHotelsOnly Plain.env (sampleCtx 2) DB.sample "1" (.hash (some (some "Mine"))) := by
  intro h
  have hown := h 2 ⟨"Owner", some .hotelOwner, "owner@mail.com", "password"⟩ (by decide +kernel) rfl 2 ⟨"Mine", 1⟩
    (by decide +kernel) (by decide +kernel)
  exact absurd hown.1 (by decide)

end FoodFactory
