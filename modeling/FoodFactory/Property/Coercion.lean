import FoodFactory.Controller.Router

/-!
# Conversion and validation of an order's parameters

`order_params` and `order_items_params` convert what a request gives with `to_f` and `to_i`
before a model sees it. Both answer `0` where there is nothing to read, and ignore what
follows a numeral, and `to_f` rounds. So a model validates the converted values, and not
what was given.

## The model

Two readings of a body as it was given. `ValidBody` says that its total and its items are
what the models ask for. `Admitted` says what the code asks for: of the total no more than
that it is not a boolean, not below `0` by more than rounding forgives, and small enough for
its column; of the items that their values can be converted.

## What is proved

* `takenAsTotal_iff`: a total as it was given is converted to one that the model accepts
  exactly when it is nothing at all, a finite float, or an integer or a string that begins
  with a numeral in the stated bounds, or with none.
* `stores_iff`: a request stores an order exactly when it is admitted. Nothing is asked of
  the values of its items.
* `validationHolds_iff`: so conversion does not defeat validation exactly for the requests
  that are not admitted and those with a valid body.
* `not_validationHolds_sample`: an order without a total is stored with total `0`, an item
  with the quantity `two` is stored with quantity `0`, and a total of `-1e-400` is stored as
  `0`.
-/

namespace FoodFactory

open Store Ruby OrdersController

/-! ### Valid bodies -/

/-- The value, as given, is a number that is at least `0`. -/
def Ruby.Scalar.isNonneg : Scalar → Bool
  | .flt x => x.nonneg
  | x => x.number.any (0 ≤ ·)

/-- The total, as given, is a number that is at least `0`. -/
def OrderBody.Valid (b : OrderBody) : Prop := b.totalPrice.isNonneg = true

/-- As given, the menu is an integer, the quantity is an integer that is at least `1`, and the price is a number that is
at least `0`. -/
def ItemBody.Valid (b : ItemBody) : Prop :=
  (∃ n, b.menuId.integer = some n) ∧ (∃ n, b.quantity.integer = some n ∧ 1 ≤ n) ∧ b.price.isNonneg = true

/-- Every listed item is valid. -/
def ItemsBody.Valid (b : ItemsBody) : Prop := ∃ l, b = .list l ∧ ∀ x ∈ l, ∃ y, x = some y ∧ y.Valid

/-- The body of a request is valid, as given. -/
def ValidBody (order : Required OrderBody) (orderItems : ItemsBody) : Prop :=
  (∃ b, order = .hash b ∧ b.Valid) ∧ orderItems.Valid

variable {env : Env} {ctx : Ctx} {db : DB} {userId hotelId : String} {order : Required OrderBody}
  {orderItems : ItemsBody}

/-! ### Totals that are taken -/

/-- What is taken as a total, as given. A string counts by the number it begins with, if any; one that is just below
`0` is rounded to it, and one that is just below `2 ^ 63` is rounded up and does not fit. -/
def Ruby.Scalar.TakenAsTotal : Scalar → Prop
  | .nil => True
  | .str s => -2 ^ (-1075 : ℤ) ≤ readFloat s ∧ readFloat s < 2 ^ 63 - 2 ^ 9
  | .int n => 0 ≤ n ∧ n < 2 ^ 63 - 2 ^ 9
  | .flt x => ∃ q, x.toRat? = some q ∧ 0 ≤ q ∧ q < 2 ^ 63
  | .bool _ => False

theorem inRange_truncate {q : ℚ} (h : 0 ≤ q) : inRange (truncate q) = true ↔ q < 2 ^ 63 := by
  have hfloor : truncate q = ⌊q⌋ := by
    rw [truncate, Int.tdiv_eq_ediv_of_nonneg (Rat.num_nonneg.mpr h), Rat.floor_def']
  have hlo : -2 ^ 63 ≤ ⌊q⌋ := le_trans (by norm_num) (Int.floor_nonneg.mpr h)
  rw [hfloor, inRange, Bool.and_eq_true, decide_eq_true_eq, decide_eq_true_eq, and_iff_right hlo, Int.floor_lt]
  norm_num

/-- A finite float that is at least `0` fits its column below `2 ^ 63`. -/
theorem fits_iff_of_nonneg {x : Binary64} (h : x.nonneg = true) :
    fits x = true ↔ ∃ q, x.toRat? = some q ∧ q < 2 ^ 63 := by
  cases x with
  | finite q hq =>
    have hpos : 0 ≤ q := of_decide_eq_true h
    simp [fits, floatToI, Binary64.toRat?, inRange_truncate hpos]
  | infinity negative => simp [fits, floatToI, Binary64.toRat?]

/-- **Which numbers are taken**, once they are rounded. -/
theorem round_taken_iff {q : ℚ} :
    (Binary64.round q).nonneg = true ∧ fits (.round q) = true ↔ -2 ^ (-1075 : ℤ) ≤ q ∧ q < 2 ^ 63 - 2 ^ 9 := by
  have hbound : nearest q < 2 ^ 63 ↔ q < 2 ^ 63 - 2 ^ 9 := by
    have h := two_zpow_le_nearest_iff (q := q) (p := 63) (by norm_num)
    rw [← not_le, ← not_le, ← zpow_natCast, ← zpow_natCast (2 : ℚ) 9]
    exact not_congr h
  refine and_congr_right_iff.mpr (fun hpos => ?_) |>.trans (and_congr_left' Binary64.nonneg_round)
  rw [fits_iff_of_nonneg hpos, ← hbound]
  have hpos : 0 ≤ nearest q := nearest_nonneg_iff.mpr (Binary64.nonneg_round.mp hpos)
  simp only [Binary64.toRat?_round]
  constructor
  · rintro ⟨r, ⟨-, rfl⟩, hr⟩
    exact hr
  · intro hr
    exact ⟨_, ⟨by rw [abs_of_nonneg hpos]; exact hr.trans (pow_lt_pow_right₀ (by norm_num) (by norm_num)), rfl⟩, hr⟩

/-- **What is taken as a total**: what is converted to a float that is at least `0` and fits its column. -/
theorem takenAsTotal_iff {x : Scalar} :
    x.TakenAsTotal ↔ ∃ t, x.toF = .ok t ∧ t.nonneg = true ∧ fits t = true := by
  cases x with
  | nil => exact iff_of_true trivial ⟨0, rfl, by decide +kernel⟩
  | str s => simp [Scalar.TakenAsTotal, Scalar.toF, Ruby.toF, round_taken_iff]
  | int n =>
    -- an integer below `0` is too far from it
    have hsign : -2 ^ (-1075 : ℤ) ≤ (n : ℚ) ↔ 0 ≤ n := by
      have hpos := two_zpow_pos (-1075)
      have hlt : (2 : ℚ) ^ (-1075 : ℤ) < 2 ^ (0 : ℤ) := two_zpow_lt (by norm_num)
      constructor
      · intro h
        by_contra hn
        have : (n : ℚ) ≤ -1 := by exact_mod_cast Int.le_sub_one_of_lt (not_le.mp hn)
        rw [zpow_zero] at hlt
        linarith
      · intro h
        have : (0 : ℚ) ≤ n := by exact_mod_cast h
        linarith
    have hbound : (n : ℚ) < 2 ^ 63 - 2 ^ 9 ↔ n < 2 ^ 63 - 2 ^ 9 := by exact_mod_cast Iff.rfl
    simp only [Scalar.TakenAsTotal, Scalar.toF, Except.ok.injEq, exists_eq_left', round_taken_iff, hsign, hbound]
  | flt x =>
    cases x with
    | finite q hq =>
      have hnonneg : (Binary64.finite q hq).nonneg = true ↔ 0 ≤ q := decide_eq_true_iff
      simp only [Scalar.TakenAsTotal, Scalar.toF, Except.ok.injEq, exists_eq_left', Binary64.toRat?, Option.some.injEq,
        ← hnonneg]
      refine and_congr_right fun hpos => ?_
      rw [fits_iff_of_nonneg hpos]
      simp [Binary64.toRat?]
    | infinity negative => simp [Scalar.TakenAsTotal, Scalar.toF, Binary64.toRat?, fits, floatToI]
  | bool b => simp [Scalar.TakenAsTotal, Scalar.toF]

/-! ### Items that are converted -/

/-- `to_i` does not raise. -/
def Ruby.Scalar.hasToI : Scalar → Bool
  | .flt x => x.toRat?.isSome
  | .bool _ => false
  | _ => true

/-- `to_f` does not raise. -/
def Ruby.Scalar.hasToF : Scalar → Bool
  | .bool _ => false
  | _ => true

theorem hasToI_iff {x : Scalar} : x.hasToI = true ↔ ∃ n, x.toI = .ok n := by
  cases x with
  | flt x => cases x <;> simp [Scalar.hasToI, Scalar.toI, floatToI, Binary64.toRat?]
  | nil => simp [Scalar.hasToI, Scalar.toI]
  | str s => simp [Scalar.hasToI, Scalar.toI]
  | int n => simp [Scalar.hasToI, Scalar.toI]
  | bool b => simp [Scalar.hasToI, Scalar.toI]

theorem hasToF_iff {x : Scalar} : x.hasToF = true ↔ ∃ q, x.toF = .ok q := by
  cases x <;> simp [Scalar.hasToF, Scalar.toF]

/-- The values of an item can be converted. -/
structure ItemBody.Converts (b : ItemBody) : Prop where
  menuId : b.menuId.hasToI = true
  quantity : b.quantity.hasToI = true
  price : b.price.hasToF = true

theorem converts_iff {x : Option ItemBody} : (∃ b, x = some b ∧ b.Converts) ↔ ∃ p, convertItem x = .ok p := by
  simp only [convertItem_eq_ok]
  constructor
  · rintro ⟨b, rfl, hm, hq, hp⟩
    obtain ⟨i, hi⟩ := hasToI_iff.mp hm
    obtain ⟨n, hn⟩ := hasToI_iff.mp hq
    obtain ⟨r, hr⟩ := hasToF_iff.mp hp
    exact ⟨⟨i, n, r⟩, b, rfl, hi, hn, hr⟩
  · rintro ⟨p, b, rfl, hm, hq, hp⟩
    exact ⟨b, rfl, hasToI_iff.mpr ⟨_, hm⟩, hasToI_iff.mpr ⟨_, hq⟩, hasToF_iff.mpr ⟨_, hp⟩⟩

/-- A list of items is converted if each of them can be. -/
theorem converts_list_iff {l : List (Option ItemBody)} :
    (∀ x ∈ l, ∃ b, x = some b ∧ b.Converts) ↔ ∃ items, l.mapM convertItem = .ok items := by
  simp only [mapM_eq_ok_iff, converts_iff]
  induction l with
  | nil => exact iff_of_true (by simp) ⟨[], .nil⟩
  | cons x l ih =>
    rw [List.forall_mem_cons, ih]
    constructor
    · rintro ⟨⟨p, hp⟩, items, hitems⟩
      exact ⟨p :: items, .cons hp hitems⟩
    · rintro ⟨_, h⟩
      cases h with
      | cons hp hitems => exact ⟨⟨_, hp⟩, _, hitems⟩

/-! ### What is stored -/

/-- What the code asks of a request, as it was given, before it stores an order: an accepted token, the path's hotel, a
user that is logged in and may create orders, a status that is present, a total that is taken, and at least one item,
each with values that can be converted. -/
structure Admitted (env : Env) (ctx : Ctx) (hotelId : String) (order : Required OrderBody) (orderItems : ItemsBody)
    (db : DB) : Prop where
  auth : Authenticated env ctx db
  path : ∃ h, findParam db.hotels hotelId = some h
  can : can (currentUser ctx db) .create (.record .order (attributesFor (currentUser ctx db) .create .order)) = true
  current : ∃ u, currentUser ctx db = some u
  order : ∃ b, order = .hash b ∧ present b.status = true ∧ b.totalPrice.TakenAsTotal
  items : ∃ l, orderItems = .list l ∧ l ≠ [] ∧ ∀ x ∈ l, ∃ b, x = some b ∧ b.Converts

/-- The hotel and the user of a call are there, so only these are asked of its order. -/
theorem accepted_iff {user hotel : ℕ} {p : OrderParams} {items : List ItemParams}
    (h : Calls env ctx hotelId order orderItems db user hotel p items) :
    (∃ o, Order.accepted db user hotel p = some o) ↔
      present p.status = true ∧ p.totalPrice.nonneg = true ∧ fits p.totalPrice = true := by
  obtain ⟨x, hx⟩ := h.path
  obtain ⟨u, hu⟩ := h.current
  have hhotel : db.hotels.Has hotel := Table.Has.of_find (findParam_find hx)
  have huser : db.users.Has user := Table.Has.of_find (currentUser_eq_some.mp hu).2
  simp only [Order.accepted_eq_some, Order.validate_eq_ok, fits_iff]
  constructor
  · rintro ⟨o, ⟨hs, ht, -, n, hn, rfl⟩, hr, -⟩
    exact ⟨hs, ht, n, hn, hr⟩
  · rintro ⟨hs, ht, n, hn, hr⟩
    exact ⟨_, ⟨hs, ht, hhotel, n, hn, rfl⟩, hr, huser⟩

/-- A request is admitted exactly when it calls the service with an order that is accepted. -/
theorem admitted_iff :
    Admitted env ctx hotelId order orderItems db ↔ ∃ user hotel p items,
      Calls env ctx hotelId order orderItems db user hotel p items ∧ ∃ o, Order.accepted db user hotel p = some o := by
  constructor
  · rintro ⟨hauth, ⟨⟨hotel, h⟩, hh⟩, hcan, ⟨⟨user, u⟩, hu⟩, ⟨b, hb, hs, ht⟩, l, hl, hne, hconv⟩
    obtain ⟨t, htotal, hpos, hfits⟩ := takenAsTotal_iff.mp ht
    obtain ⟨items, hitems⟩ := converts_list_iff.mp hconv
    have hc : Calls env ctx hotelId order orderItems db user hotel ⟨t, b.status⟩ items :=
      ⟨hauth, ⟨h, hh⟩, ⟨b, hb, convertOrder_eq_ok.mpr ⟨htotal, rfl⟩⟩, hcan, ⟨l, hl, hne, hitems⟩, ⟨u, hu⟩⟩
    exact ⟨user, hotel, _, items, hc, (accepted_iff hc).mpr ⟨hs, hpos, hfits⟩⟩
  · rintro ⟨user, hotel, p, items, hc, ho⟩
    obtain ⟨hs, hpos, hfits⟩ := (accepted_iff hc).mp ho
    obtain ⟨hauth, ⟨h, hh⟩, ⟨b, hb, hp⟩, hcan, ⟨l, hl, hne, hitems⟩, ⟨u, hu⟩⟩ := hc
    obtain ⟨htotal, hstatus⟩ := convertOrder_eq_ok.mp hp
    exact ⟨hauth, ⟨_, hh⟩, hcan, ⟨_, hu⟩, ⟨b, hb, hstatus ▸ hs, takenAsTotal_iff.mpr ⟨_, htotal, hpos, hfits⟩⟩,
      l, hl, hne, converts_list_iff.mpr ⟨items, hitems⟩⟩

/-- A request that is not admitted leaves everything as it was. -/
theorem after_of_not_admitted (h : ¬ Admitted env ctx hotelId order orderItems db) :
    after env ctx (.ordersCreate userId hotelId order orderItems) db = db := by
  rcases after_ordersCreate env ctx userId hotelId order orderItems db with ⟨user, hotel, p, items, hc, hs⟩ | ⟨-, hs⟩
  · have hnone : Order.accepted db user hotel p = none := by
      rw [Option.eq_none_iff_forall_ne_some]
      exact fun o ho => h (admitted_iff.mpr ⟨user, hotel, p, items, hc, o, ho⟩)
    rw [hs, CreateOrderService.placed, hnone]
  · exact hs

/-- **What stores an order.** -/
theorem stores_iff :
    (after env ctx (.ordersCreate userId hotelId order orderItems) db).orders ≠ db.orders ↔
      Admitted env ctx hotelId order orderItems db := by
  constructor
  · intro h
    by_contra hno
    exact h (by rw [after_of_not_admitted hno])
  · intro h hsame
    obtain ⟨user, hotel, p, items, hc, o, ho⟩ := admitted_iff.mp h
    have hstate : after env ctx (.ordersCreate userId hotelId order orderItems) db =
        CreateOrderService.placed db user hotel p items := hc.state
    rw [hstate, CreateOrderService.placed, ho] at hsame
    -- the table has one row more
    have hnext : db.orders.next + 1 = db.orders.next := congrArg Table.next hsame
    omega

/-- **Conversion does not defeat validation**: a request that stores an order has a valid body, and one whose body is
not valid stores nothing. -/
structure ValidationHolds (env : Env) (ctx : Ctx) (userId hotelId : String) (order : Required OrderBody)
    (orderItems : ItemsBody) (db : DB) : Prop where
  stored : (after env ctx (.ordersCreate userId hotelId order orderItems) db).orders ≠ db.orders →
    ValidBody order orderItems
  refused : ¬ ValidBody order orderItems → after env ctx (.ordersCreate userId hotelId order orderItems) db = db

/-- **When conversion does not defeat validation**: exactly when the request is not admitted, or its body is valid as it
was given. -/
theorem validationHolds_iff (env : Env) (ctx : Ctx) (userId hotelId : String) (order : Required OrderBody)
    (orderItems : ItemsBody) (db : DB) :
    ValidationHolds env ctx userId hotelId order orderItems db ↔
      ¬ Admitted env ctx hotelId order orderItems db ∨ ValidBody order orderItems := by
  constructor
  · intro h
    by_cases hadm : Admitted env ctx hotelId order orderItems db
    · exact .inr (h.stored (stores_iff.mpr hadm))
    · exact .inl hadm
  · rintro (hno | hvalid)
    · exact ⟨fun hs => absurd (stores_iff.mp hs) hno, fun _ => after_of_not_admitted hno⟩
    · exact ⟨fun _ => hvalid, fun hv => absurd hvalid hv⟩

/-- The client's order has no total, or an item with the quantity `two`, or a total just below `0`. All are stored, with
zeros. -/
theorem not_validationHolds_sample :
    (¬ ValidationHolds Plain.env (sampleCtx 1) "1" "1" (.hash ⟨.nil, some "pending"⟩)
        (.list [some ⟨.int 1, .int 2, .int 100⟩]) DB.sample ∧
      (after Plain.env (sampleCtx 1) (.ordersCreate "1" "1" (.hash ⟨.nil, some "pending"⟩)
        (.list [some ⟨.int 1, .int 2, .int 100⟩])) DB.sample).orders = Table.empty.insert ⟨1, 1, 0, "pending"⟩) ∧
    (¬ ValidationHolds Plain.env (sampleCtx 1) "1" "1" (.hash ⟨.int 200, some "pending"⟩)
        (.list [some ⟨.int 1, .str "two", .int 100⟩]) DB.sample ∧
      (after Plain.env (sampleCtx 1) (.ordersCreate "1" "1" (.hash ⟨.int 200, some "pending"⟩)
        (.list [some ⟨.int 1, .str "two", .int 100⟩])) DB.sample).orderItems = Table.empty.insert ⟨1, 1, "0", 100⟩) ∧
    ¬ ValidationHolds Plain.env (sampleCtx 1) "1" "1" (.hash ⟨.str "-1e-400", some "pending"⟩)
        (.list [some ⟨.int 1, .int 2, .int 100⟩]) DB.sample ∧
      (after Plain.env (sampleCtx 1) (.ordersCreate "1" "1" (.hash ⟨.str "-1e-400", some "pending"⟩)
        (.list [some ⟨.int 1, .int 2, .int 100⟩])) DB.sample).orders = Table.empty.insert ⟨1, 1, 0, "pending"⟩ := by
  refine ⟨⟨fun h => ?_, by decide +kernel⟩, ⟨fun h => ?_, by decide +kernel⟩, fun h => ?_, by decide +kernel⟩
  · obtain ⟨⟨b, hb, hvalid⟩, -⟩ := h.stored (by decide +kernel)
    cases hb
    cases hvalid
  · obtain ⟨-, l, hl, hall⟩ := h.stored (by decide +kernel)
    cases hl
    obtain ⟨y, hy, -, ⟨n, hn, -⟩, -⟩ := hall _ (List.mem_singleton_self _)
    cases hy
    exact absurd hn (by simp [Scalar.integer, show isInteger "two" = false by decide +kernel])
  · obtain ⟨⟨b, hb, hvalid⟩, -⟩ := h.stored (by decide +kernel)
    cases hb
    exact absurd hvalid (by unfold OrderBody.Valid; decide +kernel)

end FoodFactory
