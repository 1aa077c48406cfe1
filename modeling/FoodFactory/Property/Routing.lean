import FoodFactory.Controller.Routes

/-!
# Which path leads to which request

The routes are written as a tree, and a path goes to the first route that fits. Here they are said from the side
of the requests: each request has its methods, its segments and its parameters.

## What is proved

* `dispatch_request_iff`: a URL leads to a request if and only if it names the request and its parameters, the method is
  one of its methods, and its body is what was sent. What leads to no request and is not bad leads to none of the five
  controllers. So no two requests share a URL and a method, and nothing leads to an update of an order.
* `dispatch_undefined_iff`: the three kinds of URLs that lead to an action that is not there.
* `dispatch_path`: the path of a request, with escapes for its parameters, leads to the request. The parameters may be
  anything but empty and without a dot, which is not escaped.
-/

namespace FoodFactory

open Route

variable {m : Method} {url : String} {p : Params} {req : Req} {e : Endpoint} {l ids : List String}

/-! ### The routes, without their tree -/

/-- The resources of a controller, from the outermost. -/
def Controller.names : Controller → List String
  | .users => ["users"]
  | .hotels => ["users", "hotels"]
  | .menus => ["users", "hotels", "menus"]
  | .orders => ["users", "hotels", "orders"]
  | .orderItems => ["users", "hotels", "orders", "order_items"]
  | _ => []

/-- The actions of a resource that have routes. -/
def Controller.actions : Controller → List ActionName
  | .orders => [.index, .create, .show, .destroy]
  | .orderItems => [.index, .show]
  | _ => [.index, .create, .show, .update, .destroy]

/-- The methods of an action. -/
def ActionName.methods : ActionName → List Method
  | .create => [.post]
  | .update => [.patch, .put]
  | .destroy => [.delete]
  | _ => [.get]

/-- The pattern of an endpoint: its resources with a parameter each, but the last for `index` and `create`. -/
def Endpoint.pattern (e : Endpoint) : Pattern String :=
  let whole := e.controller.names.flatMap fun name => [.lit name, .param]
  match e.action with
  | .index | .create => whole.dropLast
  | _ => whole

/-- The methods and patterns of the routes to an endpoint. -/
def routesTo (e : Endpoint) : List (Method × Pattern String) :=
  (routes.filter fun r => r.target = e).map fun r => (r.method, r.pattern)

theorem routesTo_eq (h : e.controller.names ≠ []) :
    routesTo e = if e.action ∈ e.controller.actions then e.action.methods.map (·, e.pattern) else [] := by
  obtain ⟨c, a⟩ := e
  cases c <;> first | exact absurd rfl h | cases a <;> rfl

/-- A path that leads to an endpoint of a resource. -/
theorem recognize_eq_resource_iff (h : e.controller.names ≠ []) :
    recognize plainParam routes m l = some (e, ids) ↔
      e.action ∈ e.controller.actions ∧ m ∈ e.action.methods ∧ e.pattern.Fits plainParam l ids := by
  have hmem (q : Pattern String) :
      (∃ r ∈ routes, r.method = m ∧ r.target = e ∧ r.pattern = q) ↔ (m, q) ∈ routesTo e := by
    simp only [routesTo, List.mem_map, List.mem_filter, decide_eq_true_eq, Prod.mk.injEq]
    constructor
    · rintro ⟨r, hr, hm, he, hq⟩
      exact ⟨r, ⟨hr, he⟩, hm, hq⟩
    · rintro ⟨r, ⟨hr, he⟩, hm, hq⟩
      exact ⟨r, hr, hm, he, hq⟩
  rw [recognize_eq_some_iff unambiguous_routes]
  constructor
  · rintro ⟨r, hr, hm, he, hfits⟩
    have hto := (hmem r.pattern).mp ⟨r, hr, hm, he, rfl⟩
    rw [routesTo_eq h] at hto
    split at hto
    · rename_i ha
      obtain ⟨_, hm', heq⟩ := List.mem_map.mp hto
      obtain ⟨rfl, hq⟩ := Prod.mk.inj heq
      exact ⟨ha, hm', hq ▸ hfits⟩
    · exact absurd hto List.not_mem_nil
  · rintro ⟨ha, hm, hfits⟩
    have hto : (m, e.pattern) ∈ routesTo e := by
      rw [routesTo_eq h, if_pos ha]
      exact List.mem_map.mpr ⟨m, hm, rfl⟩
    obtain ⟨r, hr, hrm, hre, hq⟩ := (hmem _).mpr hto
    exact ⟨r, hr, hrm, hre, hq ▸ hfits⟩

/-! ### Paths that lead somewhere -/

/-- The URL names an endpoint and its parameters: its path has the fixed segments of the endpoint and, in the places of
the parameters, segments without a dot that are the parameters once they are unescaped. -/
def Names (url : String) (e : Endpoint) (ids : List String) : Prop :=
  ∃ params format, pathSegments url = some (e.pattern.fill params, format) ∧ params.length = e.pattern.arity ∧
    (∀ s ∈ params, plainParam s) ∧ unescapeParams params format = some ids

/-- The URL leads to an endpoint, with these parameters. -/
def LeadsTo (m : Method) (url : String) (e : Endpoint) (ids : List String) : Prop :=
  ∃ l format params, pathSegments url = some (l, format) ∧ recognize plainParam routes m.routed l = some (e, params) ∧
    unescapeParams params format = some ids

theorem dispatch_eq_some_iff {d : Dispatch} (hd : d ≠ .badRequest) :
    dispatch m url p = some d ↔ ∃ e ids, LeadsTo m url e ids ∧ e.dispatch p ids = d := by
  simp only [dispatch, Option.bind_eq_bind, Option.bind_eq_some_iff, Prod.exists]
  constructor
  · rintro ⟨l, format, hl, e, params, hto, hdispatch⟩
    split at hdispatch
    · rename_i ids hids
      exact ⟨e, ids, ⟨l, format, params, hl, hto, hids⟩, Option.some.inj hdispatch⟩
    · exact absurd (Option.some.inj hdispatch).symm hd
  · rintro ⟨e, ids, ⟨l, format, params, hl, hto, hids⟩, rfl⟩
    exact ⟨l, format, hl, e, params, hto, by rw [hids]; rfl⟩

/-- **A URL leads to an endpoint of a resource** if and only if it names it, with one of its methods. -/
theorem leadsTo_iff (h : e.controller.names ≠ []) :
    LeadsTo m url e ids ↔
      e.action ∈ e.controller.actions ∧ m.routed ∈ e.action.methods ∧ Names url e ids := by
  constructor
  · rintro ⟨l, format, params, hl, hto, hids⟩
    obtain ⟨ha, hm, hfits⟩ := (recognize_eq_resource_iff h).mp hto
    obtain ⟨hlen, rfl, hplain⟩ := Pattern.fits_iff.mp hfits
    exact ⟨ha, hm, params, format, hl, hlen, hplain, hids⟩
  · rintro ⟨ha, hm, params, format, hl, hlen, hplain, hids⟩
    exact ⟨_, format, params, hl, (recognize_eq_resource_iff h).mpr ⟨ha, hm, Pattern.fits_iff.mpr ⟨hlen, rfl, hplain⟩⟩,
      hids⟩

theorem mapM_eq_some_iff {α β : Type} {f : α → Option β} {l : List α} {l' : List β} :
    l.mapM f = some l' ↔ List.Forall₂ (fun x y => f x = some y) l l' := by
  induction l generalizing l' with
  | nil => simp [eq_comm]
  | cons x l ih =>
    simp only [List.mapM_cons, Option.bind_eq_bind, Option.bind_eq_some_iff, ih, List.forall₂_cons_left_iff]
    constructor
    · rintro ⟨y, hy, ys, hys, hl⟩
      exact ⟨y, ys, hy, hys, (Option.some.inj hl).symm⟩
    · rintro ⟨y, ys, hy, hys, rfl⟩
      exact ⟨y, hy, ys, hys, rfl⟩

/-- A URL gives an endpoint as many parameters as it has. -/
theorem Names.length (h : Names url e ids) : ids.length = e.pattern.arity := by
  obtain ⟨params, format, -, hlen, -, hids⟩ := h
  rw [unescapeParams, Option.ite_none_right_eq_some] at hids
  rw [← (mapM_eq_some_iff.mp hids.2).length_eq, hlen]

/-! ### Requests -/

namespace Req

/-- The endpoint of a request. -/
def endpoint : Req → Endpoint
  | .usersIndex => ⟨.users, .index⟩
  | .usersShow _ => ⟨.users, .show⟩
  | .usersUpdate _ _ => ⟨.users, .update⟩
  | .hotelsIndex _ => ⟨.hotels, .index⟩
  | .hotelsShow _ _ => ⟨.hotels, .show⟩
  | .hotelsCreate _ _ => ⟨.hotels, .create⟩
  | .hotelsUpdate _ _ _ => ⟨.hotels, .update⟩
  | .hotelsDestroy _ _ => ⟨.hotels, .destroy⟩
  | .menusIndex _ _ => ⟨.menus, .index⟩
  | .menusShow _ _ _ => ⟨.menus, .show⟩
  | .menusCreate _ _ _ => ⟨.menus, .create⟩
  | .menusUpdate _ _ _ _ => ⟨.menus, .update⟩
  | .menusDestroy _ _ _ => ⟨.menus, .destroy⟩
  | .ordersIndex _ _ => ⟨.orders, .index⟩
  | .ordersShow _ _ _ => ⟨.orders, .show⟩
  | .ordersCreate _ _ _ _ => ⟨.orders, .create⟩
  | .ordersDestroy _ _ _ => ⟨.orders, .destroy⟩
  | .orderItemsIndex _ _ _ => ⟨.orderItems, .index⟩
  | .undefinedAction => ⟨.users, .create⟩

/-- The parameters of the path of a request. -/
def pathParams : Req → List String
  | .usersIndex => []
  | .usersShow id => [id]
  | .usersUpdate id _ => [id]
  | .hotelsIndex userId => [userId]
  | .hotelsShow userId id => [userId, id]
  | .hotelsCreate userId _ => [userId]
  | .hotelsUpdate userId id _ => [userId, id]
  | .hotelsDestroy userId id => [userId, id]
  | .menusIndex userId hotelId => [userId, hotelId]
  | .menusShow userId hotelId id => [userId, hotelId, id]
  | .menusCreate userId hotelId _ => [userId, hotelId]
  | .menusUpdate userId hotelId id _ => [userId, hotelId, id]
  | .menusDestroy userId hotelId id => [userId, hotelId, id]
  | .ordersIndex userId hotelId => [userId, hotelId]
  | .ordersShow userId hotelId id => [userId, hotelId, id]
  | .ordersCreate userId hotelId _ _ => [userId, hotelId]
  | .ordersDestroy userId hotelId id => [userId, hotelId, id]
  | .orderItemsIndex userId hotelId orderId => [userId, hotelId, orderId]
  | .undefinedAction => []

/-- The body of a request is what was sent. -/
def Carries (p : Params) : Req → Prop
  | .usersUpdate _ body => body = p.user
  | .hotelsCreate _ body => body = p.hotel
  | .hotelsUpdate _ _ body => body = p.hotel
  | .menusCreate _ _ body => body = p.menu
  | .menusUpdate _ _ _ body => body = p.menu
  | .ordersCreate _ _ order orderItems => order = p.order ∧ orderItems = p.orderItems
  | _ => True

end Req

/-- A request is at an endpoint that has a route, is defined, and has a value for each parameter. -/
theorem Req.endpoint_routed (req : Req) :
    req.endpoint.controller.names ≠ [] ∧ req.endpoint.action ∈ req.endpoint.controller.actions ∧
      req.pathParams.length = req.endpoint.pattern.arity := by
  cases req <;> simp [Req.endpoint, Controller.names, Controller.actions, Req.pathParams, Endpoint.pattern,
    Pattern.arity]

theorem Req.endpoint_defined (hreq : req ≠ .undefinedAction) : req.endpoint.isUndefined = false := by
  cases req <;> first | rfl | exact absurd rfl hreq

theorem Endpoint.perform_eq_request_iff :
    e.perform p ids = .request req ↔
      req ≠ .undefinedAction ∧ e = req.endpoint ∧ ids = req.pathParams ∧ req.Carries p := by
  constructor
  · fun_cases Endpoint.perform p e ids <;> intro h <;> cases h <;>
      simp [Req.endpoint, Req.pathParams, Req.Carries]
  · rintro ⟨hreq, rfl, rfl, h⟩
    cases req <;> simp_all [Req.endpoint, Req.pathParams, Req.Carries, Endpoint.perform]

theorem Endpoint.dispatch_eq_request_iff (hreq : req ≠ .undefinedAction) :
    e.dispatch p ids = .request req ↔ e = req.endpoint ∧ ids = req.pathParams ∧ req.Carries p := by
  rw [Endpoint.dispatch]
  split_ifs with hundefined
  · refine iff_of_false (fun h => hreq (Dispatch.request.inj h).symm) ?_
    rintro ⟨rfl, -⟩
    rw [Req.endpoint_defined hreq] at hundefined
    contradiction
  · rw [Endpoint.perform_eq_request_iff, and_iff_right hreq]

/-- An endpoint of a resource, with as many parameters as it has, is a request. -/
theorem Endpoint.exists_dispatch_eq (hnames : e.controller.names ≠ []) (haction : e.action ∈ e.controller.actions)
    (hlen : ids.length = e.pattern.arity) : ∃ req, e.dispatch p ids = .request req := by
  obtain ⟨c, a⟩ := e
  cases c <;> first | exact absurd rfl hnames | skip
  all_goals cases a <;> first | exact absurd haction (by decide) | skip
  all_goals
    rcases ids with _ | ⟨i, _ | ⟨j, _ | ⟨k, _ | ⟨n, _ | ⟨n', ids⟩⟩⟩⟩⟩ <;>
      first | exact ⟨_, rfl⟩ | simp [Endpoint.pattern, Controller.names, Pattern.arity] at hlen

theorem Endpoint.dispatch_eq_other {e' : Endpoint} (h : e.dispatch p ids = .other e') : e' = e := by
  rw [Endpoint.dispatch] at h
  split_ifs at h
  revert h
  fun_cases Endpoint.perform p e ids <;> intro h <;> cases h
  rfl

/-- What names a request leads to it. -/
theorem dispatch_of_names (hreq : req ≠ .undefinedAction) (hm : m.routed ∈ req.endpoint.action.methods)
    (hurl : Names url req.endpoint req.pathParams) (hp : req.Carries p) :
    dispatch m url p = some (.request req) := by
  obtain ⟨hnames, haction, -⟩ := req.endpoint_routed
  exact (dispatch_eq_some_iff (by simp)).mpr
    ⟨_, _, (leadsTo_iff hnames).mpr ⟨haction, hm, hurl⟩, (Endpoint.dispatch_eq_request_iff hreq).mpr ⟨rfl, rfl, hp⟩⟩

/-- What leads to none of the requests leads to none of the five controllers. -/
theorem names_of_dispatch_eq_other (h : dispatch m url p = some (.other e)) : e.controller.names = [] := by
  by_contra hnames
  obtain ⟨e', ids, hto, hd⟩ := (dispatch_eq_some_iff (by simp)).mp h
  obtain rfl := Endpoint.dispatch_eq_other hd
  obtain ⟨haction, -, hurl⟩ := (leadsTo_iff hnames).mp hto
  obtain ⟨req, hreq⟩ := Endpoint.exists_dispatch_eq (p := p) hnames haction hurl.length
  rw [hreq] at hd
  cases hd

/-- **A URL leads to a request** if and only if it names the request. Nothing else leads to one of the five controllers,
so nothing leads to an update of an order, which is not a request. -/
theorem dispatch_request_iff (hreq : req ≠ .undefinedAction) :
    (dispatch m url p = some (.request req) ↔
      m.routed ∈ req.endpoint.action.methods ∧ Names url req.endpoint req.pathParams ∧ req.Carries p) ∧
    (∀ e, dispatch m url p = some (.other e) → e.controller.names = []) ∧
      dispatch m url p ≠ some (.other ⟨.orders, .update⟩) := by
  refine ⟨⟨fun h => ?_, fun ⟨hm, hurl, hp⟩ => dispatch_of_names hreq hm hurl hp⟩,
    fun _ => names_of_dispatch_eq_other, fun h => ?_⟩
  · obtain ⟨e, ids, hto, hd⟩ := (dispatch_eq_some_iff (by simp)).mp h
    obtain ⟨rfl, rfl, hp⟩ := (Endpoint.dispatch_eq_request_iff hreq).mp hd
    obtain ⟨-, hm, hurl⟩ := (leadsTo_iff req.endpoint_routed.1).mp hto
    exact ⟨hm, hurl, hp⟩
  · exact absurd (names_of_dispatch_eq_other h) (by decide)

/-- The parameters of a request that renames a hotel. -/
def sampleParams : Params := ⟨.missing, .missing, .hash (some (some "Corner")), .missing, .missing, .missing⟩

/-- A URL with escapes, with a format, with a query and with more slashes than it needs. -/
theorem dispatch_request_iff_menu :
    dispatch .head "/users/%37//hotels/2%2e5/menus/caf%C3%A9.json?page=1" sampleParams =
      some (.request (.menusShow "7" "2.5" "café")) := by
  refine (dispatch_request_iff (by decide)).1.mpr ⟨by decide, ⟨["%37", "2%2e5", "caf%C3%A9"], some "json", ?_⟩, trivial⟩
  decide +kernel

/-! ### Actions that are not there -/

/-- The endpoints that have a route and no action. -/
def undefinedEndpoints : List Endpoint := ((routes.map Entry.target).filter Endpoint.isUndefined).dedup

/-- There are three. -/
theorem undefinedEndpoints_eq :
    undefinedEndpoints = [⟨.orderItems, .show⟩, ⟨.users, .create⟩, ⟨.users, .destroy⟩] := by decide +kernel

theorem Endpoint.dispatch_eq_undefined_iff :
    e.dispatch p ids = .request .undefinedAction ↔ e.isUndefined = true := by
  rw [Endpoint.dispatch]
  split_ifs with hundefined
  · exact iff_of_true rfl hundefined
  · refine iff_of_false (fun h => ?_) hundefined
    exact absurd rfl (Endpoint.perform_eq_request_iff.mp h).1

/-- **A URL leads to an action that is not there** if and only if it creates or destroys a user, or shows an item of an
order. -/
theorem dispatch_undefined_iff :
    dispatch m url p = some (.request .undefinedAction) ↔
      ∃ e ∈ undefinedEndpoints, m.routed ∈ e.action.methods ∧ ∃ ids, Names url e ids := by
  have hrouted : ∀ e ∈ undefinedEndpoints, e.controller.names ≠ [] ∧ e.action ∈ e.controller.actions := by
    rw [undefinedEndpoints_eq]
    decide
  rw [dispatch_eq_some_iff (by simp)]
  constructor
  · rintro ⟨e, ids, hto, hd⟩
    have he : e ∈ undefinedEndpoints := by
      obtain ⟨_, _, _, -, hrecognize, -⟩ := id hto
      obtain ⟨r, hr, -, rfl, -⟩ := (recognize_eq_some_iff unambiguous_routes).mp hrecognize
      rw [undefinedEndpoints, List.mem_dedup, List.mem_filter]
      exact ⟨List.mem_map_of_mem hr, Endpoint.dispatch_eq_undefined_iff.mp hd⟩
    obtain ⟨-, hm, hurl⟩ := (leadsTo_iff (hrouted e he).1).mp hto
    exact ⟨e, he, hm, ids, hurl⟩
  · rintro ⟨e, he, hm, ids, hurl⟩
    have hundefined : e.isUndefined = true := by
      rw [undefinedEndpoints, List.mem_dedup, List.mem_filter] at he
      exact he.2
    exact ⟨e, ids, (leadsTo_iff (hrouted e he).1).mpr ⟨(hrouted e he).2, hm, hurl⟩,
      Endpoint.dispatch_eq_undefined_iff.mpr hundefined⟩

/-! ### Paths -/

/-- Nothing in a segment cuts a path. -/
def Plain (s : String) : Prop := s.toList ≠ [] ∧ '/' ∉ s.toList ∧ '.' ∉ s.toList ∧ '?' ∉ s.toList

instance (s : String) : Decidable (Plain s) := inferInstanceAs (Decidable (_ ∧ _))

/-- The path with the given segments. -/
def pathOf (l : List String) : String := String.ofList (join '/' (l.map String.toList))

theorem pathSegments_pathOf (h : ∀ s ∈ l, Plain s) : pathSegments (pathOf l) = some (l, none) := by
  have hquery : (join '/' (l.map String.toList)).takeWhile (· ≠ '?') = join '/' (l.map String.toList) := by
    rw [List.takeWhile_eq_self_iff]
    intro c hc
    obtain ⟨t, ht, hc⟩ := List.mem_flatMap.mp hc
    obtain ⟨s, hs, rfl⟩ := List.mem_map.mp ht
    obtain rfl | hc := List.mem_cons.mp hc
    · rfl
    · exact decide_eq_true fun hq => (h s hs).2.2.2 (hq ▸ hc)
  have hcut : Route.segments '/' (join '/' (l.map String.toList)) = l.map String.toList :=
    segments_join (List.forall_mem_map.mpr fun s hs => ⟨(h s hs).1, (h s hs).2.1⟩)
  have hlast : cutLast '.' (l.map String.toList) = some (l.map String.toList, none) :=
    cutLast_of_notMem (List.forall_mem_map.mpr fun s hs => (h s hs).2.2.1)
  rw [pathSegments, pathOf, String.toList_ofList, hquery, hcut, hlast, Option.map_some, List.map_map]
  simp

/-- What a segment of a path is written with as it is. -/
def safeChar (c : Char) : Bool := c.isAlphanum || c ∈ "-._~!$&'()*+,;=:@".toList

/-- The path of a request, as the application would write it. -/
def Req.path (req : Req) : String := pathOf (req.endpoint.pattern.fill (req.pathParams.map (escape safeChar)))

theorem plain_escape {s : String} (hs : s.toList ≠ []) (hdot : '.' ∉ s.toList) : Plain (escape safeChar s) := by
  refine ⟨escape_ne_nil (by decide) hs, fun h => ?_, fun h => ?_, fun h => ?_⟩
  · exact absurd (mem_escape h) (by simp [show safeChar '/' = false by decide, show Char.isAlphanum '/' = false by decide])
  · exact absurd (mem_escape h) (by simp [hdot, show Char.isAlphanum '.' = false by decide])
  · exact absurd (mem_escape h) (by simp [show safeChar '?' = false by decide, show Char.isAlphanum '?' = false by decide])

theorem Endpoint.plain_of_lit_mem {s : String} (h : .lit s ∈ e.pattern) : Plain s := by
  have hnames : s ∈ e.controller.names := by
    have hwhole : Segment.lit s ∈ e.controller.names.flatMap fun name => [Segment.lit name, .param] := by
      rw [Endpoint.pattern] at h
      split at h
      · exact List.dropLast_subset _ h
      · exact List.dropLast_subset _ h
      · exact h
    simpa using hwhole
  have hplain : ∀ c : Controller, ∀ s ∈ c.names, Plain s := by
    intro c
    cases c <;> decide
  exact hplain _ s hnames

/-- The path of a request names the request. -/
theorem Req.names_path (hids : ∀ id ∈ req.pathParams, id.toList ≠ [] ∧ '.' ∉ id.toList) :
    Names req.path req.endpoint req.pathParams := by
  have hplain : ∀ s ∈ req.pathParams.map (escape safeChar), Plain s :=
    List.forall_mem_map.mpr fun id hid => plain_escape (hids id hid).1 (hids id hid).2
  refine ⟨req.pathParams.map (escape safeChar), none, pathSegments_pathOf fun s hs => ?_, ?_, ?_, ?_⟩
  · obtain hlit | hid := Pattern.mem_fill hs
    · exact Endpoint.plain_of_lit_mem hlit
    · exact hplain s hid
  · rw [List.length_map, req.endpoint_routed.2.2]
  · exact fun s hs => decide_eq_true (hplain s hs).2.2.1
  · have hread : List.Forall₂ (fun x y => unescape x = some y) (req.pathParams.map (escape safeChar)) req.pathParams :=
      List.forall₂_map_left_iff.mpr (List.forall₂_same.mpr fun id _ => unescape_escape (by decide) id)
    exact mapM_eq_some_iff.mpr hread

/-- **The path of a request leads to the request.** -/
theorem dispatch_path (hreq : req ≠ .undefinedAction) (hm : m.routed ∈ req.endpoint.action.methods)
    (hids : ∀ id ∈ req.pathParams, id.toList ≠ [] ∧ '.' ∉ id.toList) (hp : req.Carries p) :
    dispatch m req.path p = some (.request req) :=
  dispatch_of_names hreq hm (Req.names_path hids) hp

/-- Parameters with a slash, a question mark, a percent sign and a letter that is not ASCII. -/
theorem dispatch_path_hotel :
    (Req.hotelsUpdate "a/b?" "%31é" sampleParams.hotel).path = "/users/a%2Fb%3F/hotels/%2531%C3%A9" ∧
      dispatch .put (Req.hotelsUpdate "a/b?" "%31é" sampleParams.hotel).path sampleParams =
        some (.request (.hotelsUpdate "a/b?" "%31é" sampleParams.hotel)) :=
  ⟨by decide +kernel, dispatch_path (by simp) (by decide) (by decide) rfl⟩

end FoodFactory
