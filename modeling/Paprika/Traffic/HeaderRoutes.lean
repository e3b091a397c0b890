import Mathlib.Logic.Function.Iterate
import Paprika.Traffic.Routers

/-!
# Traffic: header routes

`SetHeaderRoute` puts a route for one header value before every route that is selected, whether or not one is already there,
and `RemoveHeaderRoute` deletes every route that mentions the header in a match.  The controller sets the header routes in
every reconcile.

* **`header_routes_reversible_iff`** — when setting again changes nothing and removing restores the routes.
-/

namespace Paprika.Traffic.Istio

open Lib.Unstructured List

def nestedSlice (m : Fields) (path : List String) : Except Unit (Option (List Value)) :=
  match nestedField m path with
  | .error e => .error e
  | .ok none => .ok none
  | .ok (some (.arr entries)) => .ok (some entries)
  | .ok (some _) => .error ()

def nestedMap (m : Fields) (path : List String) : Except Unit (Option Fields) :=
  match nestedField m path with
  | .error e => .error e
  | .ok none => .ok none
  | .ok (some (.obj inner)) => .ok (some inner)
  | .ok (some _) => .error ()

def headerRoute (header value service : String) : Value :=
  .obj [("match", .arr [.obj [("headers", .obj [(header, .obj [("exact", .str value)])])]]),
    ("route", .arr [.obj [("destination", .obj [("host", .str service)]), ("weight", .num 100)]])]

/-- The loop of `SetHeaderRoute`: `moved` is where the insertions so far have moved a position. -/
def insertAt (inserted : Value) (moved : Nat → Nat) : List Nat → List Value → List Value
  | [], httpRoutes => httpRoutes
  | idx :: rest, httpRoutes =>
    let routeIdx := moved idx
    insertAt inserted (fun i => if moved i > routeIdx then moved i + 1 else moved i) rest
      (httpRoutes.take routeIdx ++ inserted :: httpRoutes.drop routeIdx)

def Router.setHeaderRoute (r : Router) (vs : RouteObject) (get update : Bool) (header value service : String) :
    RouteObject × Except RouterError Unit :=
  match vs.read get with
  | .error e => (vs, .error e)
  | .ok none => (vs, .error .noMatchingRoutes)
  | .ok (some httpRoutes) =>
    let routesToPatch := r.selectRoutes httpRoutes
    if routesToPatch.isEmpty then (vs, .error .noMatchingRoutes)
    else vs.write update (insertAt (headerRoute header value service) id routesToPatch httpRoutes)

/-- The inner loop of `RemoveHeaderRoute`: a match that mentions the header ends it. -/
def mentions (header : String) : List Value → Except Unit Bool
  | [] => .ok false
  | .obj m :: rest =>
    match nestedMap m ["headers", header] with
    | .error e => .error e
    | .ok none => mentions header rest
    | .ok (some _) => .ok true
  | _ :: rest => mentions header rest

def hasHeader (header : String) : Value → Except Unit Bool
  | .obj route =>
    match nestedSlice route ["match"] with
    | .error e => .error e
    | .ok none => .ok false
    | .ok (some entries) => mentions header entries
  | _ => .ok false

/-- The loop of `RemoveHeaderRoute`. -/
def keepRoutes (header : String) : List Value → Except Unit (List Value)
  | [] => .ok []
  | route :: rest =>
    match hasHeader header route with
    | .error e => .error e
    | .ok found =>
      match keepRoutes header rest with
      | .error e => .error e
      | .ok keep => .ok (if found then keep else route :: keep)

/-- Where nothing is kept the list is nil, and the routes are written back as they were read. -/
def removeHeaderRoute (vs : RouteObject) (get update : Bool) (header : String) : RouteObject × Except RouterError Unit :=
  match vs.read get with
  | .error e => (vs, .error e)
  | .ok none => (vs, .ok ())
  | .ok (some httpRoutes) =>
    match keepRoutes header httpRoutes with
    | .error _ => (vs, .error .unreadableEntry)
    | .ok keep => vs.write update (if keep.isEmpty then httpRoutes else keep)

/-! ### What is asked of the two -/

section
variable (r : Router) (routes : List Value) (header value service : String)

/-- The object that the API server has, and what a call that it serves makes of it. -/
def stored : RouteObject := ⟨.ok (some routes)⟩

def set (vs : RouteObject) : RouteObject := (r.setHeaderRoute vs true true header value service).1

/-- Setting once more, any number of times, changes nothing. -/
def Idempotent : Prop := ∀ n, (set r header value service)^[n + 1] (stored routes) = set r header value service (stored routes)

/-- A request that the header route does not accept is taken by the same route as before; a rule for which routes accept the
request stands for the request. -/
def RoutesOthersAlike : Prop := ∀ accepts : Value → Bool, accepts (headerRoute header value service) = false →
  ∀ after, (set r header value service (stored routes)).rules = .ok (some after) → after.find? accepts = routes.find? accepts

def Restores : Prop := (removeHeaderRoute (set r header value service (stored routes)) true true header).1 = stored routes

structure Reversible : Prop where
  idempotent : Idempotent r routes header value service
  others : RoutesOthersAlike r routes header value service
  restores : Restores r routes header value service
end

/-! ### Setting -/

section
variable {r : Router} {routes : List Value} {header value service : String} (inserted : Value)

theorem insertAt_length (moved : Nat → Nat) (idxs : List Nat) (routes : List Value) :
    (insertAt inserted moved idxs routes).length = routes.length + idxs.length := by
  induction idxs generalizing moved routes with
  | nil => rfl
  | cons i rest ih =>
    rw [insertAt, ih, length_append, length_cons, length_take, length_drop, length_cons]
    omega

/-- What holds of the routes and does not see a further header route holds of the routes with the header routes. -/
theorem insertAt_invariant {α : Type} (f : List Value → α) (hf : ∀ a b, f (a ++ inserted :: b) = f (a ++ b))
    (moved : Nat → Nat) (idxs : List Nat) (routes : List Value) : f (insertAt inserted moved idxs routes) = f routes := by
  induction idxs generalizing moved routes with
  | nil => rfl
  | cons i rest ih => rw [insertAt, ih, hf, take_append_drop]

theorem mem_insertAt {route : Value} (moved : Nat → Nat) (idxs : List Nat) (h : route ∈ routes) :
    route ∈ insertAt inserted moved idxs routes := by
  induction idxs generalizing moved routes with
  | nil => exact h
  | cons i rest ih =>
    refine ih _ ?_
    rw [← take_append_drop (moved i) routes] at h
    rcases mem_append.mp h with h | h
    · exact mem_append_left _ h
    · exact mem_append_right _ (mem_cons_of_mem inserted h)

theorem inserted_mem {idxs : List Nat} (h : idxs ≠ []) (moved : Nat → Nat) (routes : List Value) :
    inserted ∈ insertAt inserted moved idxs routes := by
  cases idxs with
  | nil => exact absurd rfl h
  | cons i rest => exact mem_insertAt inserted _ rest (mem_append_right _ mem_cons_self)

theorem set_of_selected (h : r.selectRoutes routes ≠ []) : set r header value service (stored routes) =
    stored (insertAt (headerRoute header value service) id (r.selectRoutes routes) routes) := by
  have hsel : (r.selectRoutes routes).isEmpty = false := by simpa using h
  simp only [set, Router.setHeaderRoute, stored, RouteObject.read, Bool.not_true, Bool.false_eq_true, if_false, hsel]
  rfl

theorem set_of_none (h : r.selectRoutes routes = []) : set r header value service (stored routes) = stored routes := by
  simp only [set, Router.setHeaderRoute, stored, RouteObject.read, Bool.not_true, Bool.false_eq_true, if_false, h,
    isEmpty_nil, if_true]

theorem routeName_headerRoute : routeName (headerRoute header value service) = some (.ok none) := rfl

/-- Where a route was selected, a route is selected again: the same one, or the header route. -/
theorem selectRoutes_insertAt (h : r.selectRoutes routes ≠ []) :
    r.selectRoutes (insertAt (headerRoute header value service) id (r.selectRoutes routes) routes) ≠ [] := by
  have hmem := inserted_mem (headerRoute header value service) h id routes
  have hkept : ∀ route ∈ routes, route ∈ _ := fun route => mem_insertAt (headerRoute header value service) id (r.selectRoutes routes)
  generalize insertAt (headerRoute header value service) id (r.selectRoutes routes) routes = after at *
  rw [Router.selectRoutes] at h ⊢
  split_ifs at h ⊢ with hnames hone hone'
  · intro hnil
    refine h (flatMap_eq_nil_iff.mpr fun e he => ?_)
    obtain ⟨i, hi, hroute⟩ := getElem_of_mem (hkept e.1 (fst_mem_of_mem_zipIdx he))
    have hempty := flatMap_eq_nil_iff.mp hnil (after[i], i) (mem_zipIdx_iff_getElem?.mpr (List.getElem?_eq_getElem hi))
    rw [hroute] at hempty
    -- whether a route is selected does not depend on its position
    dsimp only at hempty ⊢
    split at hempty
    · exact map_eq_nil_iff.mpr (map_eq_nil_iff.mp hempty)
    · rfl
  · exact cons_ne_nil 0 []
  · exact cons_ne_nil 0 []
  all_goals
    split
    · exact cons_ne_nil _ []
    · rename_i hnone
      have hheader := List.findIdx?_eq_none_iff.mp hnone _ hmem
      rw [routeName_headerRoute] at hheader
      cases hheader

/-- What a removal makes of the routes that `SetHeaderRoute` leaves is what it makes of the routes before. -/
theorem keepRoutes_insertAt (idxs : List Nat) :
    keepRoutes header (insertAt (headerRoute header value service) id idxs routes) = keepRoutes header routes := by
  have hheader : hasHeader header (headerRoute header value service) = .ok true := by
    simp [hasHeader, headerRoute, nestedSlice, nestedMap, nestedField, mentions]
  refine insertAt_invariant _ (keepRoutes header) (fun a b => ?_) id idxs routes
  induction a with
  | nil =>
    rw [nil_append, nil_append, keepRoutes, hheader]
    cases keepRoutes header b <;> rfl
  | cons route a ih => rw [cons_append, cons_append, keepRoutes, keepRoutes, ih]
end

/-! ### Removing -/

section
variable {header : String} {routes keep : List Value}

theorem keepRoutes_ok (h : keepRoutes header routes = .ok keep) :
    (∀ route ∈ routes, ∃ found, hasHeader header route = .ok found) ∧
      keep = routes.filter fun route => hasHeader header route matches .ok false := by
  induction routes generalizing keep with
  | nil =>
    cases h
    exact ⟨fun _ h => absurd h not_mem_nil, rfl⟩
  | cons route rest ih =>
    rw [keepRoutes] at h
    split at h
    · cases h
    · rename_i found hfound
      split at h
      · cases h
      · rename_i kept hkept
        obtain ⟨hread, rfl⟩ := ih hkept
        obtain rfl := Except.ok.inj h
        refine ⟨forall_mem_cons.mpr ⟨⟨found, hfound⟩, hread⟩, ?_⟩
        cases found with
        | true => rw [filter_cons_of_neg (by rw [hfound]; exact Bool.false_ne_true), if_pos rfl]
        | false => rw [filter_cons_of_pos (by rw [hfound]), if_neg Bool.false_ne_true]

theorem keepRoutes_eq_self (h : keepRoutes header routes = .ok keep) :
    keep = routes ↔ ∀ route ∈ routes, hasHeader header route = .ok false := by
  obtain ⟨hread, hfilter⟩ := keepRoutes_ok h
  rw [hfilter, filter_eq_self]
  refine forall₂_congr fun route hmem => ?_
  obtain ⟨found, hfound⟩ := hread route hmem
  cases found <;> simp [hfound]

theorem keepRoutes_error {e : Unit} (h : keepRoutes header routes = .error e) :
    ∃ route ∈ routes, hasHeader header route = .error () := by
  induction routes with
  | nil => cases h
  | cons route rest ih =>
    rw [keepRoutes] at h
    split at h
    · rename_i hroute
      exact ⟨route, mem_cons_self, hroute⟩
    split at h
    · rename_i hrest
      obtain ⟨route, hmem, hread⟩ := ih (hrest.trans h)
      exact ⟨route, mem_cons_of_mem _ hmem, hread⟩
    · cases h

theorem remove_stored (header : String) (routes : List Value) :
    (removeHeaderRoute (stored routes) true true header).1 = stored
      (match keepRoutes header routes with
      | .error _ => routes
      | .ok keep => if keep.isEmpty then routes else keep) := by
  simp only [removeHeaderRoute, stored, RouteObject.read, Bool.not_true, Bool.false_eq_true, if_false]
  cases keepRoutes header routes <;> rfl

theorem stored_inj {a b : List Value} : stored a = stored b ↔ a = b :=
  ⟨fun h => by injection h with h; injection h with h; injection h, congrArg stored⟩

/-- What is left after a removal is what there was, where no route or every route mentions the header, or one of them cannot
be read. -/
theorem restored_iff : (match keepRoutes header routes with
      | .error _ => routes
      | .ok keep => if keep.isEmpty then routes else keep) = routes ↔
    (∃ route ∈ routes, hasHeader header route = .error ()) ∨ (∀ route ∈ routes, hasHeader header route = .ok false) ∨
      ∀ route ∈ routes, hasHeader header route = .ok true := by
  cases hkeep : keepRoutes header routes with
  | error e => exact iff_of_true rfl (Or.inl (keepRoutes_error hkeep))
  | ok keep =>
  obtain ⟨hread, hfilter⟩ := keepRoutes_ok hkeep
  have hreadable : ¬∃ route ∈ routes, hasHeader header route = .error () := by
    rintro ⟨route, hmem, herror⟩
    obtain ⟨found, hfound⟩ := hread route hmem
    rw [herror] at hfound
    cases hfound
  rw [or_iff_right hreadable]
  have hempty : keep = [] ↔ ∀ route ∈ routes, hasHeader header route = .ok true := by
    rw [hfilter, filter_eq_nil_iff]
    refine forall₂_congr fun route hmem => ?_
    obtain ⟨found, hfound⟩ := hread route hmem
    cases found <;> simp [hfound]
  rw [← keepRoutes_eq_self hkeep, ← hempty]
  by_cases hnil : keep = []
  · simp [hnil]
  · have hsome : keep.isEmpty = false := by simpa using hnil
    simp [hsome, hnil]
end

section
variable {r : Router} {routes : List Value} {header value service : String}

theorem routesOthersAlike : RoutesOthersAlike r routes header value service := by
  intro accepts hothers after hafter
  by_cases hsel : r.selectRoutes routes = []
  · rw [set_of_none hsel] at hafter
    injection hafter with hafter
    injection hafter with hafter
    rw [hafter]
  rw [set_of_selected hsel] at hafter
  injection hafter with hafter
  injection hafter with hafter
  rw [← hafter]
  refine insertAt_invariant _ (List.find? accepts) (fun a b => ?_) id _ routes
  rw [List.find?_append, List.find?_append, List.find?_cons_of_neg (by rw [hothers]; exact Bool.false_ne_true)]

theorem inserted_ne (header value service : String) (h : r.selectRoutes routes ≠ []) :
    insertAt (headerRoute header value service) id (r.selectRoutes routes) routes ≠ routes := by
  intro hsame
  have hlen := insertAt_length (headerRoute header value service) id (r.selectRoutes routes) routes
  have hpos := length_pos_iff.mpr h
  rw [hsame] at hlen
  omega

theorem idempotent_iff : Idempotent r routes header value service ↔ r.selectRoutes routes = [] := by
  constructor
  · intro h
    by_contra hsel
    have htwice : set r header value service (set r header value service (stored routes)) =
      set r header value service (stored routes) := h 1
    rw [set_of_selected hsel, set_of_selected (selectRoutes_insertAt hsel)] at htwice
    exact inserted_ne _ _ _ (selectRoutes_insertAt hsel) (stored_inj.mp htwice)
  · intro hnone n
    rw [Function.iterate_fixed (set_of_none hnone), set_of_none hnone]

/-- Where a route is selected there is a route that does not mention the header afterwards, if there was one before. -/
theorem restores_iff (h : r.selectRoutes routes ≠ []) :
    Restores r routes header value service ↔ ∀ route ∈ routes, hasHeader header route = .ok false := by
  rw [Restores, set_of_selected h, remove_stored, keepRoutes_insertAt, stored_inj]
  have hne := inserted_ne header value service h
  cases hkeep : keepRoutes header routes with
  | error e =>
    refine iff_of_false hne fun hall => ?_
    obtain ⟨route, hmem, herror⟩ := keepRoutes_error hkeep
    rw [hall route hmem] at herror
    cases herror
  | ok keep =>
  have hroutes : routes ≠ [] := by
    rintro rfl
    refine h ?_
    rw [Router.selectRoutes]
    split_ifs with hnames hone
    · rfl
    · cases hone
    · rfl
  rw [← keepRoutes_eq_self hkeep]
  by_cases hnil : keep = []
  · simp only [hnil, isEmpty_nil, if_true]
    exact iff_of_false hne (Ne.symm hroutes)
  · have hsome : keep.isEmpty = false := by simpa using hnil
    simp [hsome]
end

/-- **When header routes are reversible**: never where a route is selected, since each call then adds routes. -/
theorem header_routes_reversible_iff (r : Router) (routes : List Value) (header value service : String) :
    (Reversible r routes header value service ↔ r.selectRoutes routes = [] ∧
      ((∃ route ∈ routes, hasHeader header route = .error ()) ∨ (∀ route ∈ routes, hasHeader header route = .ok false) ∨
        ∀ route ∈ routes, hasHeader header route = .ok true)) ∧
      RoutesOthersAlike r routes header value service ∧ (r.selectRoutes routes ≠ [] →
          (Restores r routes header value service ↔ ∀ route ∈ routes, hasHeader header route = .ok false)) := by
  refine ⟨⟨fun h => ?_, fun ⟨hnone, hroutes⟩ => ⟨idempotent_iff.mpr hnone, routesOthersAlike, ?_⟩⟩, routesOthersAlike,
    restores_iff⟩
  · have hnone := idempotent_iff.mp h.idempotent
    have hrestores := h.restores
    rw [Restores, set_of_none hnone, remove_stored, stored_inj] at hrestores
    exact ⟨hnone, restored_iff.mp hrestores⟩
  · rw [Restores, set_of_none hnone, remove_stored, stored_inj]
    exact restored_iff.mpr hroutes

/-- A second call puts a second header route before the only route. -/
theorem header_route_is_repeated : ¬Reversible ⟨"web-stable", "web-canary", []⟩ [.obj [("name", .str "primary")]] "x-variant" "b"
    "web-canary" := fun h => by
  have hnone := idempotent_iff.mp h.idempotent
  cases hnone

end Paprika.Traffic.Istio
