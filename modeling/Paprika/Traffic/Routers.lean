import Paprika.Lib.Run
import Paprika.Rollouts.Types
import Paprika.Traffic.Entries

/-!
# Traffic: the Istio and Gateway API routers

A call reads the route object, works on a copy of its rules and writes the object back.  `Istio.Router` picks some of
the HTTP routes of a VirtualService, `GatewayAPI.Router` works on every rule of an HTTPRoute.

`traffic_weights` follows an object through any sequence of calls.  `RemoveCanary` deletes the canary destination, and
a later `SetWeight`, which is content with one matching destination, does not bring it back; on Istio a removal also
sets the destinations of other services to 100.  `traffic_weights_lost` has one object for each.
-/

namespace Paprika.Traffic

open Lib.Run Lib.Unstructured List Option

/-- The route object of a router, as far as the router reads it: what `NestedSlice` returns for its rules. -/
structure RouteObject where
  rules : Except Unit (Option (List Value))

inductive Operation
  | setWeight (weight : Int)
  | removeCanary
  deriving DecidableEq

/-- One call, and whether the API serves its read and its write. -/
structure Call where
  op : Operation
  get : Bool
  update : Bool

def RouteObject.read (o : RouteObject) (get : Bool) : Except RouterError (Option (List Value)) :=
  if !get then .error .getFailed
  else
    match o.rules with
    | .error _ => .error .unreadableRules
    | .ok rules => .ok rules

def RouteObject.write (o : RouteObject) (update : Bool) (rules : List Value) : RouteObject × Except RouterError Unit :=
  if update then ({ rules := .ok (some rules) }, .ok ()) else (o, .error .updateFailed)

/-! ### Istio -/

namespace Istio

structure Router where
  stableSvc : String
  canarySvc : String
  routes : List String

/-- The host of a service, bare or with its domain. -/
def isHostOf (svc host : String) : Bool := (svc ++ ".").toList.isPrefixOf host.toList || host == svc

def Router.serviceOf (r : Router) (d : Fields) : Except Unit (Option Service) :=
  match nestedString d ["destination", "host"] with
  | .error e => .error e
  | .ok host =>
    if isHostOf r.canarySvc (host.getD "") then .ok (some .canary)
    else if isHostOf r.stableSvc (host.getD "") then .ok (some .stable)
    else .ok none

/-- A removal sets every destination that it keeps to 100. -/
def Router.backend (r : Router) : Backend where
  key := "route"
  service := r.serviceOf
  service_weight m v := by
    simp only [Router.serviceOf, nestedString_setField (show "destination" ≠ "weight" by decide)]
  resets _ := true
  resets_stable := rfl

def routeName : Value → Option (Except Unit (Option String))
  | .obj route => some (nestedString route ["name"])
  | _ => none

/-- The positions of the routes with the configured names; without any, the only route or the first unnamed one. -/
def Router.selectRoutes (r : Router) (httpRoutes : List Value) : List Nat :=
  if !r.routes.isEmpty then
    httpRoutes.zipIdx.flatMap (fun (route, idx) =>
      match routeName route with
      | some (.ok name) => (r.routes.filter (fun target => name.getD "" == target)).map (fun _ => idx)
      | _ => [])
  else if httpRoutes.length == 1 then [0]
  else
    match httpRoutes.findIdx? (fun route =>
      match routeName route with
      | none | some (.ok (some _)) => false
      | some _ => true) with
    | some idx => [idx]
    | none => []

def Router.patchHTTPRoutes (r : Router) (httpRoutes : List Value) (routesToPatch : List Nat) (weight : Int) :
    Except RouterError (List Value × Bool) :=
  visit (patchRule r.backend weight) routesToPatch (httpRoutes, false)

def Router.setWeight (r : Router) (vs : RouteObject) (get update : Bool) (weight : Int) :
    RouteObject × Except RouterError Unit :=
  match vs.read get with
  | .error e => (vs, .error e)
  | .ok httpRoutes =>
    let httpRoutes := httpRoutes.getD []
    let routesToPatch := r.selectRoutes httpRoutes
    if routesToPatch.isEmpty then (vs, .error .noMatchingRoutes)
    else
      match r.patchHTTPRoutes httpRoutes routesToPatch weight with
      | .error e => (vs, .error e)
      | .ok (httpRoutes, patched) => if !patched then (vs, .error .noMatchingService) else vs.write update httpRoutes

def Router.removeCanary (r : Router) (vs : RouteObject) (get update : Bool) : RouteObject × Except RouterError Unit :=
  match vs.read get with
  | .error e => (vs, .error e)
  | .ok none => (vs, .ok ())
  | .ok (some httpRoutes) =>
    match visit (stripRule r.backend) (r.selectRoutes httpRoutes) (httpRoutes, false) with
    | .error e => (vs, .error e)
    | .ok (httpRoutes, _) => vs.write update httpRoutes

end Istio

/-! ### Gateway API -/

namespace GatewayAPI

structure Router where
  stableSvc : String
  canarySvc : String

def Router.serviceOf (r : Router) (b : Fields) : Except Unit (Option Service) :=
  match nestedString b ["name"] with
  | .error e => .error e
  | .ok name =>
    if name.getD "" = r.canarySvc then .ok (some .canary)
    else if name.getD "" = r.stableSvc then .ok (some .stable)
    else .ok none

/-- A removal sets the stable backend to 100. -/
def Router.backend (r : Router) : Backend where
  key := "backendRefs"
  service := r.serviceOf
  service_weight m v := by simp only [Router.serviceOf, nestedString_setField (show "name" ≠ "weight" by decide)]
  resets s := decide (s = some .stable)
  resets_stable := rfl

def getHTTPRouteWithRules (hr : RouteObject) (get : Bool) : Except RouterError (Option (List Value)) :=
  match hr.read get with
  | .error e => .error e
  | .ok rules => .ok (rules.filter (fun rules => !rules.isEmpty))

def Router.setWeight (r : Router) (hr : RouteObject) (get update : Bool) (weight : Int) :
    RouteObject × Except RouterError Unit :=
  match getHTTPRouteWithRules hr get with
  | .error e => (hr, .error e)
  | .ok none => (hr, .error .noMatchingRoutes)
  | .ok (some rules) =>
    match visit (patchRule r.backend weight) (List.range rules.length) (rules, false) with
    | .error e => (hr, .error e)
    | .ok (rules, patched) => if !patched then (hr, .error .noMatchingService) else hr.write update rules

def Router.removeCanary (r : Router) (hr : RouteObject) (get update : Bool) : RouteObject × Except RouterError Unit :=
  match getHTTPRouteWithRules hr get with
  | .error e => (hr, .error e)
  | .ok none => (hr, .ok ())
  | .ok (some rules) =>
    match visit (stripRule r.backend) (List.range rules.length) (rules, false) with
    | .error e => (hr, .error e)
    | .ok (rules, _) => hr.write update rules

end GatewayAPI

/-! ### Either router -/

/-- `WeightRouter`, with its two implementations. -/
inductive Router
  | istio (r : Istio.Router)
  | gatewayAPI (r : GatewayAPI.Router)

namespace Router

def backend : Router → Backend
  | istio r => r.backend
  | gatewayAPI r => r.backend

/-- The positions of the selected rules; Gateway API rules are all selected. -/
def select : Router → List Value → List Nat
  | istio r, rules => r.selectRoutes rules
  | gatewayAPI _, rules => List.range rules.length

def call (r : Router) (o : RouteObject) (c : Call) : RouteObject × Except RouterError Unit :=
  match r, c.op with
  | istio r, .setWeight weight => r.setWeight o c.get c.update weight
  | istio r, .removeCanary => r.removeCanary o c.get c.update
  | gatewayAPI r, .setWeight weight => r.setWeight o c.get c.update weight
  | gatewayAPI r, .removeCanary => r.removeCanary o c.get c.update

def step (r : Router) (o : RouteObject) (c : Call) : RouteObject := (r.call o c).1

end Router

def Operation.apply (B : Backend) : Operation → Value → Except RouterError (Value × Bool)
  | .setWeight weight => patchRule B weight
  | .removeCanary => stripRule B

/-! ### What the calls promise -/

/-- What a successful call leaves in a selected rule. -/
def Operation.Holds (B : Backend) (rule : Value) : Operation → Prop
  | .setWeight w => weights B .canary rule = [some (.num w)] ∧ weights B .stable rule = [some (.num (100 - w))]
  | .removeCanary => (∀ x ∈ weights B .canary rule, x = some (.num 0)) ∧ weights B .stable rule = [some (.num 100)]

/-- A successful call: the selected rules have the weights of the operation, their other destinations and all rules
that are not selected are as they were. -/
structure Correct (r : Router) (op : Operation) (before after : List Value) : Prop where
  selected : ∀ i ∈ r.select before, ∃ a b, before[i]? = some a ∧ after[i]? = some b ∧ op.Holds r.backend b ∧
    others r.backend b = others r.backend a ∧ SameOutside r.backend a b
  unselected : ∀ i, i ∉ r.select before → after[i]? = before[i]?

/-- What one call promises: it succeeds as above or leaves the object alone; and a removal that the API serves fails
only where an entry of a selected rule cannot be read. -/
def StepCorrect (r : Router) (o : RouteObject) (c : Call) : Prop :=
  match r.call o c with
  | (o', .ok _) => ∃ before after, o.rules = .ok (some before) ∧ o'.rules = .ok (some after) ∧
      Correct r c.op before after
  | (o', .error _) => o' = o ∧ (c.op = .removeCanary → c.get = true → c.update = true →
      ∀ rules, o.rules = .ok (some rules) →
        ∃ i ∈ r.select rules, ∃ rule, rules[i]? = some rule ∧ ¬Readable r.backend rule)

def HoldsBoth (r : Router) (rules : List Value) : Prop :=
  ∀ i ∈ r.select rules, ∃ rule, rules[i]? = some rule ∧ (weights r.backend .stable rule).length = 1 ∧
    (weights r.backend .canary rule).length = 1

/-- A call that the API serves finds the canary destinations that it is to weigh, and a removal the other destinations
as it would leave them. -/
def FindsItsDestinations (r : Router) (o : RouteObject) (c : Call) : Prop :=
  c.get = true → c.update = true → ∀ rules, o.rules = .ok (some rules) → ∀ i ∈ r.select rules, ∀ rule,
    rules[i]? = some rule →
      match c.op with
      | .setWeight _ => weights r.backend .canary rule ≠ []
      | .removeCanary => Settled r.backend rule

/-! ### One rule -/

/-- What an operation does to a rule. -/
def Operation.Effect (B : Backend) : Operation → Value → Value → Prop
  | .setWeight w => Reweighted B w
  | .removeCanary => Stripped B

section
variable {B : Backend} {a b c : Value}

variable (op : Operation)

theorem effect_of_apply {modified : Bool} (h : op.apply B a = .ok (b, modified)) : op.Effect B a b := by
  cases op with
  | setWeight w => exact patchRule_rel h
  | removeCanary => exact stripRule_rel h

theorem effect_trans (hab : op.Effect B a b) (hbc : op.Effect B b c) : op.Effect B a c := by
  cases op with
  | setWeight w => exact Reweighted.trans hab hbc
  | removeCanary => exact Stripped.trans hab hbc

theorem effect_outside (h : op.Effect B a b) : SameOutside B a b := by
  cases op with
  | setWeight w => exact h.outside
  | removeCanary => exact h.outside

/-- One stable destination, and at most one canary destination. -/
structure HoldsStable (B : Backend) (rule : Value) : Prop where
  stable : (weights B .stable rule).length = 1
  canary : (weights B .canary rule).length ≤ 1

/-- What the guard says of one rule. -/
def Operation.FindsIn (B : Backend) (rule : Value) : Operation → Prop
  | .setWeight _ => weights B .canary rule ≠ []
  | .removeCanary => Settled B rule

/-- On a rule that holds what it looks for, an operation does what it promises. -/
theorem effect_holds (h : op.Effect B a b) (ha : HoldsStable B a) (hfinds : op.FindsIn B a) :
    op.Holds B b ∧ others B b = others B a ∧ HoldsStable B b := by
  obtain ⟨x, hx⟩ := length_eq_one_iff.mp ha.stable
  cases op with
  | setWeight w =>
    have hone : (weights B .canary a).length = 1 := by
      have hpos := length_pos_iff.mpr hfinds
      have hle := ha.canary
      omega
    obtain ⟨y, hy⟩ := length_eq_one_iff.mp hone
    have hcanary := h.weights .canary
    have hstable := h.weights .stable
    rw [hy] at hcanary
    rw [hx] at hstable
    refine ⟨⟨hcanary, hstable⟩, h.others, ⟨?_, ?_⟩⟩
    · rw [hstable]
      rfl
    · rw [hcanary]
      exact le_refl 1
  | removeCanary =>
    have hcanary := h.canary
    have hstable := h.stable
    rw [hx] at hstable
    refine ⟨⟨?_, hstable⟩, h.others hfinds, ⟨?_, ?_⟩⟩
    · rw [hcanary]
      intro z hz
      cases hz
    · rw [hstable]
      rfl
    · rw [hcanary]
      exact Nat.zero_le 1
end

/-! ### One call -/

section
variable {r : Router} {o : RouteObject} {before after : List Value}

/-- The selection of `selectRoutes`, read off the names of the routes. -/
def selectByNames (targets : List String) (names : List (Option (Except Unit (Option String)))) : List Nat :=
  if !targets.isEmpty then
    names.zipIdx.flatMap (fun (name, idx) =>
      match name with
      | some (.ok name) => (targets.filter (fun target => name.getD "" == target)).map (fun _ => idx)
      | _ => [])
  else if names.length == 1 then [0]
  else
    match names.findIdx? (fun name =>
      match name with
      | none | some (.ok (some _)) => false
      | some _ => true) with
    | some idx => [idx]
    | none => []

theorem select_congr (r : Router) (hlen : after.length = before.length)
    (h : ∀ (i : Nat) a, before[i]? = some a → ∃ b, after[i]? = some b ∧ SameOutside r.backend a b) :
    r.select after = r.select before := by
  cases r with
  | gatewayAPI r =>
    show List.range after.length = List.range before.length
    rw [hlen]
  | istio r =>
  have hname : ∀ a b, SameOutside r.backend a b → Istio.routeName b = Istio.routeName a := by
    rintro a b (rfl | ⟨ra, rb, rfl, rfl, hr⟩)
    · rfl
    · have hlook := hr "name" (show "name" ≠ "route" by decide)
      simp only [Istio.routeName, nestedString, nestedField, hlook]
  have hnames : after.map Istio.routeName = before.map Istio.routeName := by
    apply ext_getElem?
    intro i
    rw [List.getElem?_map, List.getElem?_map]
    cases hi : before[i]? with
    | none => rw [List.getElem?_eq_none (by rw [hlen]; exact List.getElem?_eq_none_iff.mp hi)]
    | some a =>
      obtain ⟨b, hb, hab⟩ := h i a hi
      rw [hb, map_some, map_some, hname a b hab]
  have hselect : ∀ rules : List Value, r.selectRoutes rules = selectByNames r.routes (rules.map Istio.routeName) := by
    intro rules
    unfold selectByNames
    rw [zipIdx_map, flatMap_map, length_map, List.findIdx?_map]
    rfl
  show r.selectRoutes after = r.selectRoutes before
  rw [hselect, hselect, hnames]

theorem write_cases (o : RouteObject) (update : Bool) (after : List Value) :
    (update = false ∧ o.write update after = (o, .error .updateFailed)) ∨
      update = true ∧ o.write update after = ({ rules := .ok (some after) }, .ok ()) := by
  cases update with
  | false => exact .inl ⟨rfl, rfl⟩
  | true => exact .inr ⟨rfl, rfl⟩

theorem call_cases (r : Router) (hrules : o.rules = .ok (some before)) (c : Call) :
    (∃ e, r.call o c = (o, .error e) ∧ (c.op = .removeCanary → c.get = true → c.update = true →
      ∃ e, visit (stripRule r.backend) (r.select before) (before, false) = .error e)) ∨
    ∃ after flag, r.call o c = ({ rules := .ok (some after) }, .ok ()) ∧
      visit (c.op.apply r.backend) (r.select before) (before, false) = .ok (after, flag) ∧
      c.get = true ∧ (r.select before ≠ [] → c.update = true) := by
  obtain ⟨op, get, update⟩ := c
  cases get with
  | false =>
    refine .inl ⟨.getFailed, ?_, (fun _ h => by cases h)⟩
    cases r <;> cases op <;> rfl
  | true =>
  have hread : o.read true = .ok (some before) := by simp [RouteObject.read, hrules]
  cases r with
  | istio r =>
    cases op with
    | setWeight w =>
      simp only [Router.call, Istio.Router.setWeight, hread, getD_some, Istio.Router.patchHTTPRoutes]
      split
      · exact .inl ⟨_, rfl, fun h => absurd h (by simp)⟩
      split
      · exact .inl ⟨_, rfl, fun h => absurd h (by simp)⟩
      · next after patched hvisit =>
        split
        · exact .inl ⟨_, rfl, fun h => absurd h (by simp)⟩
        · obtain ⟨-, hwrite⟩ | ⟨hupdate, hwrite⟩ := write_cases o update after
          · exact .inl ⟨_, hwrite, fun h => absurd h (by simp)⟩
          · exact .inr ⟨after, patched, hwrite, hvisit, trivial, fun _ => hupdate⟩
    | removeCanary =>
      simp only [Router.call, Istio.Router.removeCanary, hread]
      split
      · next e hvisit => exact .inl ⟨e, rfl, fun _ _ _ => ⟨e, hvisit⟩⟩
      · next after flag hvisit =>
        obtain ⟨hupdate, hwrite⟩ | ⟨hupdate, hwrite⟩ := write_cases o update after
        · exact .inl ⟨_, hwrite, fun _ _ h => absurd (hupdate.symm.trans h) (by decide)⟩
        · exact .inr ⟨after, flag, hwrite, hvisit, trivial, fun _ => hupdate⟩
  | gatewayAPI r =>
    cases hempty : before.isEmpty with
    | true =>
      obtain rfl : before = [] := isEmpty_iff.mp hempty
      have hnone : GatewayAPI.getHTTPRouteWithRules o true = .ok none := by
        simp [GatewayAPI.getHTTPRouteWithRules, hread]
      cases op with
      | setWeight w =>
        simp only [Router.call, GatewayAPI.Router.setWeight, hnone]
        exact .inl ⟨_, rfl, fun h => absurd h (by simp)⟩
      | removeCanary =>
        simp only [Router.call, GatewayAPI.Router.removeCanary, hnone]
        exact .inr ⟨[], false, by rw [← hrules], rfl, trivial, fun h => absurd rfl h⟩
    | false =>
      have hsome : GatewayAPI.getHTTPRouteWithRules o true = .ok (some before) := by
        simp [GatewayAPI.getHTTPRouteWithRules, hread, hempty]
      cases op with
      | setWeight w =>
        simp only [Router.call, GatewayAPI.Router.setWeight, hsome]
        split
        · exact .inl ⟨_, rfl, fun h => absurd h (by simp)⟩
        · next after patched hvisit =>
          split
          · exact .inl ⟨_, rfl, fun h => absurd h (by simp)⟩
          · obtain ⟨-, hwrite⟩ | ⟨hupdate, hwrite⟩ := write_cases o update after
            · exact .inl ⟨_, hwrite, fun h => absurd h (by simp)⟩
            · exact .inr ⟨after, patched, hwrite, hvisit, trivial, fun _ => hupdate⟩
      | removeCanary =>
      simp only [Router.call, GatewayAPI.Router.removeCanary, hsome]
      split
      · next e hvisit => exact .inl ⟨e, rfl, fun _ _ _ => ⟨e, hvisit⟩⟩
      · next after flag hvisit =>
        obtain ⟨hupdate, hwrite⟩ | ⟨hupdate, hwrite⟩ := write_cases o update after
        · exact .inl ⟨_, hwrite, fun _ _ h => absurd (hupdate.symm.trans h) (by decide)⟩
        · exact .inr ⟨after, flag, hwrite, hvisit, trivial, fun _ => hupdate⟩

def ObjectInv (r : Router) (o : RouteObject) : Prop :=
  ∃ rules, o.rules = .ok (some rules) ∧ ∀ i ∈ r.select rules, ∃ rule, rules[i]? = some rule ∧ HoldsStable r.backend rule

/-- **One call.**  A call that finds its destinations keeps its promise and the invariant. -/
theorem call_correct {c : Call} (hinv : ObjectInv r o) (hfinds : FindsItsDestinations r o c) :
    StepCorrect r o c ∧ ObjectInv r (r.step o c) := by
  obtain ⟨rules, hrules, hstable⟩ := hinv
  obtain ⟨e, hcall, hreason⟩ | ⟨after, flag, hcall, hvisit, hget, hupdate⟩ := call_cases r hrules c
  · refine ⟨?_, ?_⟩
    · rw [StepCorrect, hcall]
      refine ⟨rfl, ?_⟩
      intro hop hget hupdate rules' hrules'
      obtain rfl : rules' = rules := by
        rw [hrules] at hrules'
        cases hrules'
        rfl
      by_contra hread
      obtain ⟨e', herror⟩ := hreason hop hget hupdate
      have hok := visit_ok (f := stripRule r.backend) (P := Readable r.backend) (fun a ha => stripRule_ok ha)
        (?_ : ∀ i ∈ r.select rules', ∀ rule, (rules', false).1[i]? = some rule → Readable r.backend rule)
      · obtain ⟨t, ht⟩ := hok
        rw [herror] at ht
        cases ht
      · intro i hi rule hrule
        by_contra hnot
        exact hread ⟨i, hi, rule, hrule, hnot⟩
    · rw [Router.step, hcall]
      exact ⟨rules, hrules, hstable⟩
  · obtain ⟨hlen, hother, hvisited⟩ := visit_rel (R := c.op.Effect r.backend) (fun _ _ _ => effect_trans c.op)
      (fun _ _ _ => effect_of_apply c.op) hvisit
    have houtside : ∀ (i : Nat) a, rules[i]? = some a → ∃ b, after[i]? = some b ∧ SameOutside r.backend a b := by
      intro i a ha
      by_cases hi : i ∈ r.select rules
      · obtain ⟨b, hb, heffect⟩ := hvisited i hi a ha
        exact ⟨b, hb, effect_outside c.op heffect⟩
      · exact ⟨a, (hother i hi).trans ha, SameOutside.refl a⟩
    have hsel : ∀ i ∈ r.select rules, ∃ a b, rules[i]? = some a ∧ after[i]? = some b ∧
        (c.op.Holds r.backend b ∧ others r.backend b = others r.backend a ∧ HoldsStable r.backend b) ∧
          SameOutside r.backend a b := by
      intro i hi
      obtain ⟨a, ha, hold⟩ := hstable i hi
      obtain ⟨b, hb, heffect⟩ := hvisited i hi a ha
      have hfind : c.op.FindsIn r.backend a := by
        have := hfinds hget (hupdate (ne_nil_of_mem hi)) rules hrules i hi a ha
        cases hop : c.op <;> rw [hop] at this <;> exact this
      exact ⟨a, b, ha, hb, effect_holds c.op heffect hold hfind, effect_outside c.op heffect⟩
    refine ⟨?_, ?_⟩
    · rw [StepCorrect, hcall]
      refine ⟨rules, after, hrules, rfl, ?_, hother⟩
      intro i hi
      obtain ⟨a, b, ha, hb, ⟨hholds, hothers, -⟩, hsame⟩ := hsel i hi
      exact ⟨a, b, ha, hb, hholds, hothers, hsame⟩
    rw [Router.step, hcall]
    refine ⟨after, rfl, ?_⟩
    rw [select_congr r hlen houtside]
    intro i hi
    obtain ⟨-, b, -, hb, ⟨-, -, hkept⟩, -⟩ := hsel i hi
    exact ⟨b, hb, hkept⟩
end

/-! ### Runs -/

/-- **Traffic weights.**  On an object whose selected rules each hold one stable and one canary destination, every call
of a sequence keeps its promise, as long as each finds its destinations. -/
theorem traffic_weights (r : Router) (o : RouteObject) (rules : List Value) (hrules : o.rules = .ok (some rules))
    (hboth : HoldsBoth r rules) (calls : List Call) (hguard : Guarded r.step (FindsItsDestinations r) o calls) :
    ∀ earlier c later, calls = earlier ++ c :: later → StepCorrect r (run r.step o earlier) c := by
  have hinit : ObjectInv r o := by
    refine ⟨rules, hrules, ?_⟩
    intro i hi
    obtain ⟨rule, hrule, hstable, hcanary⟩ := hboth i hi
    exact ⟨rule, hrule, hstable, Nat.le_of_eq hcanary⟩
  intro earlier c later hcalls
  rw [hcalls, guarded_append] at hguard
  have hinv := guarded_invariant (motive := ObjectInv r) (fun o c ho hc => (call_correct ho hc).2) hinit hguard.1
  exact (call_correct hinv hguard.2.1).1

/-! ### Two objects -/

/-- An entry as Istio writes it. -/
def sampleDestination (host : String) (weight : Int) : Value :=
  .obj [("destination", .obj [("host", .str host)]), ("weight", .num weight)]

/-- An entry as Gateway API writes it. -/
def sampleBackendRef (name : String) (weight : Int) : Value := .obj [("name", .str name), ("weight", .num weight)]

def sampleGateway : Router := .gatewayAPI { stableSvc := "web-stable", canarySvc := "web-canary" }

def sampleIstio : Router := .istio { stableSvc := "web-stable", canarySvc := "web-canary", routes := [] }

def sampleHTTPRoute : List Value :=
  [.obj [("backendRefs", .arr [sampleBackendRef "web-stable" 100, sampleBackendRef "web-canary" 0])]]

/-- A VirtualService that sends a tenth of the traffic to a third service. -/
def sampleVirtualService : List Value :=
  [.obj [("route", .arr [sampleDestination "web-stable" 90, sampleDestination "web-canary" 0,
    sampleDestination "legacy" 10])]]

def setWeightCall (w : Int) : Call := { op := .setWeight w, get := true, update := true }

def removeCanaryCall : Call := { op := .removeCanary, get := true, update := true }

theorem findsItsDestinations_of {r : Router} {o : RouteObject} {c : Call} {rules : List Value}
    (hrules : o.rules = .ok (some rules))
    (h : ∀ i ∈ r.select rules, ∀ rule, rules[i]? = some rule → c.op.FindsIn r.backend rule) :
    FindsItsDestinations r o c := by
  intro _ _ rules' hrules' i hi rule hrule
  obtain rfl : rules = rules' := by
    rw [hrules] at hrules'
    cases hrules'
    rfl
  have hfind := h i hi rule hrule
  cases hop : c.op <;> rw [hop] at hfind <;> exact hfind

/-- The first rollout of an HTTPRoute: the removal that ends it leaves all traffic to the stable service. -/
theorem traffic_weights_first_rollout :
    StepCorrect sampleGateway (run sampleGateway.step { rules := .ok (some sampleHTTPRoute) } [setWeightCall 30])
      removeCanaryCall := by
  refine traffic_weights sampleGateway { rules := .ok (some sampleHTTPRoute) } sampleHTTPRoute rfl ?_
    [setWeightCall 30, removeCanaryCall] ⟨?_, ?_, trivial⟩ [setWeightCall 30] removeCanaryCall [] rfl
  · intro i hi
    obtain rfl : i = 0 := by simpa [sampleGateway, Router.select, sampleHTTPRoute] using hi
    exact ⟨_, rfl, by decide, by decide⟩
  · apply findsItsDestinations_of rfl
    intro i hi rule hrule
    obtain rfl : i = 0 := by simpa [sampleGateway, Router.select, sampleHTTPRoute] using hi
    obtain rfl := some.inj hrule
    intro hnone
    have hlength := congrArg List.length hnone
    revert hlength
    decide
  · intro _ _ rules _ i _ rule _ hreset
    exact absurd hreset (by decide)

/-- Every call of every sequence keeps its promise on an object whose selected rules hold both services. -/
def AllCallsCorrect (r : Router) : Prop :=
  ∀ (o : RouteObject) (rules : List Value), o.rules = .ok (some rules) → HoldsBoth r rules →
    ∀ calls earlier c later, calls = earlier ++ c :: later → StepCorrect r (run r.step o earlier) c

theorem StepCorrect.of_ok {r : Router} {o : RouteObject} {c : Call} (h : StepCorrect r o c)
    (hok : (r.call o c).2.isOk = true) :
    ∃ before after, o.rules = .ok (some before) ∧ (r.step o c).rules = .ok (some after) ∧ Correct r c.op before after := by
  rw [StepCorrect] at h
  rw [Router.step]
  cases hcall : r.call o c with
  | mk o' result =>
    rw [hcall] at h hok
    cases result with
    | ok u => exact h
    | error e => cases hok

def RouteObject.report {α : Type} (o : RouteObject) (f : Value → α) : List α :=
  match o.rules with
  | .ok (some rules) => rules.map f
  | _ => []

theorem report_eq {α : Type} {o : RouteObject} {rules : List Value} (h : o.rules = .ok (some rules)) (f : Value → α) :
    o.report f = rules.map f := by
  rw [RouteObject.report, h]

/-- The weights of the destinations of neither service. -/
def otherWeights (B : Backend) (rule : Value) : List Int :=
  (others B rule).filterMap (fun e =>
    match weightOf e with
    | some (.num n) => some n
    | _ => none)

/-- On an HTTPRoute the rollout after the first finds no canary backend to weigh, and its `SetWeight` succeeds; on a
VirtualService the first removal gives a third destination the weight 100. -/
theorem traffic_weights_lost : ¬AllCallsCorrect sampleGateway ∧ ¬AllCallsCorrect sampleIstio := by
  constructor
  · intro hall
    have hboth : HoldsBoth sampleGateway sampleHTTPRoute := by
      intro i hi
      obtain rfl : i = 0 := by simpa [sampleGateway, Router.select, sampleHTTPRoute] using hi
      exact ⟨_, rfl, by decide, by decide⟩
    have hstep := hall { rules := .ok (some sampleHTTPRoute) } sampleHTTPRoute rfl hboth
      [removeCanaryCall, setWeightCall 30] [removeCanaryCall] (setWeightCall 30) [] rfl
    obtain ⟨before, after, hbefore, hafter, hcorrect⟩ := hstep.of_ok (by decide)
    have hselect : before.length = 1 := by
      have hreport := report_eq hbefore (fun _ => ())
      have hlength := congrArg List.length hreport
      rw [length_map] at hlength
      rw [← hlength]
      decide
    have hzero : 0 ∈ sampleGateway.select before := by simp [sampleGateway, Router.select, hselect]
    obtain ⟨_, b, _, hb, ⟨hcanary, -⟩, -⟩ := hcorrect.selected 0 hzero
    have hreport := report_eq hafter (fun rule => (weights sampleGateway.backend .canary rule).length)
    have hcount := congrArg (fun l => l[0]?) hreport
    simp only [List.getElem?_map, hb, map_some, hcanary] at hcount
    revert hcount
    decide
  · intro hall
    have hselect : sampleIstio.select sampleVirtualService = [0] := by decide
    have hboth : HoldsBoth sampleIstio sampleVirtualService := by
      intro i hi
      rw [hselect, mem_singleton] at hi
      subst hi
      exact ⟨_, rfl, by decide, by decide⟩
    have hstep := hall { rules := .ok (some sampleVirtualService) } sampleVirtualService rfl hboth
      [removeCanaryCall] [] removeCanaryCall [] rfl
    obtain ⟨before, after, hbefore, hafter, hcorrect⟩ := hstep.of_ok (by decide)
    obtain rfl : sampleVirtualService = before := by
      cases hbefore
      rfl
    obtain ⟨a, b, ha, hb, -, hothers, -⟩ := hcorrect.selected 0 (by rw [hselect]; exact mem_singleton.mpr rfl)
    have hreport := report_eq hafter (otherWeights sampleIstio.backend)
    have hweights := congrArg (fun l => l[0]?) hreport
    obtain rfl := some.inj ha
    simp only [List.getElem?_map, hb, map_some] at hweights
    rw [otherWeights, hothers] at hweights
    revert hweights
    decide

end Paprika.Traffic
