import Paprika.Insights.TemplateAgreement

/-!
# Saved queries resolve alike

The server resolves a saved query from its parameters, the bindings of a reference and the variables of a dashboard; so does
the browser, which reads the query through its schema first.

* `TemplateBinding` — a binding to a constant or to a variable, as either side has it;
* `Found` — the values that either side finds for the parameters: `serverValues_iff`, `found_of_templateValues`;
* `queryDocument_savedObject` — what the browser reads of a saved query;
* **`resolve_agree`** — both sides fail, or both find the same text.
-/

namespace Paprika.Insights

open Lib.KeyedMap List Except

variable {F : Numbers}

/-! ### Bindings -/

/-- A text or a finite number, and its value. -/
structure Constant (F : Numbers) where
  raw : Json
  value : Value F
  reads : literalValue F raw = some value

inductive TemplateBinding (F : Numbers) where
  | constant (parameter : String) (c : Constant F)
  | fromVariable (parameter name : String)

namespace TemplateBinding

def parameter : TemplateBinding F → String
  | .constant parameter _ => parameter
  | .fromVariable parameter _ => parameter

def server : TemplateBinding F → QueryBinding
  | .constant parameter c => ⟨parameter, "constant", "", "", "", some c.raw⟩
  | .fromVariable parameter name => ⟨parameter, "variable", name, "", "", none⟩

def browser : TemplateBinding F → BrowserBinding F
  | .constant parameter c => ⟨parameter, .constant c.value⟩
  | .fromVariable parameter name => ⟨parameter, .fromVariable name⟩

def value (given : String → Option String) : TemplateBinding F → Option (Value F)
  | .constant _ c => some c.value
  | .fromVariable _ name => (given name).map .text

end TemplateBinding

open TemplateBinding

/-! ### The values that the server finds -/

variable {ps : List SavedQueryParameter}

section
variable {parameters : List SavedQueryParameter} {given : String → Option String} {bindings : List QueryBinding}

theorem defaultValues_values : ∀ {values values' : Values F},
    (ps.map (·.name)).Nodup → (∀ p ∈ ps, Checked F p) → defaultValues ps values = .ok values' →
    (∀ p ∈ ps, values' p.name = (p.defaultValue.bind (literalValue F)).or (values p.name)) ∧
      ∀ name, name ∉ ps.map (·.name) → values' name = values name := by
  induction ps with
  | nil =>
    intro values values' _ _ h
    obtain rfl := ok.inj h
    exact ⟨fun p hp => absurd hp not_mem_nil, fun _ _ => rfl⟩
  | cons p ps ih =>
    intro values values' hps hchecked h
    obtain ⟨hp, hrest⟩ := nodup_cons.mp hps
    have hother : ∀ q ∈ ps, q.name ≠ p.name := fun q hq heq => hp (mem_map.mpr ⟨q, hq, heq⟩)
    have hchecked' : ∀ q ∈ ps, Checked F q := fun q hq => hchecked q (mem_cons_of_mem _ hq)
    rw [defaultValues] at h
    cases hdefault : p.defaultValue with
    | none =>
      rw [hdefault] at h
      obtain ⟨hset, hkept⟩ := ih hrest hchecked' h
      refine ⟨?_, ?_⟩
      · intro q hq
        rcases mem_cons.mp hq with rfl | hq
        · rw [hdefault, hkept q.name hp]
          rfl
        · exact hset q hq
      · intro name hname
        exact hkept name fun hin => hname (mem_cons_of_mem _ hin)
    | some raw =>
      obtain ⟨value, hvalue, -, -⟩ := value_of_literal ((hchecked p mem_cons_self).default raw hdefault)
      rw [hdefault] at h
      simp only [decodeAny_of_literal hvalue] at h
      obtain ⟨hset, hkept⟩ := ih hrest hchecked' h
      refine ⟨?_, ?_⟩
      · intro q hq
        rcases mem_cons.mp hq with rfl | hq
        · rw [hdefault, hkept q.name hp, Values.set_self, Option.bind_some, hvalue]
          rfl
        · rw [hset q hq, Values.set_of_ne (hother q hq)]
      · intro name hname
        rw [hkept name fun hin => hname (mem_cons_of_mem _ hin)]
        exact Values.set_of_ne fun heq => hname (heq ▸ mem_cons_self)

theorem bindValues_values : ∀ {values values' : Values F}, (bindings.map (·.parameter)).Nodup →
    bindValues parameters given bindings values = .ok values' →
    (∀ b ∈ bindings, ∃ p value checked, queryParameters parameters b.parameter = some p ∧
      dashboardBindingValue b given = .ok value ∧ dashboardParameterValue p.type value = .ok checked ∧
      values' b.parameter = some checked) ∧
      ∀ name, name ∉ bindings.map (·.parameter) → values' name = values name := by
  induction bindings with
  | nil =>
    intro values values' _ h
    obtain rfl := ok.inj h
    exact ⟨fun b hb => absurd hb not_mem_nil, fun _ _ => rfl⟩
  | cons b bindings ih =>
    intro values values' hbs h
    obtain ⟨hb, hrest⟩ := nodup_cons.mp hbs
    rw [bindValues] at h
    cases hp : queryParameters parameters b.parameter with
    | none =>
      simp only [hp] at h
      cases h
    | some p =>
    cases hvalue : (dashboardBindingValue b given : Except QueryError (Option (Value F))) with
    | error e =>
      simp only [hp, hvalue] at h
      cases h
    | ok value =>
    cases hchecked : dashboardParameterValue p.type value with
    | error e =>
      simp only [hp, hvalue, hchecked] at h
      cases h
    | ok checked =>
    simp only [hp, hvalue, hchecked] at h
    obtain ⟨hset, hkept⟩ := ih hrest h
    refine ⟨?_, ?_⟩
    · intro c hc
      rcases mem_cons.mp hc with rfl | hc
      · refine ⟨p, value, checked, hp, hvalue, hchecked, ?_⟩
        rw [hkept _ hb, Values.set_self]
      · exact hset c hc
    · intro name hname
      rw [hkept name fun hin => hname (mem_cons_of_mem _ hin)]
      exact Values.set_of_ne fun heq => hname (heq ▸ mem_cons_self)

theorem checkValues_values : ∀ {values values' : Values F}, (ps.map (·.name)).Nodup →
    checkValues ps values = .ok values' →
    (∀ p ∈ ps, ∃ checked, dashboardParameterValue p.type (values p.name) = .ok checked ∧ values' p.name = some checked) ∧
      ∀ name, name ∉ ps.map (·.name) → values' name = values name := by
  induction ps with
  | nil =>
    intro values values' _ h
    obtain rfl := ok.inj h
    exact ⟨fun p hp => absurd hp not_mem_nil, fun _ _ => rfl⟩
  | cons p ps ih =>
    intro values values' hps h
    obtain ⟨hp, hrest⟩ := nodup_cons.mp hps
    have hother : ∀ q ∈ ps, q.name ≠ p.name := fun q hq heq => hp (mem_map.mpr ⟨q, hq, heq⟩)
    rw [checkValues] at h
    cases hchecked : dashboardParameterValue p.type (values p.name) with
    | error e =>
      simp only [hchecked] at h
      cases h
    | ok checked =>
    simp only [hchecked] at h
    obtain ⟨hset, hkept⟩ := ih hrest h
    refine ⟨?_, ?_⟩
    · intro q hq
      rcases mem_cons.mp hq with rfl | hq
      · exact ⟨checked, hchecked, by rw [hkept _ hp, Values.set_self]⟩
      · obtain ⟨c, hc, hvalue⟩ := hset q hq
        rw [Values.set_of_ne (hother q hq)] at hc
        exact ⟨c, hc, hvalue⟩
    · intro name hname
      rw [hkept name fun hin => hname (mem_cons_of_mem _ hin)]
      exact Values.set_of_ne fun heq => hname (heq ▸ mem_cons_self)

/-- The values of `resolveDashboardSavedQuery`: defaults, then bindings, then the checks. -/
def serverValues (F : Numbers) (parameters : List SavedQueryParameter) (given : String → Option String)
    (bindings : List QueryBinding) : Except QueryError (Values F) :=
  match defaultValues parameters (fun _ => (none : Option (Value F))) with
  | .error e => .error e
  | .ok defaults =>
    match bindValues parameters given bindings defaults with
    | .error e => .error e
    | .ok bound => checkValues parameters bound

theorem resolveDashboardSavedQuery_eq {saved : SavedQuery} {reference : QueryReference} :
    resolveDashboardSavedQuery F saved reference given =
      match serverValues F saved.parameters given reference.bindings with
      | .error e => .error e
      | .ok values => interpolateDashboardLiterals saved.query (parameterTypes saved.parameters) values := by
  rw [resolveDashboardSavedQuery, serverValues]
  cases defaultValues saved.parameters (fun _ => (none : Option (Value F))) with
  | error e => rfl
  | ok defaults =>
  cases hbound : bindValues saved.parameters given reference.bindings defaults with
  | error e => simp only [hbound]
  | ok bound =>
    cases hcheck : checkValues saved.parameters bound with
    | error e => simp only [hbound, hcheck]
    | ok values => simp only [hbound, hcheck]

section
variable (hnames : (parameters.map (·.name)).Nodup) (hchecked : ∀ p ∈ parameters, Checked F p)
include hnames hchecked

theorem serverValues_spec (hbind : (bindings.map (·.parameter)).Nodup) {values : Values F}
    (h : serverValues F parameters given bindings = .ok values) :
    (∀ b ∈ bindings, ∃ p value checked, queryParameters parameters b.parameter = some p ∧
      dashboardBindingValue b given = .ok value ∧ dashboardParameterValue p.type value = .ok checked ∧
      values b.parameter = some checked) ∧
      (∀ p ∈ parameters, p.name ∉ bindings.map (·.parameter) → ∃ checked,
        dashboardParameterValue p.type (p.defaultValue.bind (literalValue F)) = .ok checked ∧ values p.name = some checked) ∧
      ∀ name, name ∉ parameters.map (·.name) → values name = none := by
  rw [serverValues] at h
  cases hdefaults : defaultValues parameters (fun _ => (none : Option (Value F))) with
  | error e =>
    simp only [hdefaults] at h
    cases h
  | ok defaults =>
  cases hbound : bindValues parameters given bindings defaults with
  | error e =>
    simp only [hdefaults, hbound] at h
    cases h
  | ok bound =>
  simp only [hdefaults, hbound] at h
  obtain ⟨hdefault, hnone⟩ := defaultValues_values hnames hchecked hdefaults
  obtain ⟨hset, hkept⟩ := bindValues_values hbind hbound
  obtain ⟨hcheck, hother⟩ := checkValues_values hnames h
  refine ⟨?_, ?_, ?_⟩
  · intro b hb
    obtain ⟨p, value, checked, hp, hvalue, hok, hb'⟩ := hset b hb
    obtain ⟨hmem, hname⟩ := queryParameters_some hp
    obtain ⟨c, hc, hfound⟩ := hcheck p hmem
    rw [hname, hb', dashboardParameterValue_again hok] at hc
    obtain rfl := ok.inj hc
    exact ⟨p, value, checked, hp, hvalue, hok, hname ▸ hfound⟩
  · intro p hp hfree
    obtain ⟨c, hc, hfound⟩ := hcheck p hp
    rw [hkept p.name hfree, hdefault p hp, Option.or_none] at hc
    exact ⟨c, hc, hfound⟩
  · intro name hname
    have hfree : name ∉ bindings.map (·.parameter) := by
      intro hin
      obtain ⟨b, hb, rfl⟩ := mem_map.mp hin
      obtain ⟨p, -, -, hp, -⟩ := hset b hb
      obtain ⟨hmem, hpname⟩ := queryParameters_some hp
      exact hname (mem_map.mpr ⟨p, hmem, hpname⟩)
    rw [hother name hname, hkept name hfree, hnone name hname]

theorem serverValues_exists
    (hbound : ∀ b ∈ bindings, Bound F parameters given b) (hsupp : Supplied parameters bindings) :
    ∃ values, serverValues F parameters given bindings = .ok values := by
  have hempty : Fits parameters (fun _ => (none : Option (Value F))) := by
    intro p _ value hvalue
    cases hvalue
  obtain ⟨defaults, hdefaults, hfits, hdefault, -⟩ := defaultValues_ok hchecked hnames (fun _ hp => hp) hnames hempty
  obtain ⟨bound, hbinds, hfits', hthere, hkept⟩ := bindValues_ok hnames hfits hbound
  have hset : ∀ p ∈ parameters, bound p.name ≠ none := by
    intro p hp
    cases hnone : p.defaultValue with
    | none =>
      obtain ⟨b, hb, hname⟩ := hsupp p hp hnone
      rw [← hname]
      exact hthere b hb
    | some raw => exact hkept _ (hdefault p hp (by rw [hnone]; exact Option.some_ne_none _))
  obtain ⟨values, hvalues, -⟩ := checkValues_ok hnames hfits' hset
  exact ⟨values, by simp only [serverValues, hdefaults, hbinds, hvalues]⟩
end

end

/-! ### The values that the browser finds -/

section
variable {given : String → Option String} {ts : List (TemplateBinding F)} {supplied : List (String × Value F)}

theorem browserBindingValue_iff {t : TemplateBinding F} {v : Value F} :
    browserBindingValue given none t.browser.source = .ok v ↔ t.value given = some v := by
  cases t with
  | constant parameter c =>
    constructor
    · intro h
      exact congrArg some (ok.inj h)
    · intro h
      exact congrArg ok (Option.some.inj h)
  | fromVariable parameter name =>
  simp only [browser, TemplateBinding.value, browserBindingValue]
  cases given name with
  | none =>
    constructor
    · intro h
      cases h
    · intro h
      cases h
  | some text =>
  constructor
  · intro h
    exact congrArg some (ok.inj h)
  · intro h
    exact congrArg ok (Option.some.inj h)

theorem dashboardBindingValue_iff {t : TemplateBinding F} {value : Option (Value F)} :
    dashboardBindingValue t.server given = .ok value ↔ ∃ v, t.value given = some v ∧ value = some v := by
  cases t with
  | constant parameter c =>
    have hread : dashboardBindingValue (constant parameter c).server given = .ok (some c.value) := by
      rw [dashboardBindingValue, server, if_pos rfl]
      exact decodeAny_of_literal c.reads
    rw [hread]
    constructor
    · intro h
      exact ⟨c.value, rfl, (ok.inj h).symm⟩
    · rintro ⟨v, hv, rfl⟩
      exact congrArg ok hv
  | fromVariable parameter name =>
  have hsrc : ¬("variable" : String) = "constant" := by decide
  rw [dashboardBindingValue, server, TemplateBinding.value, if_neg hsrc, if_pos rfl]
  cases hgiven : given name with
  | none =>
    constructor
    · intro h
      cases h
    · rintro ⟨v, hv, -⟩
      cases hv
  | some text =>
  constructor
  · intro h
    exact ⟨.text text, rfl, (ok.inj h).symm⟩
  · rintro ⟨v, hv, rfl⟩
    exact congrArg ok hv

theorem supplied_iff (h : suppliedValues given none (ts.map browser) = .ok supplied) :
    supplied.map (·.1) = ts.map (·.parameter) ∧ (∀ t ∈ ts, ∃ v, t.value given = some v) ∧
      ∀ e : String × Value F, e ∈ supplied ↔ ∃ t ∈ ts, t.parameter = e.1 ∧ t.value given = some e.2 := by
  have hbrowser : ∀ t : TemplateBinding F, t.browser.parameter = t.parameter := by
    intro t
    cases t with
    | constant parameter c => rfl
    | fromVariable parameter name => rfl
  have hpairs : List.Forall₂ (fun (t : TemplateBinding F) (e : String × Value F) =>
      e.1 = t.parameter ∧ t.value given = some e.2) ts supplied := by
    refine (forall₂_map_left_iff.mp (suppliedValues_ok h)).imp ?_
    intro t e he
    exact ⟨he.1.trans (hbrowser t), browserBindingValue_iff.mp he.2⟩
  obtain ⟨hleft, hright⟩ := mem_of_forall₂ hpairs
  refine ⟨?_, ?_, ?_⟩
  · have hnames : List.Forall₂ (fun (e : String × Value F) (t : TemplateBinding F) => e.1 = t.parameter) supplied ts :=
      (hpairs.imp fun _ _ he => he.1).flip
    have hsame := forall₂_map_left_iff.mpr (forall₂_map_right_iff.mpr hnames)
    rwa [forall₂_eq_eq_eq] at hsame
  · intro t ht
    obtain ⟨e, -, -, hvalue⟩ := hleft t ht
    exact ⟨e.2, hvalue⟩
  · intro e
    constructor
    · intro he
      obtain ⟨t, ht, hname, hvalue⟩ := hright e he
      exact ⟨t, ht, hname.symm, hvalue⟩
    · rintro ⟨t, ht, hname, hvalue⟩
      obtain ⟨e', he', hname', hvalue'⟩ := hleft t ht
      have hsame : e' = e := Prod.ext (hname'.trans hname) (Option.some.inj (hvalue'.symm.trans hvalue))
      exact hsame ▸ he'

theorem suppliedValues_exists (h : ∀ t ∈ ts, ∃ v, t.value given = some v) :
    ∃ supplied, suppliedValues given none (ts.map browser) = .ok supplied := by
  induction ts with
  | nil => exact ⟨[], rfl⟩
  | cons t ts ih =>
    obtain ⟨v, hv⟩ := h t mem_cons_self
    obtain ⟨rest, hrest⟩ := ih fun t' ht' => h t' (mem_cons_of_mem _ ht')
    refine ⟨(t.browser.parameter, v) :: rest, ?_⟩
    simp only [map_cons, suppliedValues, browserBindingValue_iff.mpr hv, hrest]

theorem templateValues_spec {ps : List (BrowserParameter F)} : ∀ {values : List (String × Value F)},
    templateValues supplied ps = .ok values → List.Forall₂ (fun (p : BrowserParameter F) (e : String × Value F) =>
      e.1 = p.name ∧ ∃ value, (supplied.lookup p.name).or p.defaultValue = some value ∧
        savedQueryParameterValue p.type value = .ok e.2) ps values := by
  induction ps with
  | nil =>
    intro values h
    obtain rfl := ok.inj h
    exact .nil
  | cons p ps ih =>
    intro values h
    rw [templateValues] at h
    cases hvalue : (supplied.lookup p.name).or p.defaultValue with
    | none =>
      simp only [hvalue] at h
      cases h
    | some value =>
    cases hchecked : savedQueryParameterValue p.type value with
    | error e =>
      simp only [hvalue, hchecked] at h
      cases h
    | ok checked =>
    cases hrest : templateValues supplied ps with
    | error e =>
      simp only [hvalue, hchecked, hrest] at h
      cases h
    | ok rest =>
      simp only [hvalue, hchecked, hrest] at h
      obtain rfl := ok.inj h
      exact .cons ⟨rfl, value, hvalue, hchecked⟩ (ih hrest)
end

/-! ### The same values -/

section
variable {parameters : List SavedQueryParameter} {given : String → Option String} {ts : List (TemplateBinding F)}
  {values : Values F}

/-- What a parameter is given: the value of its binding, or its default. -/
def Assigned (given : String → Option String) (ts : List (TemplateBinding F)) (p : SavedQueryParameter) (v : Value F) : Prop :=
  (∃ t ∈ ts, t.parameter = p.name ∧ t.value given = some v) ∨
    p.name ∉ ts.map (·.parameter) ∧ p.defaultValue.bind (literalValue F) = some v

/-- The values that either side finds, if it finds values. -/
structure Found (parameters : List SavedQueryParameter) (given : String → Option String) (ts : List (TemplateBinding F))
    (values : Values F) : Prop where
  declared : ∀ t ∈ ts, t.parameter ∈ parameters.map (·.name)
  bound : ∀ t ∈ ts, ∃ v, t.value given = some v
  set : ∀ p ∈ parameters, ∃ v checked, Assigned given ts p v ∧ dashboardParameterValue p.type (some v) = .ok checked ∧
    values p.name = some checked
  only : ∀ name, name ∉ parameters.map (·.name) → values name = none

theorem Assigned.unique (hbind : (ts.map (·.parameter)).Nodup) {p : SavedQueryParameter} {v v' : Value F}
    (h : Assigned given ts p v) (h' : Assigned given ts p v') : v = v' := by
  rcases h with ⟨t, ht, hname, hv⟩ | ⟨hfree, hv⟩
  · rcases h' with ⟨t', ht', hname', hv'⟩ | ⟨hfree', -⟩
    · obtain rfl : t = t' := inj_on_of_nodup_map hbind ht ht' (hname.trans hname'.symm)
      exact Option.some.inj (hv.symm.trans hv')
    · exact absurd (mem_map.mpr ⟨t, ht, hname⟩) hfree'
  · rcases h' with ⟨t', ht', hname', -⟩ | ⟨-, hv'⟩
    · exact absurd (mem_map.mpr ⟨t', ht', hname'⟩) hfree
    · exact Option.some.inj (hv.symm.trans hv')

theorem Found.unique (hbind : (ts.map (·.parameter)).Nodup) {values' : Values F} (h : Found parameters given ts values)
    (h' : Found parameters given ts values') : values = values' := by
  funext name
  by_cases hname : name ∈ parameters.map (·.name)
  · obtain ⟨p, hp, rfl⟩ := mem_map.mp hname
    obtain ⟨v, checked, hv, hok, hset⟩ := h.set p hp
    obtain ⟨v', checked', hv', hok', hset'⟩ := h'.set p hp
    obtain rfl := hv.unique hbind hv'
    rw [hset, hset', ok.inj (hok.symm.trans hok')]
  · rw [h.only name hname, h'.only name hname]

theorem parameterTypes_none {name : String} (h : parameterTypes parameters name = none) : name ∉ parameters.map (·.name) := by
  intro hin
  obtain ⟨p, hp, rfl⟩ := mem_map.mp hin
  have hnone := Option.map_eq_none_iff.mp h
  rw [queryParameters, List.find?_eq_none] at hnone
  exact hnone p hp (decide_eq_true rfl)

theorem Found.typed (h : Found parameters given ts values) : Typed (parameterTypes parameters) values where
  declared name kind hkind := by
    obtain ⟨p, hp, rfl⟩ := Option.map_eq_some_iff.mp hkind
    obtain ⟨hmem, rfl⟩ := queryParameters_some hp
    obtain ⟨v, checked, -, hok, hset⟩ := h.set p hmem
    exact ⟨checked, hset, (isNumber_of_value hok).1⟩
  only name hnone := h.only name (parameterTypes_none hnone)

theorem server_parameter (t : TemplateBinding F) : t.server.parameter = t.parameter := by
  cases t with
  | constant parameter c => rfl
  | fromVariable parameter name => rfl

theorem map_server : (ts.map server).map (·.parameter) = ts.map (·.parameter) := by
  rw [map_map]
  exact map_congr_left fun t _ => server_parameter t

theorem serverValues_iff (hnames : (parameters.map (·.name)).Nodup) (hchecked : ∀ p ∈ parameters, Checked F p)
    (hbind : (ts.map (·.parameter)).Nodup) :
    serverValues F parameters given (ts.map server) = .ok values ↔ Found parameters given ts values := by
  have hbindings' : ((ts.map server).map (·.parameter)).Nodup := by rwa [map_server]
  have hfound : ∀ {values : Values F}, serverValues F parameters given (ts.map server) = .ok values →
      Found parameters given ts values := by
    intro values h
    obtain ⟨hset, hdefault, hnone⟩ := serverValues_spec hnames hchecked hbindings' h
    have hread : ∀ t ∈ ts, ∃ p v checked, queryParameters parameters t.parameter = some p ∧ t.value given = some v ∧
        dashboardParameterValue p.type (some v) = .ok checked ∧ values t.parameter = some checked := by
      intro t ht
      obtain ⟨p, value, checked, hp, hvalue, hok, hfound⟩ := hset t.server (mem_map_of_mem ht)
      obtain ⟨v, hv, rfl⟩ := dashboardBindingValue_iff.mp hvalue
      rw [server_parameter] at hp hfound
      exact ⟨p, v, checked, hp, hv, hok, hfound⟩
    refine ⟨?_, ?_, ?_, hnone⟩
    · intro t ht
      obtain ⟨p, v, checked, hp, -⟩ := hread t ht
      obtain ⟨hmem, hname⟩ := queryParameters_some hp
      exact mem_map.mpr ⟨p, hmem, hname⟩
    · intro t ht
      obtain ⟨p, v, checked, -, hv, -⟩ := hread t ht
      exact ⟨v, hv⟩
    · intro p hp
      by_cases hbound : p.name ∈ ts.map (·.parameter)
      · obtain ⟨t, ht, hname⟩ := mem_map.mp hbound
        obtain ⟨q, v, checked, hq, hv, hok, hfound⟩ := hread t ht
        rw [hname, queryParameters_of_mem hnames hp] at hq
        obtain rfl := Option.some.inj hq
        exact ⟨v, checked, .inl ⟨t, ht, hname, hv⟩, hok, hname ▸ hfound⟩
      obtain ⟨checked, hok, hfound⟩ := hdefault p hp (by rwa [map_server])
      cases hvalue : p.defaultValue.bind (literalValue F) with
      | none =>
        rw [hvalue] at hok
        exact absurd hok (dashboardParameterValue_none _ _)
      | some v =>
        rw [hvalue] at hok
        exact ⟨v, checked, .inr ⟨hbound, hvalue⟩, hok, hfound⟩
  refine ⟨hfound, ?_⟩
  intro h
  have hbound : ∀ b ∈ ts.map server, Bound F parameters given b := by
    intro b hb
    obtain ⟨t, ht, rfl⟩ := mem_map.mp hb
    obtain ⟨p, hp, hname⟩ := mem_map.mp (h.declared t ht)
    obtain ⟨v, checked, hv, hok, -⟩ := h.set p hp
    obtain ⟨w, hw⟩ := h.bound t ht
    obtain rfl := hv.unique hbind (.inl ⟨t, ht, hname.symm, hw⟩)
    refine ⟨p, some v, checked, ?_, dashboardBindingValue_iff.mpr ⟨v, hw, rfl⟩, hok⟩
    rw [server_parameter, ← hname]
    exact queryParameters_of_mem hnames hp
  have hsupp : Supplied parameters (ts.map server) := by
    intro p hp hnone
    obtain ⟨v, checked, hv, -, -⟩ := h.set p hp
    rcases hv with ⟨t, ht, hname, -⟩ | ⟨-, hv⟩
    · exact ⟨t.server, mem_map_of_mem ht, (server_parameter t).trans hname⟩
    · rw [hnone] at hv
      cases hv
  obtain ⟨values', hvalues'⟩ := serverValues_exists hnames hchecked hbound hsupp
  rw [hvalues', (hfound hvalues').unique hbind h]

variable {supplied : List (String × Value F)}

theorem lookup_assigned (hbind : (ts.map (·.parameter)).Nodup)
    (h : suppliedValues given none (ts.map browser) = .ok supplied) {p : SavedQueryParameter} {v : Value F} :
    (supplied.lookup p.name).or (browserParameter F p).defaultValue = some v ↔ Assigned given ts p v := by
  obtain ⟨hnames, -, hents⟩ := supplied_iff h
  by_cases hbound : p.name ∈ ts.map (·.parameter)
  · obtain ⟨e, he, hname⟩ := mem_map.mp (hnames ▸ hbound)
    have hlookup : supplied.lookup p.name = some e.2 := hname ▸ lookup_of_mem (hnames ▸ hbind) he
    obtain ⟨t, ht, hparameter, hvalue⟩ := (hents e).mp he
    have hassigned : Assigned given ts p e.2 := .inl ⟨t, ht, hparameter.trans hname, hvalue⟩
    rw [hlookup, Option.some_or]
    constructor
    · intro heq
      exact Option.some.inj heq ▸ hassigned
    · intro hv
      rw [hassigned.unique hbind hv]
  · have hlookup : supplied.lookup p.name = none := by
      refine lookup_none_of_not_mem fun e he hname => hbound ?_
      rw [← hnames, ← hname]
      exact mem_map_of_mem he
    rw [hlookup, Option.none_or]
    constructor
    · exact fun hv => .inr ⟨hbound, hv⟩
    · rintro (⟨t, ht, hname, -⟩ | ⟨-, hv⟩)
      · exact absurd (mem_map.mpr ⟨t, ht, hname⟩) hbound
      · exact hv

theorem found_of_templateValues (hnames : (parameters.map (·.name)).Nodup) (hbind : (ts.map (·.parameter)).Nodup)
    (h : suppliedValues given none (ts.map browser) = .ok supplied)
    (hdecl : ∀ t ∈ ts, t.parameter ∈ parameters.map (·.name)) {entries : List (String × Value F)}
    (hents : templateValues supplied (parameters.map (browserParameter F)) = .ok entries) :
    Found parameters given ts (fun name => entries.lookup name) ∧ entries.map (·.1) = parameters.map (·.name) ∧
      ∀ e ∈ entries, e.2.bounded = true := by
  have hpairs := forall₂_map_left_iff.mp (templateValues_spec hents)
  obtain ⟨hleft, hright⟩ := mem_of_forall₂ hpairs
  have hsame : entries.map (·.1) = parameters.map (·.name) := by
    have heach : List.Forall₂ (fun (e : String × Value F) (p : SavedQueryParameter) => e.1 = p.name) entries parameters :=
      (hpairs.imp fun _ _ he => he.1).flip
    have hmaps := forall₂_map_left_iff.mpr (forall₂_map_right_iff.mpr heach)
    rwa [forall₂_eq_eq_eq] at hmaps
  refine ⟨⟨hdecl, (supplied_iff h).2.1, ?_, ?_⟩, hsame, ?_⟩
  · intro p hp
    obtain ⟨e, he, hname, v, hv, hok⟩ := hleft p hp
    rw [savedQueryParameterValue_eq] at hok
    refine ⟨v, e.2, (lookup_assigned hbind h).mp hv, hok, ?_⟩
    have hlookup := lookup_of_mem (hsame.symm ▸ hnames) he
    rwa [hname] at hlookup
  · intro name hname
    refine lookup_none_of_not_mem fun e he heq => hname ?_
    rw [← hsame, ← heq]
    exact mem_map_of_mem he
  · intro e he
    obtain ⟨p, -, -, v, -, hok⟩ := hright e he
    rw [savedQueryParameterValue_eq] at hok
    exact (isNumber_of_value hok).2

theorem templateValues_exists (hbind : (ts.map (·.parameter)).Nodup)
    (h : suppliedValues given none (ts.map browser) = .ok supplied) (hfound : Found parameters given ts values) :
    ∃ entries, templateValues supplied (parameters.map (browserParameter F)) = .ok entries := by
  have hgiven : ∀ p ∈ parameters.map (browserParameter F), Given supplied p := by
    intro p hp
    obtain ⟨q, hq, rfl⟩ := mem_map.mp hp
    obtain ⟨v, checked, hv, hok, -⟩ := hfound.set q hq
    exact ⟨v, checked, (lookup_assigned hbind h).mpr hv, by rwa [savedQueryParameterValue_eq]⟩
  obtain ⟨entries, hents, -⟩ := templateValues_ok hgiven
  exact ⟨entries, hents⟩

theorem interpolateQueryLiterals_eq {query : String} {entries : List (String × Value F)}
    (hnames : ∀ e ∈ entries, validVariableName e.1 = true) (hbounded : ∀ e ∈ entries, e.2.bounded = true)
    (hcount : entries.length ≤ 20) :
    interpolateQueryLiterals query entries = interpolateLiterals query fun name => entries.lookup name := by
  have hall : (entries.all fun e => variableNameSchema (utf16 e.1.toList) && e.2.bounded) = true := by
    rw [all_eq_true]
    intro e he
    rw [variableNameSchema_utf16, String.ofList_toList, hnames e he, hbounded e he]
    rfl
  rw [interpolateQueryLiterals, if_neg (Nat.not_lt.mpr hcount), if_pos hall]

def resolveSupplied (query : BrowserQuery F) (given : String → Option String) (bindings : List (BrowserBinding F)) :
    Except QueryError (List UInt16) :=
  match suppliedValues given none bindings with
  | .error e => .error e
  | .ok supplied => resolveSavedQueryTemplate query supplied

theorem agree_error {e e' : QueryError} : Agree (.error e) (.error e') := rfl

/-- **The server's values are the browser's**, and then both expand the template alike. -/
theorem resolveSupplied_agree {saved : SavedQuery} {id : String} (hnames : (saved.parameters.map (·.name)).Nodup)
    (hcount : saved.parameters.length ≤ 20) (hchecked : ∀ p ∈ saved.parameters, Checked F p)
    (hbind : (ts.map (·.parameter)).Nodup) :
    Agree (resolveDashboardSavedQuery F saved ⟨id, ts.map server⟩ given)
      (resolveSupplied (browserQuery F saved) given (ts.map browser)) := by
  rw [resolveDashboardSavedQuery_eq]
  by_cases hfound : ∃ values, Found saved.parameters given ts values
  · obtain ⟨values, hfound⟩ := hfound
    obtain ⟨supplied, hsupp⟩ := suppliedValues_exists hfound.bound
    obtain ⟨entries, hents⟩ := templateValues_exists hbind hsupp hfound
    obtain ⟨hfound', hsame, hbounded⟩ := found_of_templateValues hnames hbind hsupp hfound.declared hents
    have hvalid : ∀ e ∈ entries, validVariableName e.1 = true := by
      intro e he
      have hin : e.1 ∈ saved.parameters.map (·.name) := hsame ▸ mem_map_of_mem he
      obtain ⟨p, hp, hname⟩ := mem_map.mp hin
      rw [← hname]
      exact (hchecked p hp).name
    have hshort : entries.length ≤ 20 := by rwa [← length_map (·.1), hsame, length_map]
    have hall : (supplied.all fun e => (browserQuery F saved).parameters.any fun p => p.name == e.1) = true := by
      rw [all_eq_true]
      intro e he
      obtain ⟨t, ht, hname, -⟩ := ((supplied_iff hsupp).2.2 e).mp he
      obtain ⟨p, hp, hpname⟩ := mem_map.mp (hfound.declared t ht)
      exact any_eq_true.mpr ⟨browserParameter F p, mem_map_of_mem hp, beq_iff_eq.mpr (hpname.trans hname)⟩
    rw [(serverValues_iff hnames hchecked hbind).mpr hfound, resolveSupplied, hsupp]
    simp only [resolveSavedQueryTemplate, hall, Bool.not_true, Bool.false_eq_true, if_false]
    rw [show (browserQuery F saved).parameters = saved.parameters.map (browserParameter F) from rfl, hents]
    simp only
    rw [interpolateQueryLiterals_eq hvalid hbounded hshort, hfound'.unique hbind hfound]
    exact interpolate_agree hfound.typed saved.query
  · -- neither side finds values
    have hserver : ∃ e, serverValues F saved.parameters given (ts.map server) = .error e := by
      cases hvalues : serverValues F saved.parameters given (ts.map server) with
      | error e => exact ⟨e, rfl⟩
      | ok values => exact absurd ⟨values, (serverValues_iff hnames hchecked hbind).mp hvalues⟩ hfound
    obtain ⟨e, he⟩ := hserver
    rw [he, resolveSupplied]
    cases hsupp : suppliedValues given none (ts.map browser) with
    | error e' => exact agree_error
    | ok supplied =>
    simp only [resolveSavedQueryTemplate]
    cases hall : (supplied.all fun e => (browserQuery F saved).parameters.any fun p => p.name == e.1) with
    | false => exact agree_error
    | true =>
    simp only [Bool.not_true, Bool.false_eq_true, if_false]
    cases hents : templateValues supplied (browserQuery F saved).parameters with
    | error e' => exact agree_error
    | ok entries =>
    obtain ⟨hknown, -, hentry⟩ := supplied_iff hsupp
    have hdecl : ∀ t ∈ ts, t.parameter ∈ saved.parameters.map (·.name) := by
      intro t ht
      have hin : t.parameter ∈ supplied.map (·.1) := hknown ▸ mem_map_of_mem ht
      obtain ⟨e, he, hname⟩ := mem_map.mp hin
      obtain ⟨p, hp, hpname⟩ := any_eq_true.mp (all_eq_true.mp hall e he)
      obtain ⟨q, hq, rfl⟩ := mem_map.mp hp
      exact mem_map.mpr ⟨q, hq, (beq_iff_eq.mp hpname).trans hname⟩
    exact absurd ⟨_, (found_of_templateValues hnames hbind hsupp hdecl hents).1⟩ hfound
end

/-! ### The document of the browser -/

section
variable {P : Platform} {saved : SavedQuery} {p : SavedQueryParameter}

/-- A parameter as the browser has it. -/
def parameterObject (p : SavedQueryParameter) : Json :=
  .obj ([("name", .str p.name), ("label", .str p.label), ("type", .str p.type.text)] ++
    p.defaultValue.toList.map fun raw => ("defaultValue", raw))

def savedMembers (saved : SavedQuery) : List (String × Json) :=
  [("schemaVersion", .num "1"), ("id", .str saved.id), ("name", .str saved.name), ("description", .str saved.description),
    ("providerId", .str saved.providerID), ("kind", .str saved.kind), ("query", .str saved.query),
    ("parameters", .arr (saved.parameters.map parameterObject))] ++
    if saved.imageURL = "" then [] else [("imageUrl", .str saved.imageURL)]

def savedObject (saved : SavedQuery) : Json := .obj (savedMembers saved)

/-- What `resolveSavedQueryReference` does for a reference to a query that it has found. -/
def browserText (P : Platform) (saved : Json) (given : String → Option String) (bindings : List (BrowserBinding P.toNumbers)) :
    Except QueryError (List UInt16) :=
  match suppliedValues given none bindings with
  | .error e => .error e
  | .ok supplied =>
    match queryDocument P saved with
    | none => .error .schema
    | some query => resolveSavedQueryTemplate query supplied

/-- The browser's checks of all fields but the text and the parameters. -/
structure Presentable (P : Platform) (saved : SavedQuery) : Prop where
  id : identifier saved.id = true
  name : trimmedText saved.name 120 = true
  description : stringUnits saved.description ≤ 500
  image : saved.imageURL = "" ∨ savedQueryImageUrlSchema P saved.imageURL = true
  provider : identifier saved.providerID = true
  kind : queryKinds.contains saved.kind = true
  labels : ∀ p ∈ saved.parameters, stringUnits p.label ≤ 80

theorem knownFields_fieldsOf {known : List String} {members : List (String × Json)} (h : ∀ m ∈ members, m.1 ∈ known) :
    knownFields known (fieldsOf members) = true := by
  rw [knownFields, all_eq_true]
  rintro ⟨k, v⟩ he
  have hlook : (fieldsOf members).lookup k = some v := AList.mem_lookup_iff.mpr he
  rw [lookup_fieldsOf] at hlook
  obtain ⟨m, hm, hkv⟩ := mem_filterMap.mp (mem_of_getLast? hlook)
  split_ifs at hkv with hk
  exact contains_iff_mem.mpr (hk ▸ h m hm)

theorem parameterType_text (kind : ParameterType) : parameterType kind.text = some kind := by
  cases kind with
  | string => rfl
  | number => rfl

theorem savedQueryParameterSchema_object {F : Numbers} (hchecked : Checked F p) (hlabel : stringUnits p.label ≤ 80) :
    savedQueryParameterSchema F (parameterObject p) = some (browserParameter F p) := by
  have hname : variableNameSchema (utf16 p.name.toList) = true := by
    rw [variableNameSchema_utf16, String.ofList_toList, hchecked.name]
  cases hdefault : p.defaultValue with
  | none =>
    simp [parameterObject, savedQueryParameterSchema, hdefault, knownFields_fieldsOf, lookup_fieldsOf, valuesOf, optionalText,
      hlabel, hname, parameterType_text, browserParameter]
  | some raw =>
    obtain ⟨value, hvalue, hok, hkind⟩ := value_of_literal (hchecked.default raw hdefault)
    simp [parameterObject, savedQueryParameterSchema, hdefault, knownFields_fieldsOf, lookup_fieldsOf, valuesOf, optionalText,
      hlabel, hname, parameterType_text, browserParameter, hvalue, hkind, (isNumber_of_value hok).2]

theorem parseAll_objects {F : Numbers} (hchecked : ∀ p ∈ ps, Checked F p)
    (hlabels : ∀ p ∈ ps, stringUnits p.label ≤ 80) :
    parseAll (savedQueryParameterSchema F) (ps.map parameterObject) = some (ps.map (browserParameter F)) := by
  induction ps with
  | nil => rfl
  | cons p ps ih =>
    have hrest := ih (fun q hq => hchecked q (mem_cons_of_mem _ hq)) fun q hq => hlabels q (mem_cons_of_mem _ hq)
    rw [map_cons, parseAll,
      savedQueryParameterSchema_object (hchecked p mem_cons_self) (hlabels p mem_cons_self), hrest]
    rfl

theorem savedMembers_known : ∀ m ∈ savedMembers saved, m.1 ∈ queryRequired ++ queryOptional := by
  have hnames : ∀ k ∈ ["schemaVersion", "id", "name", "description", "providerId", "kind", "query", "parameters", "imageUrl"],
      k ∈ queryRequired ++ queryOptional := by decide
  intro m hm
  rw [savedMembers, mem_append] at hm
  rcases hm with hm | hm
  · exact hnames _ (mem_append_left ["imageUrl"] (mem_map_of_mem hm))
  · split_ifs at hm
    · cases hm
    · rw [mem_singleton.mp hm]
      exact hnames "imageUrl" (by decide)

theorem erase_etag : (fieldsOf (savedMembers saved)).erase "etag" = fieldsOf (savedMembers saved) := by
  refine AList.ext (kerase_of_notMem_keys ?_)
  intro hin
  obtain ⟨v, hv⟩ := Option.isSome_iff_exists.mp (AList.lookup_isSome.mpr hin)
  rw [lookup_fieldsOf] at hv
  obtain ⟨m, hm, hkv⟩ := mem_filterMap.mp (mem_of_getLast? hv)
  split_ifs at hkv with hk
  have hknown := savedMembers_known m hm
  rw [hk] at hknown
  exact absurd hknown (by decide)

/-- **What the browser reads of a saved query**: the query itself, unless its text is blank or too long. -/
theorem queryDocument_savedObject (hfields : Presentable P saved) (hnames : (saved.parameters.map (·.name)).Nodup)
    (hcount : saved.parameters.length ≤ 20) (hchecked : ∀ p ∈ saved.parameters, Checked P.toNumbers p) :
    queryDocument P (savedObject saved) =
      if trimmedText saved.query maxQueryUnits then some (browserQuery P.toNumbers saved) else none := by
  have hlookup : ∀ k, (fieldsOf (savedMembers saved)).lookup k = (valuesOf (savedMembers saved) k).getLast? :=
    lookup_fieldsOf _
  have hread : (fieldsOf (savedMembers saved)).lookup "schemaVersion" = some (.num "1") ∧
      (fieldsOf (savedMembers saved)).lookup "id" = some (.str saved.id) ∧
      (fieldsOf (savedMembers saved)).lookup "name" = some (.str saved.name) ∧
      (fieldsOf (savedMembers saved)).lookup "description" = some (.str saved.description) ∧
      (fieldsOf (savedMembers saved)).lookup "providerId" = some (.str saved.providerID) ∧
      (fieldsOf (savedMembers saved)).lookup "kind" = some (.str saved.kind) ∧
      (fieldsOf (savedMembers saved)).lookup "query" = some (.str saved.query) ∧
      (fieldsOf (savedMembers saved)).lookup "parameters" = some (.arr (saved.parameters.map parameterObject)) ∧
      (fieldsOf (savedMembers saved)).lookup "tags" = none ∧ (fieldsOf (savedMembers saved)).lookup "metadata" = none ∧
      (fieldsOf (savedMembers saved)).lookup "imageUrl" =
        if saved.imageURL = "" then none else some (.str saved.imageURL) := by
    rw [hlookup, hlookup, hlookup, hlookup, hlookup, hlookup, hlookup, hlookup, hlookup, hlookup, hlookup, savedMembers]
    split_ifs
    · exact ⟨rfl, rfl, rfl, rfl, rfl, rfl, rfl, rfl, rfl, rfl, rfl⟩
    · exact ⟨rfl, rfl, rfl, rfl, rfl, rfl, rfl, rfl, rfl, rfl, rfl⟩
  obtain ⟨hver, hid, hname, hdescription, hprov, hkind, hquery, hparams, htags, hmetadata, himage⟩ := hread
  have hone : literalOne P (some (.num "1")) = true := P.parse_one
  have himageUrl : imageUrlSchema P (fieldsOf (savedMembers saved)) = true := by
    rw [imageUrlSchema, himage]
    rcases hfields.image with hempty | himage
    · rw [if_pos hempty]
    · split_ifs
      · rfl
      · exact himage
  have hknown : knownFields (queryRequired ++ queryOptional) (fieldsOf (savedMembers saved)) = true :=
    knownFields_fieldsOf savedMembers_known
  have hschema : parametersSchema P.toNumbers (fieldsOf (savedMembers saved)) =
      some (saved.parameters.map (browserParameter P.toNumbers)) := by
    have hvalid : (saved.parameters.map (browserParameter P.toNumbers)).length ≤ 20 ∧
        ((saved.parameters.map (browserParameter P.toNumbers)).map (·.name)).Nodup := by
      rw [length_map, map_map]
      exact ⟨hcount, hnames⟩
    simp only [parametersSchema, hparams, parseAll_objects hchecked hfields.labels, if_pos hvalid]
  show savedQuerySchema P ((fieldsOf (savedMembers saved)).erase "etag") = _
  rw [erase_etag, savedQuerySchema]
  simp only [optionalText, tagsSchema, savedQueryMetadataSchema, hver, hone, hid, hname, hdescription, hprov, hkind,
    hquery, htags, hmetadata, himageUrl, hknown, hschema, hfields.id, hfields.name, hfields.provider, hfields.kind,
    decide_eq_true hfields.description, Bool.not_true, Bool.or_self, Bool.and_self, Bool.true_and, Bool.false_eq_true,
    if_false]
  rfl

/-- **Server and browser resolve a saved query alike**: both fail, or both find the same text. -/
theorem resolve_agree (P : Platform) (saved : SavedQuery) (id : String) (ts : List (TemplateBinding P.toNumbers))
    (given : String → Option String) (hfields : Presentable P saved) (hnames : (saved.parameters.map (·.name)).Nodup)
    (hbindings : (ts.map (·.parameter)).Nodup) (hcount : saved.parameters.length ≤ 20)
    (hchecked : ∀ p ∈ saved.parameters, Checked P.toNumbers p) (htext : trimJS saved.query ≠ "") :
    Agree (resolveDashboardSavedQuery P.toNumbers saved ⟨id, ts.map server⟩ given)
      (browserText P (savedObject saved) given (ts.map browser)) := by
  rw [browserText, queryDocument_savedObject hfields hnames hcount hchecked]
  by_cases hlong : stringUnits (trimJS saved.query) ≤ maxQueryUnits
  · rw [trimmedText, decide_eq_true (one_le_stringUnits htext), decide_eq_true hlong, Bool.and_self, if_pos rfl]
    have hagree := @resolveSupplied_agree P.toNumbers given ts saved id hnames hcount hchecked hbindings
    rw [resolveSupplied] at hagree
    cases hsupplied : suppliedValues given none (ts.map browser) with
    | error e =>
      rw [hsupplied] at hagree
      exact hagree
    | ok supplied =>
      rw [hsupplied] at hagree
      exact hagree
  · -- the browser's schema and the server's expansion refuse the text
    have hserver : ∃ e, resolveDashboardSavedQuery P.toNumbers saved ⟨id, ts.map server⟩ given = .error e := by
      rw [resolveDashboardSavedQuery_eq]
      cases serverValues P.toNumbers saved.parameters given (ts.map server) with
      | error e => exact ⟨e, rfl⟩
      | ok values =>
        refine ⟨.templateLimit, ?_⟩
        simp only [interpolateDashboardLiterals, if_pos (Nat.not_le.mp hlong)]
    obtain ⟨e, he⟩ := hserver
    rw [he, trimmedText, decide_eq_false hlong, Bool.and_false]
    cases suppliedValues given none (ts.map browser) with
    | error e' => exact agree_error
    | ok supplied => exact agree_error

/-! ### Queries on which they differ -/

/-- A query with a text and parameters, and all other fields as both sides want them. -/
def plainQuery (query : String) (parameters : List SavedQueryParameter) : SavedQuery :=
  ⟨"above", "Above", "", "", "main", "metrics", query, parameters⟩

/-- Reads 1, and 0 with any number of zeros. -/
def sampleParse (literal : List Char) : Option Nat :=
  if literal = ['1'] then some 1 else if literal.all fun c => c == '0' || c == '.' then some 0 else none

def samplePlatform : Platform where
  Number := Nat
  parse literal := sampleParse literal.toList
  format n := toString n
  isOne n := n == 1
  parse_one := rfl
  newURL _ := false

def limitQuery : SavedQuery := plainQuery "up > \x7b\x7blimit\x7d\x7d" [⟨"limit", "", .number, none⟩]

def limitBinding : TemplateBinding samplePlatform.toNumbers := .fromVariable "limit" "most"

theorem resolve_agree_limit : Agree
    (resolveDashboardSavedQuery samplePlatform.toNumbers limitQuery ⟨"above", [limitBinding].map server⟩
      fun _ => some "0")
    (browserText samplePlatform (savedObject limitQuery) (fun _ => some "0") ([limitBinding].map browser)) := by
  refine resolve_agree samplePlatform limitQuery "above" [limitBinding] (fun _ => some "0") ?_ ?_ ?_ ?_ ?_ ?_
  · refine ⟨by decide, by decide, by decide, .inl rfl, by decide, by decide, ?_⟩
    intro p hp
    obtain rfl := mem_singleton.mp hp
    decide
  · exact nodup_singleton _
  · exact nodup_singleton _
  · decide
  · intro p hp
    obtain rfl := mem_singleton.mp hp
    refine ⟨by decide, ?_⟩
    intro raw hraw
    cases hraw
  · decide

theorem not_agree {server : Except QueryError String} {browser : Except QueryError (List UInt16)} (text : String)
    (hserver : server.toOption = some text) (hbrowser : browser.toOption = none) : ¬Agree server browser := by
  intro h
  rw [Agree, hserver, hbrowser] at h
  cases h

/-- A blank text, 21 parameters, a name with a hyphen and a default of another type: the browser's schema refuses what the
server expands. -/
theorem refused_by_schema :
    List.Forall (fun saved => ¬Agree (resolveDashboardSavedQuery samplePlatform.toNumbers saved ⟨"above", []⟩ fun _ => none)
      (browserText samplePlatform (savedObject saved) (fun _ => none) []))
    [plainQuery " " [],
      plainQuery "up" ((List.range 21).map fun n => ⟨String.ofList (List.replicate (n + 1) 'a'), "", .string, some (.str "")⟩),
      plainQuery "up" [⟨"a-b", "", .string, some (.str "")⟩], plainQuery "up" [⟨"limit", "", .number, some (.str "0")⟩]] :=
  ⟨not_agree "" rfl rfl, not_agree "up" rfl rfl, not_agree "up" rfl rfl, not_agree "up" rfl rfl⟩
end

end Paprika.Insights
