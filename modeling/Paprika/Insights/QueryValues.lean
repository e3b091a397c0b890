import Paprika.Insights.QueryReference

/-!
# The values of the parameters

What the server and the browser set the parameters of a saved query to.

* `Bound` — the bindings that the server resolves, `Fits` — values of the parameters' types: `defaultValues_ok`,
  `bindValues_ok` and `checkValues_ok` — its three passes set every parameter;
* `Given` — the values that the browser finds: `suppliedValues_ok`, `templateValues_ok`.
-/

namespace Paprika.Insights

open Lib.KeyedMap List Option

variable {F : Numbers}

/-! ### Parameters -/

variable {name : String} {p : SavedQueryParameter}

theorem queryParameters_some {parameters : List SavedQueryParameter}
    (h : queryParameters parameters name = some p) : p ∈ parameters ∧ p.name = name :=
  ⟨mem_of_find?_eq_some h, by simpa using List.find?_some h⟩

theorem queryParameters_of_mem {parameters : List SavedQueryParameter} (hnd : (parameters.map (·.name)).Nodup)
    (hp : p ∈ parameters) : queryParameters parameters p.name = some p := by
  induction parameters with
  | nil => cases hp
  | cons q parameters ih =>
    obtain ⟨hq, hrest⟩ := nodup_cons.mp hnd
    rw [queryParameters, List.find?_cons]
    rcases mem_cons.mp hp with rfl | hp
    · rw [decide_eq_true rfl]
    · have hne : q.name ≠ p.name := fun heq => hq (mem_map.mpr ⟨p, hp, heq.symm⟩)
      rw [decide_eq_false hne]
      exact ih hrest hp

def Supplied (parameters : List SavedQueryParameter) (bindings : List QueryBinding) : Prop :=
  ∀ p ∈ parameters, p.defaultValue = none → ∃ b ∈ bindings, b.parameter = p.name

/-! ### The values for the server -/

variable {k : String}

section
variable {parameters : List SavedQueryParameter} {given : String → Option String} {bindings : List QueryBinding}

theorem decodeAny_of_literal {e : QueryError} {raw : Json} {value : Value F} (h : literalValue F raw = some value) :
    decodeAny F e raw = .ok (some value) := by
  cases raw with
  | num literal =>
    obtain ⟨n, hparse, rfl⟩ := map_eq_some_iff.mp h
    rw [decodeAny, hparse]
  | str s =>
    obtain rfl := some.inj h
    rfl
  | null => cases h
  | bool b => cases h
  | arr items => cases h
  | obj members => cases h

/-- A binding that the server resolves. -/
def Bound (F : Numbers) (parameters : List SavedQueryParameter) (given : String → Option String) (b : QueryBinding) : Prop :=
  ∃ p value, ∃ checked : Value F, queryParameters parameters b.parameter = some p ∧
    dashboardBindingValue b given = .ok value ∧ dashboardParameterValue p.type value = .ok checked

def Fits (parameters : List SavedQueryParameter) (values : Values F) : Prop :=
  ∀ p ∈ parameters, ∀ value, values p.name = some value → ∃ checked, dashboardParameterValue p.type (some value) = .ok checked

variable {value : Option (Value F)} {values : Values F}

theorem Values.set_self : values.set name value name = value := if_pos rfl

theorem Values.set_of_ne (h : k ≠ name) : values.set name value k = values k := if_neg h

theorem dashboardParameterValue_again {type : ParameterType} {checked : Value F}
    (h : dashboardParameterValue type value = .ok checked) : dashboardParameterValue type (some checked) = .ok checked := by
  obtain ⟨hnumber, hbounded⟩ := isNumber_of_value h
  cases checked with
  | text s =>
    cases type with
    | string =>
      have hs : stringUnits s ≤ maxValueUnits := of_decide_eq_true hbounded
      rw [dashboardParameterValue, if_pos hs]
    | number => cases hnumber
  | number n =>
    cases type with
    | string => cases hnumber
    | number => rfl

theorem Fits.set (h : Fits parameters values) (hnd : (parameters.map (·.name)).Nodup)
    (hp : p ∈ parameters) {checked : Value F}
    (hcheck : dashboardParameterValue p.type value = .ok checked) : Fits parameters (values.set p.name (some checked)) := by
  intro q hq v hv
  by_cases hname : q.name = p.name
  · obtain rfl : q = p := inj_on_of_nodup_map hnd hq hp hname
    rw [Values.set_self] at hv
    obtain rfl := some.inj hv
    exact ⟨_, dashboardParameterValue_again hcheck⟩
  · rw [Values.set_of_ne hname] at hv
    exact h q hq v hv

theorem defaultValues_ok (hcheck : ∀ p ∈ parameters, Checked F p) (hnd : (parameters.map (·.name)).Nodup) :
    ∀ {ps : List SavedQueryParameter}, ps ⊆ parameters → (ps.map (·.name)).Nodup → ∀ {values : Values F},
      Fits parameters values → ∃ values', defaultValues ps values = .ok values' ∧ Fits parameters values' ∧
        (∀ p ∈ ps, p.defaultValue ≠ none → values' p.name ≠ none) ∧
        ∀ name, name ∉ ps.map (·.name) → values' name = values name := by
  intro ps
  induction ps with
  | nil =>
    intro _ _ values hfits
    exact ⟨values, rfl, hfits, fun p hp => absurd hp not_mem_nil, fun _ _ => rfl⟩
  | cons p ps ih =>
    intro hsub hps values hfits
    obtain ⟨hp, hrest⟩ := nodup_cons.mp hps
    have hmem : p ∈ parameters := hsub mem_cons_self
    have hsub' : ps ⊆ parameters := fun q hq => hsub (mem_cons_of_mem _ hq)
    cases hdefault : p.defaultValue with
    | none =>
      obtain ⟨values', hok, hfits', hset, hother⟩ := ih hsub' hrest hfits
      refine ⟨values', by rw [defaultValues, hdefault]; exact hok, hfits', ?_, ?_⟩
      · intro q hq hsome
        rcases mem_cons.mp hq with rfl | hq
        · exact absurd hdefault hsome
        · exact hset q hq hsome
      · intro name hname
        exact hother name fun hin => hname (mem_cons_of_mem _ hin)
    | some raw =>
    obtain ⟨value, hvalue, hfit, -⟩ := value_of_literal ((hcheck p hmem).default raw hdefault)
    obtain ⟨values', hok, hfits', hset, hother⟩ := ih hsub' hrest (hfits.set hnd hmem hfit)
    refine ⟨values', ?_, hfits', ?_, ?_⟩
    · rw [defaultValues, hdefault]
      simp only [decodeAny_of_literal hvalue]
      exact hok
    · intro q hq hsome
      rcases mem_cons.mp hq with rfl | hq
      · rw [hother q.name hp, Values.set_self]
        exact some_ne_none _
      · exact hset q hq hsome
    · intro name hname
      rw [hother name fun hin => hname (mem_cons_of_mem _ hin)]
      exact Values.set_of_ne fun heq => hname (heq ▸ mem_cons_self)

theorem bindValues_ok (hnd : (parameters.map (·.name)).Nodup) : ∀ {values : Values F}, Fits parameters values →
    (∀ b ∈ bindings, Bound F parameters given b) → ∃ values', bindValues parameters given bindings values = .ok values' ∧
      Fits parameters values' ∧ (∀ b ∈ bindings, values' b.parameter ≠ none) ∧
      ∀ name, values name ≠ none → values' name ≠ none := by
  induction bindings with
  | nil =>
    intro values hfits _
    exact ⟨values, rfl, hfits, fun b hb => absurd hb not_mem_nil, fun _ h => h⟩
  | cons b bindings ih =>
    intro values hfits hbound
    obtain ⟨p, value, checked, hp, hvalue, hcheck⟩ := hbound b mem_cons_self
    obtain ⟨hmem, hname⟩ := queryParameters_some hp
    have hset := hfits.set hnd hmem hcheck
    rw [hname] at hset
    obtain ⟨values', hok, hfits', hthere, hkept⟩ := ih hset fun c hc => hbound c (mem_cons_of_mem _ hc)
    have hself : values' b.parameter ≠ none := by
      refine hkept _ ?_
      rw [Values.set_self]
      exact some_ne_none _
    refine ⟨values', by simp only [bindValues, hp, hvalue, hcheck]; exact hok, hfits', ?_, ?_⟩
    · intro c hc
      rcases mem_cons.mp hc with rfl | hc
      · exact hself
      · exact hthere c hc
    intro name hname
    by_cases hk : name = b.parameter
    · rw [hk]
      exact hself
    · refine hkept name ?_
      rw [Values.set_of_ne hk]
      exact hname

theorem checkValues_ok {ps : List SavedQueryParameter} (hps : (ps.map (·.name)).Nodup) : ∀ {values : Values F},
    Fits ps values → (∀ p ∈ ps, values p.name ≠ none) → ∃ values', checkValues ps values = .ok values' ∧
      ∀ name, values name ≠ none → values' name ≠ none := by
  induction ps with
  | nil =>
    intro values _ _
    exact ⟨values, rfl, fun _ h => h⟩
  | cons p ps ih =>
    intro values hfits hset
    obtain ⟨hp, hrest⟩ := nodup_cons.mp hps
    obtain ⟨value, hvalue⟩ := ne_none_iff_exists'.mp (hset p mem_cons_self)
    obtain ⟨checked, hcheck⟩ := hfits p mem_cons_self value hvalue
    have hother : ∀ q ∈ ps, q.name ≠ p.name := fun q hq heq => hp (mem_map.mpr ⟨q, hq, heq⟩)
    have hfits' : Fits ps (values.set p.name (some checked)) := by
      intro q hq v hv
      rw [Values.set_of_ne (hother q hq)] at hv
      exact hfits q (mem_cons_of_mem _ hq) v hv
    have hset' : ∀ q ∈ ps, values.set p.name (some checked) q.name ≠ none := by
      intro q hq
      rw [Values.set_of_ne (hother q hq)]
      exact hset q (mem_cons_of_mem _ hq)
    obtain ⟨values', hok, hkept⟩ := ih hrest hfits' hset'
    refine ⟨values', by simp only [checkValues, hvalue, hcheck]; exact hok, ?_⟩
    intro name hname
    refine hkept name ?_
    by_cases hk : name = p.name
    · rw [hk, Values.set_self]
      exact some_ne_none _
    · rw [Values.set_of_ne hk]
      exact hname
end

/-! ### The values for the browser -/

section

theorem mem_of_forall₂ {α β : Type} {R : α → β → Prop} {xs : List α} {ys : List β} (h : List.Forall₂ R xs ys) :
    (∀ x ∈ xs, ∃ y ∈ ys, R x y) ∧ ∀ y ∈ ys, ∃ x ∈ xs, R x y := by
  induction h with
  | nil => exact ⟨fun x hx => absurd hx not_mem_nil, fun y hy => absurd hy not_mem_nil⟩
  | cons hR _ ih =>
    refine ⟨?_, ?_⟩
    · intro x hx
      rcases mem_cons.mp hx with rfl | hx
      · exact ⟨_, mem_cons_self, hR⟩
      · obtain ⟨y, hy, hxy⟩ := ih.1 x hx
        exact ⟨y, mem_cons_of_mem _ hy, hxy⟩
    intro y hy
    rcases mem_cons.mp hy with rfl | hy
    · exact ⟨_, mem_cons_self, hR⟩
    · obtain ⟨x, hx, hxy⟩ := ih.2 y hy
      exact ⟨x, mem_cons_of_mem _ hx, hxy⟩

variable {given : String → Option String} {observation : Option (Observation F)}

theorem suppliedValues_ok {bs : List (BrowserBinding F)} {supplied : List (String × Value F)}
    (h : suppliedValues given observation bs = .ok supplied) : List.Forall₂ (fun (b : BrowserBinding F) (e : String × Value F) =>
      e.1 = b.parameter ∧ browserBindingValue given observation b.source = .ok e.2) bs supplied := by
  induction bs generalizing supplied with
  | nil =>
    obtain rfl := Except.ok.inj h
    exact .nil
  | cons b bs ih =>
    rw [suppliedValues] at h
    cases hvalue : browserBindingValue given observation b.source with
    | error e =>
      simp only [hvalue] at h
      cases h
    | ok value =>
    cases hrest : suppliedValues given observation bs with
    | error e =>
      simp only [hvalue, hrest] at h
      cases h
    | ok rest =>
      simp only [hvalue, hrest] at h
      obtain rfl := Except.ok.inj h
      exact .cons ⟨rfl, hvalue⟩ (ih hrest)

variable {es : List (String × Value F)}

theorem mem_of_lookup {v : Value F} (h : es.lookup k = some v) : (k, v) ∈ es := by
  induction es with
  | nil => cases h
  | cons e es ih =>
    obtain ⟨name, value⟩ := e
    rw [lookup_cons] at h
    by_cases hk : k = name
    · rw [hk, beq_self_eq_true] at h
      obtain rfl := some.inj h
      rw [hk]
      exact mem_cons_self
    · rw [beq_false_of_ne hk] at h
      exact mem_cons_of_mem _ (ih h)

theorem lookup_of_mem (hnd : (es.map (·.1)).Nodup) {e : String × Value F} (he : e ∈ es) :
    es.lookup e.1 = some e.2 := by
  induction es with
  | nil => cases he
  | cons first es ih =>
    obtain ⟨hfirst, hrest⟩ := nodup_cons.mp hnd
    rw [lookup_cons]
    rcases mem_cons.mp he with rfl | he
    · rw [beq_self_eq_true]
    · have hne : e.1 ≠ first.1 := fun heq => hfirst (mem_map.mpr ⟨e, he, heq⟩)
      rw [beq_false_of_ne hne]
      exact ih hrest he

theorem lookup_none_of_not_mem (h : ∀ e ∈ es, e.1 ≠ k) : es.lookup k = none := by
  cases hlook : es.lookup k with
  | none => rfl
  | some v => exact absurd rfl (h (k, v) (mem_of_lookup hlook))

def Given (supplied : List (String × Value F)) (p : BrowserParameter F) : Prop :=
  ∃ value checked, (supplied.lookup p.name).or p.defaultValue = some value ∧
    savedQueryParameterValue p.type value = .ok checked

theorem templateValues_ok {supplied : List (String × Value F)} {ps : List (BrowserParameter F)} (h : ∀ p ∈ ps, Given supplied p) :
    ∃ values, templateValues supplied ps = .ok values ∧ values.map (·.1) = ps.map (·.name) ∧
      List.Forall₂ (fun (p : BrowserParameter F) (e : String × Value F) =>
        e.1 = p.name ∧ ∃ value, savedQueryParameterValue p.type value = .ok e.2) ps values := by
  induction ps with
  | nil => exact ⟨[], rfl, rfl, .nil⟩
  | cons p ps ih =>
    obtain ⟨value, checked, hvalue, hcheck⟩ := h p mem_cons_self
    obtain ⟨values, hvalues, hnames, hpairs⟩ := ih fun q hq => h q (mem_cons_of_mem _ hq)
    refine ⟨(p.name, checked) :: values, ?_, ?_, .cons ⟨rfl, value, hcheck⟩ hpairs⟩
    · simp only [templateValues, hvalue, hcheck, hvalues]
    · rw [map_cons, map_cons, hnames]
end

end Paprika.Insights
