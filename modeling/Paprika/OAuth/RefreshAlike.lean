import Paprika.Lib.Lockstep
import Paprika.OAuth.RefreshBackends
import Paprika.OAuth.SingleUse

/-!
# Refresh on one cache and on the other

* `Related` — what the two caches have in common: every code, and every token that somebody may use, that has not come to
  its expiry;
* `Related.step` — an orderly step keeps this; `Related.ends` — after any other the caches can be told apart;
* **`refresh_alike_iff`** — the histories in which they answer the same and leave the same tokens.
-/

namespace Paprika.OAuth

open Lib.SharedStore Lib.Run Lib.Lockstep Function

variable {σ : Type}

/-- The same statuses so far, and the same tokens that can be used. -/
def Deployment.Alike (d : Deployment σ) (ttl : Nat) (m s : History) : Prop :=
  m.statuses = s.statuses ∧ ∀ t, d.Usable ttl .memory m t ↔ d.Usable ttl .secret s t

/-- An entry that matters: a refresh token that nobody may use does not. -/
def Deployment.Vital (d : Deployment σ) (k : String) (e : Entry) : Prop :=
  ∀ t rec, k = refreshKey t → e.payload = .refresh rec → d.Redeemable t rec

/-- No token is at its expiry. -/
def Deployment.Settled (d : Deployment σ) (h : History) : Prop :=
  ∀ t rec x, h.items (refreshKey t) = some ⟨.refresh rec, x⟩ → d.Redeemable t rec → x ≠ 0 → x ≠ h.now

/-- What the caches have in common: the entries that matter and have not come to their expiry. -/
def Deployment.Shares (d : Deployment σ) (now : Nat) (m s : Items) : Prop :=
  ∀ k e, d.Vital k e → Backend.secret.expired e now = false → (m k = some e ↔ s k = some e)

structure Related (d : Deployment σ) (m s : History) : Prop where
  now : m.now = s.now
  count : m.count = s.count
  statuses : m.statuses = s.statuses
  shares : d.Shares m.now m.items s.items
  settled : d.Settled m
  tidyMemory : Tidy d m
  tidySecret : Tidy d s

/-- What must not happen: a token comes to its expiry, a token that can be used is presented in vain, or a code is
redeemed at its expiry. -/
def Orderly (d : Deployment σ) (h : History) : TokenEvent σ → Prop
  | .wait nanos => d.Settled { h with now := h.now + nanos }
  | .request a body =>
    ∀ form, d.admits (d.server a.server) a body = .ok form →
      (form.grantType = "refresh_token" → ∀ rec x, Holds .memory h form.refreshToken rec x →
        d.Redeemable form.refreshToken rec → rec.misused (d.server a.server) form = false ∧ a.entropy = true) ∧
      (form.grantType = "authorization_code" → form.asksForCode = true → h.now ≠ 0 → ∀ rec,
        h.items (authCodeKey form.code) = some ⟨.authCode rec, h.now⟩ → d.redeems (d.server a.server) form rec = false)

variable {rec : RefreshRecord} {t : String} {x : Nat}

section
variable {d : Deployment σ} {ttl now : Nat} {m s : Items} {k : String} {v : Payload}

theorem vital_code (code : String) (e : Entry) : d.Vital (authCodeKey code) e := by
  intro t rec hkey
  exact absurd hkey (authCodeKey_ne_refreshKey _ _)

theorem vital_token (h : d.Redeemable t rec) : d.Vital (refreshKey t) ⟨.refresh rec, x⟩ := by
  intro t' rec' hkey hrec
  obtain rfl := append_right_inj hkey
  obtain rfl := Payload.refresh.inj hrec
  exact h

section
variable (h : d.Shares now m s)
include h

theorem Deployment.Shares.getDel (k : String) :
    d.Shares now (Backend.memory.getDel m now k) (Backend.secret.getDel s now k) := by
  intro j e hvital hlasts
  by_cases hj : j = k
  · subst hj
    constructor
    · intro hm
      simp [Backend.getDel] at hm
    intro hs
    have hold := getDel_some hs
    have hlive : (Backend.secret.live s now j).isSome = true := by
      rw [live_eq_some.mpr ⟨hold, hlasts⟩]
      rfl
    simp [Backend.getDel, hlive] at hs
  · have hm : Backend.memory.getDel m now k j = m j := update_of_ne hj _ _
    have hs : Backend.secret.getDel s now k j = s j := by
      rw [Backend.getDel]
      split_ifs
      · exact update_of_ne hj _ _
      · rfl
    rw [hm, hs]
    exact h j e hvital hlasts

theorem Deployment.Shares.set (k : String) (v : Payload) :
    d.Shares now (Backend.memory.set m now ttl k v) (Backend.secret.set s now ttl k v) := by
  intro j e hvital hlasts
  by_cases hj : j = k
  · subst hj
    simp [Backend.set]
  · have hm : Backend.memory.set m now ttl k v j = m j := update_of_ne hj _ _
    have hs : Backend.secret.set s now ttl k v j = Backend.secret.live s now j := update_of_ne hj _ _
    rw [hm, hs, live_eq_some, h j e hvital hlasts]
    simp [hlasts]

theorem Deployment.Shares.store (token : String) (rec : Option RefreshRecord) :
    d.Shares now (Backend.memory.store m now ttl token rec) (Backend.secret.store s now ttl token rec) := by
  cases rec with
  | none => exact h
  | some rec => exact h.set _ _

/-- A token that nobody may use is taken from the one cache, and left in the other. -/
theorem Deployment.Shares.take
    (hnone : ∀ e, m (refreshKey t) = some e → d.Vital (refreshKey t) e → Backend.secret.expired e now = true) :
    d.Shares now (Backend.memory.getDel m now (refreshKey t)) s := by
  intro j e hvital hlasts
  by_cases hj : j = refreshKey t
  · subst hj
    constructor
    · intro hm
      simp [Backend.getDel] at hm
    · intro hs
      have hm := (h _ e hvital hlasts).mpr hs
      rw [hnone e hm hvital] at hlasts
      cases hlasts
  · have hm : Backend.memory.getDel m now (refreshKey t) j = m j := update_of_ne hj _ _
    rw [hm]
    exact h j e hvital hlasts

theorem Deployment.Shares.rotate (t token : String) (rec : RefreshRecord) :
    d.Shares now (Backend.memory.store (Backend.memory.getDel m now (refreshKey t)) now ttl token (some rec))
      (rotated s now ttl t token (some rec)) := by
  intro j e hvital hlasts
  show update (update m (refreshKey t) none) (refreshKey token) _ j = some e ↔
    update (update s (refreshKey t) none) (refreshKey token) _ j = some e
  by_cases hnew : j = refreshKey token
  · rw [hnew, update_self, update_self]
  rw [update_of_ne hnew, update_of_ne hnew]
  by_cases hold : j = refreshKey t
  · rw [hold, update_self, update_self]
  · rw [update_of_ne hold, update_of_ne hold]
    exact h j e hvital hlasts
end

end

section
variable {d : Deployment σ} {ttl : Nat} {m s : History} {a : Arrival σ} {body : Option TokenForm} {form : TokenForm}

section
variable (h : Related d m s)
include h

/-- Before it comes to its expiry a token is there on both caches or on neither. -/
theorem Related.holds (hredeem : d.Redeemable t rec) : Holds .memory m t rec x ↔ Holds .secret s t rec x := by
  constructor
  · rintro ⟨hitem, hlive⟩
    have hlasts := expired_secret hlive (h.settled t rec x hitem hredeem)
    exact ⟨(h.shares _ _ (vital_token hredeem) hlasts).mp hitem, h.now ▸ hlasts⟩
  · rintro ⟨hitem, hlive⟩
    rw [← h.now] at hlive
    exact ⟨(h.shares _ _ (vital_token hredeem) hlive).mpr hitem, expired_memory hlive⟩

theorem Related.alike : d.Alike ttl m s := by
  refine ⟨h.statuses, ?_⟩
  intro t
  rw [usable_iff h.tidyMemory, usable_iff h.tidySecret]
  constructor
  · rintro ⟨rec, x, hholds, hredeem⟩
    exact ⟨rec, x, (h.holds hredeem).mp hholds, hredeem⟩
  · rintro ⟨rec, x, hholds, hredeem⟩
    exact ⟨rec, x, (h.holds hredeem).mpr hholds, hredeem⟩

theorem Related.settled_request : d.Settled (d.step ttl .memory m (.request a body)) := by
  intro t rec x hitem hredeem hx
  rcases answer_some h.tidyMemory hitem with hold | ⟨-, rec', heq⟩
  · exact h.settled t rec x hold hredeem hx
  have hexpiry : x = Backend.expiryOf m.now ttl := congrArg Entry.expiry heq
  show x ≠ m.now
  rw [Backend.expiryOf] at hexpiry
  split_ifs at hexpiry
  · omega
  · exact absurd hexpiry hx

/-- A request that is answered with the same status on both, and leaves the same there, keeps the relation. -/
theorem Related.request (hstatus : (d.answer ttl .memory m a body).1.status = (d.answer ttl .secret s a body).1.status)
    (hshares : d.Shares m.now (d.answer ttl .memory m a body).2 (d.answer ttl .secret s a body).2) :
    Related d (d.step ttl .memory m (.request a body)) (d.step ttl .secret s (.request a body)) where
  now := h.now
  count := congrArg (· + 1) h.count
  statuses := by
    show m.statuses ++ _ = s.statuses ++ _
    rw [h.statuses, hstatus]
  shares := hshares
  settled := h.settled_request
  tidyMemory := h.tidyMemory.request
  tidySecret := h.tidySecret.request

theorem Related.codeVerdict (srv : σ)
    (horderly : m.now ≠ 0 → ∀ rec, m.items (authCodeKey form.code) = some ⟨.authCode rec, m.now⟩ →
      d.redeems (d.server srv) form rec = false) :
    d.codeVerdict (d.server srv) form (Backend.memory.find m.items m.now (authCodeKey form.code)) =
      d.codeVerdict (d.server srv) form (Backend.secret.find s.items s.now (authCodeKey form.code)) := by
  have hback : ∀ v x, s.items (authCodeKey form.code) = some ⟨v, x⟩ → Backend.secret.expired ⟨v, x⟩ m.now = false →
      m.items (authCodeKey form.code) = some ⟨v, x⟩ := by
    intro v x hitem hlasts
    exact (h.shares _ _ (vital_code _ _) hlasts).mpr hitem
  rw [← h.now]
  cases hsecret : Backend.secret.find s.items m.now (authCodeKey form.code) with
  | some v =>
    obtain ⟨x, hitem, hlasts⟩ := find_eq_some.mp hsecret
    rw [find_eq_some.mpr ⟨x, hback v x hitem hlasts, expired_memory hlasts⟩]
  | none =>
  cases hmemory : Backend.memory.find m.items m.now (authCodeKey form.code) with
  | none => rfl
  | some v =>
  obtain ⟨x, hitem, hlive⟩ := find_eq_some.mp hmemory
  obtain ⟨rec, hrec⟩ := h.tidyMemory.codes _ _ hitem
  obtain rfl : v = .authCode rec := hrec
  by_cases hset : x ≠ 0 → x ≠ m.now
  · have hlasts := expired_secret hlive hset
    have hitem' := (h.shares _ _ (vital_code _ _) hlasts).mp hitem
    rw [find_eq_some.mpr ⟨x, hitem', hlasts⟩] at hsecret
    cases hsecret
  · have hx : x ≠ 0 ∧ x = m.now := by omega
    obtain ⟨hx, rfl⟩ := hx
    simp only [Deployment.codeVerdict, horderly hx rec hitem, Bool.false_eq_true, if_false]

theorem Related.code (hadmits : d.admits (d.server a.server) a body = .ok form)
    (hkind : form.grantType = "authorization_code") (horderly : Orderly d m (.request a body)) :
    Related d (d.step ttl .memory m (.request a body)) (d.step ttl .secret s (.request a body)) := by
  cases hasks : form.asksForCode with
  | false =>
    obtain ⟨hmstatus, hmitems⟩ := answer_code_refused ttl .memory m hadmits hkind hasks
    obtain ⟨hsstatus, hsitems⟩ := answer_code_refused ttl .secret s hadmits hkind hasks
    refine h.request (hmstatus.trans hsstatus.symm) ?_
    rw [hmitems, hsitems]
    exact h.shares
  | true =>
  obtain ⟨hmstatus, hmitems⟩ := answer_code ttl .memory m hadmits hkind hasks
  obtain ⟨hsstatus, hsitems⟩ := answer_code ttl .secret s hadmits hkind hasks
  have hverd := h.codeVerdict a.server ((horderly form hadmits).2 hkind hasks)
  refine h.request ?_ ?_
  · rw [hmstatus, hsstatus, hverd]
  · rw [hmitems, hsitems, hverd, ← h.now, ← h.count]
    exact (h.shares.getDel _).store _ _

theorem Related.refresh (hadmits : d.admits (d.server a.server) a body = .ok form)
    (hkind : form.grantType = "refresh_token") (horderly : Orderly d m (.request a body)) :
    Related d (d.step ttl .memory m (.request a body)) (d.step ttl .secret s (.request a body)) := by
  by_cases hempty : form.refreshToken = ""
  · obtain ⟨hmstatus, hmitems⟩ := answer_refresh_refused ttl .memory m hadmits hkind hempty
    obtain ⟨hsstatus, hsitems⟩ := answer_refresh_refused ttl .secret s hadmits hkind hempty
    refine h.request (hmstatus.trans hsstatus.symm) ?_
    rw [hmitems, hsitems]
    exact h.shares
  obtain ⟨hmstatus, hmitems⟩ := answer_refresh_memory ttl m hadmits hkind hempty
  obtain ⟨hsstatus, hsitems⟩ := answer_refresh_secret ttl s h.tidySecret hadmits hkind hempty
  by_cases husable : ∃ rec x, Holds .memory m form.refreshToken rec x ∧ d.Redeemable form.refreshToken rec
  · -- the token is rotated on both
    obtain ⟨rec, x, hholds, hredeem⟩ := husable
    obtain ⟨hright, hentropy⟩ := (horderly form hadmits).1 hkind rec x hholds hredeem
    have hissues : (d.server a.server).refreshVerdict form (some (.refresh rec)) =
        .issues ⟨(d.server a.server).audience, rec.clientID, rec.subject, rec.email, rec.name, rec.groups, rec.scope⟩ := by
      rw [Server.refreshVerdict, hright]
      rfl
    rw [find_of_holds hholds, hissues, hentropy] at hmstatus hmitems
    rw [find_of_holds ((h.holds hredeem).mp hholds), hissues, hentropy] at hsstatus hsitems
    refine h.request (hmstatus.trans hsstatus.symm) ?_
    rw [hmitems, hsitems, ← h.now, ← h.count]
    exact h.shares.rotate _ _ _
  · -- it is refused on both
    have hmrefused := (refreshVerdict_cases h.tidyMemory .memory hempty a.server).resolve_right husable
    have hsrefused := (refreshVerdict_cases h.tidySecret .secret hempty a.server).resolve_right (by
      rintro ⟨rec, x, hholds, hredeem⟩
      exact husable ⟨rec, x, (h.holds hredeem).mpr hholds, hredeem⟩)
    rw [hmrefused] at hmstatus hmitems
    rw [hsrefused] at hsstatus hsitems
    refine h.request (hmstatus.trans hsstatus.symm) ?_
    rw [hmitems, hsitems]
    refine h.shares.take ?_
    intro e hitem hvital
    by_contra hlasts
    rw [Bool.not_eq_true] at hlasts
    obtain ⟨rec, hrec⟩ := h.tidyMemory.tokens _ _ hitem
    have heq : e = ⟨.refresh rec, e.expiry⟩ := by rw [← hrec]
    exact husable ⟨rec, e.expiry, ⟨heq ▸ hitem, heq ▸ expired_memory hlasts⟩, hvital _ rec rfl hrec⟩

theorem Related.step (e : TokenEvent σ) (horderly : Orderly d m e) :
    Related d (d.step ttl .memory m e) (d.step ttl .secret s e) := by
  cases e with
  | wait nanos =>
    refine ⟨congrArg (· + nanos) h.now, h.count, h.statuses, ?_, horderly, ⟨h.tidyMemory.codes, h.tidyMemory.tokens,
      h.tidyMemory.unused⟩, ⟨h.tidySecret.codes, h.tidySecret.tokens, h.tidySecret.unused⟩⟩
    intro k e hvital hlasts
    refine h.shares k e hvital ?_
    have hlater : Backend.secret.expired e (m.now + nanos) = false := hlasts
    simp only [Backend.expired, Bool.and_eq_false_iff, decide_eq_false_iff_not] at hlater ⊢
    refine hlater.imp_right ?_
    omega
  | request a body =>
  cases hadmits : d.admits (d.server a.server) a body with
  | error r =>
    refine h.request ?_ ?_
    · rw [answer_error _ _ _ hadmits, answer_error _ _ _ hadmits]
    · rw [answer_error _ _ _ hadmits, answer_error _ _ _ hadmits]
      exact h.shares
  | ok form =>
    rcases (of_admits hadmits).2 with hkind | hkind
    · exact h.code hadmits hkind horderly
    · exact h.refresh hadmits hkind horderly
end

end

/-! ### How the caches come apart -/

section
variable {d : Deployment σ} {ttl : Nat} {m s : History} {a : Arrival σ} {body : Option TokenForm} {form : TokenForm}

theorem not_alike_of_expiry (htidyMemory : Tidy d m) (htidySecret : Tidy d s) (hnow : m.now = s.now)
    (hitem : m.items (refreshKey t) = some ⟨.refresh rec, m.now⟩) (hredeem : d.Redeemable t rec)
    (hpos : m.now ≠ 0)
    (hback : ∀ rec' x, Holds .secret s t rec' x → d.Redeemable t rec' → m.items (refreshKey t) = some ⟨.refresh rec', x⟩) :
    ¬d.Alike ttl m s := by
  intro halike
  have husable : d.Usable ttl .memory m t :=
    (usable_iff htidyMemory t).mpr ⟨rec, m.now, ⟨hitem, by simp [Backend.expired]⟩, hredeem⟩
  obtain ⟨rec', x, hholds, hredeemable'⟩ := (usable_iff htidySecret t).mp ((halike.2 t).mp husable)
  have hsame := hback rec' x hholds hredeemable'
  rw [hitem, Option.some.injEq, Entry.mk.injEq] at hsame
  have hlive := hholds.2
  rw [← hsame.2, ← hnow] at hlive
  simp [Backend.expired, hpos] at hlive

section
variable (h : Related d m s) (hadmits : d.admits (d.server a.server) a body = .ok form)
include h hadmits

/-- A token that is presented in vain is gone from memory, and still in the Secret. -/
theorem Related.burnt (hkind : form.grantType = "refresh_token")
    (hholds : Holds .memory m form.refreshToken rec x) (hredeem : d.Redeemable form.refreshToken rec)
    (hvain : ¬(rec.misused (d.server a.server) form = false ∧ a.entropy = true)) :
    ¬d.Alike ttl (d.step ttl .memory m (.request a body)) (d.step ttl .secret s (.request a body)) := by
  intro halike
  have hnothing : ((d.server a.server).refreshVerdict form (some (.refresh rec))).written a.entropy = none := by
    rw [Server.refreshVerdict]
    by_cases hmisused : rec.misused (d.server a.server) form = true
    · rw [if_pos hmisused]
      rfl
    rw [if_neg hmisused]
    have hentropy : a.entropy = false := by
      rw [Bool.not_eq_true] at hmisused
      simpa [hmisused] using hvain
    rw [hentropy]
    rfl
  have hsholds := (h.holds hredeem).mp hholds
  have hmitems := (answer_refresh_memory ttl m hadmits hkind hredeem.1).2
  have hsitems := (answer_refresh_secret ttl s h.tidySecret hadmits hkind hredeem.1).2
  rw [find_of_holds hholds, hnothing] at hmitems
  rw [find_of_holds hsholds, hnothing] at hsitems
  have husable : d.Usable ttl .secret (d.step ttl .secret s (.request a body)) form.refreshToken := by
    refine (usable_iff h.tidySecret.request _).mpr ⟨rec, x, ⟨?_, hsholds.2⟩, hredeem⟩
    show (d.answer ttl .secret s a body).2 _ = _
    rw [hsitems]
    exact hsholds.1
  obtain ⟨rec', x', hgone, -⟩ := (usable_iff h.tidyMemory.request _).mp ((halike.2 _).mpr husable)
  have hitem : (d.answer ttl .memory m a body).2 (refreshKey form.refreshToken) = some ⟨.refresh rec', x'⟩ := hgone.1
  rw [hmitems] at hitem
  simp [Backend.store, Backend.getDel] at hitem

/-- A code that is redeemed at its expiry gets an answer in memory, and is refused by the Secret. -/
theorem Related.redeemed
    (hkind : form.grantType = "authorization_code") (hasks : form.asksForCode = true) (hpos : m.now ≠ 0)
    {rec : AuthCodeRecord} (hitem : m.items (authCodeKey form.code) = some ⟨.authCode rec, m.now⟩)
    (hredeems : d.redeems (d.server a.server) form rec = true) :
    ¬d.Alike ttl (d.step ttl .memory m (.request a body)) (d.step ttl .secret s (.request a body)) := by
  intro halike
  have hmfind : Backend.memory.find m.items m.now (authCodeKey form.code) = some (.authCode rec) :=
    find_eq_some.mpr ⟨m.now, hitem, by simp [Backend.expired]⟩
  have hsfind : Backend.secret.find s.items s.now (authCodeKey form.code) = none := by
    by_contra hsome
    obtain ⟨v, hv⟩ := Option.ne_none_iff_exists'.mp hsome
    obtain ⟨x, hsitem, hlasts⟩ := find_eq_some.mp hv
    rw [← h.now] at hlasts
    have hsame := (h.shares _ _ (vital_code _ _) hlasts).mpr hsitem
    rw [hitem, Option.some.injEq, Entry.mk.injEq] at hsame
    rw [← hsame.2] at hlasts
    simp [Backend.expired, hpos] at hlasts
  have hmstatus := (answer_code ttl .memory m hadmits hkind hasks).1
  have hsstatus := (answer_code ttl .secret s hadmits hkind hasks).1
  rw [hmfind, Deployment.codeVerdict, hredeems, if_pos rfl, Verdict.status] at hmstatus
  rw [hsfind, Deployment.codeVerdict, Verdict.status] at hsstatus
  have hstatuses : m.statuses ++ [(d.answer ttl .memory m a body).1.status] =
      s.statuses ++ [(d.answer ttl .secret s a body).1.status] := halike.1
  rw [h.statuses, List.append_cancel_left_eq, hmstatus, hsstatus] at hstatuses
  cases hentropy : a.entropy with
  | true => simp [hentropy] at hstatuses
  | false => simp [hentropy] at hstatuses
end

theorem Related.ends (h : Related d m s) (e : TokenEvent σ) (hdisorder : ¬Orderly d m e) :
    ¬d.Alike ttl (d.step ttl .memory m e) (d.step ttl .secret s e) := by
  cases e with
  | wait nanos =>
    simp only [Orderly, Deployment.Settled, not_forall, not_not] at hdisorder
    obtain ⟨t, rec, x, hitem, hredeem, hx, rfl⟩ := hdisorder
    refine not_alike_of_expiry (h.tidyMemory.step (.wait nanos)) (h.tidySecret.step (.wait nanos))
      (congrArg (· + nanos) h.now) hitem hredeem hx ?_
    intro rec' x hholds hredeemable'
    refine (h.shares _ _ (vital_token hredeemable') ?_).mpr hholds.1
    have hlater : Backend.secret.expired ⟨.refresh rec', x⟩ (s.now + nanos) = false := hholds.2
    rw [← h.now] at hlater
    simp only [Backend.expired, Bool.and_eq_false_iff, decide_eq_false_iff_not] at hlater ⊢
    refine hlater.imp_right ?_
    omega
  | request a body =>
    simp only [Orderly, not_forall] at hdisorder
    obtain ⟨form, hadmits, hform⟩ := hdisorder
    rcases not_and_or.mp hform with hrefresh | hcode
    · simp only [not_forall] at hrefresh
      obtain ⟨hkind, rec, x, hholds, hredeem, hvain⟩ := hrefresh
      exact h.burnt hadmits hkind hholds hredeem hvain
    · simp only [not_forall, Bool.not_eq_false] at hcode
      obtain ⟨hkind, hasks, hpos, rec, hitem, hredeems⟩ := hcode
      exact h.redeemed hadmits hkind hasks hpos hitem hredeems
end

theorem Grants.tidy {d : Deployment σ} (g : Grants d) (now : Nat) : Tidy d (g.start now) :=
  ⟨g.codes, g.tokens, fun i _ => g.unused i⟩

theorem Grants.related {d : Deployment σ} (g : Grants d) {now : Nat} (h : d.Settled (g.start now)) :
    Related d (g.start now) (g.start now) :=
  ⟨rfl, rfl, rfl, fun _ _ _ _ => Iff.rfl, h, g.tidy now, g.tidy now⟩

/-- **The two caches cannot be told apart** at any point of a history of token requests exactly if no token comes to its
expiry, no token that can be used is presented in vain and no code is redeemed at its expiry. -/
theorem refresh_alike_iff (d : Deployment σ) (ttl : Nat) (g : Grants d) (now : Nat) (events : List (TokenEvent σ)) :
    (∀ pre, pre <+: events →
      d.Alike ttl (run (d.step ttl .memory) (g.start now) pre) (run (d.step ttl .secret) (g.start now) pre)) ↔
      d.Settled (g.start now) ∧ Guarded (d.step ttl .memory) (Orderly d) (g.start now) events := by
  by_cases hsettled : d.Settled (g.start now)
  · have hagree : ∀ m s, Related d m s → d.Alike ttl m s := fun _ _ h => h.alike
    have hkeep : ∀ m s e, Related d m s → Orderly d m e → Related d (d.step ttl .memory m e) (d.step ttl .secret s e) :=
      fun _ _ e h horderly => h.step e horderly
    have hends : ∀ m s e, Related d m s → ¬Orderly d m e →
        ¬d.Alike ttl (d.step ttl .memory m e) (d.step ttl .secret s e) := fun _ _ e h hdisorder => h.ends e hdisorder
    rw [agree_iff_guarded hagree hkeep hends (g.related hsettled) events]
    exact (and_iff_right hsettled).symm
  · refine iff_of_false ?_ fun h => hsettled h.1
    intro hall
    simp only [Deployment.Settled, not_forall, not_not] at hsettled
    obtain ⟨t, rec, x, hitem, hredeemable, hx, rfl⟩ := hsettled
    exact not_alike_of_expiry (g.tidy _) (g.tidy _) rfl hitem hredeemable hx (fun _ _ hholds _ => hholds.1)
      (hall [] List.nil_prefix)

/-! ### A stolen token -/

section

/-- The refresh token `r` of a user's tool. -/
def shopGrants : Grants shop where
  items k := if k = refreshKey "r" then
      some ⟨.refresh ⟨"paprika-mcp", "claude", "ada", "ada@shop", "Ada", some ["team"], "paprika:read"⟩, 0⟩
    else none
  codes code e h := by
    rw [if_neg (authCodeKey_ne_refreshKey _ _)] at h
    cases h
  tokens t e h := by
    split_ifs at h
    exact ⟨_, congrArg Entry.payload (Option.some.inj h).symm⟩
  unused i := by
    refine if_neg fun h => ?_
    have hletters : List.replicate (i + 1) 'x' = ['r'] := by
      simpa [shop] using congrArg String.toList (append_right_inj h)
    rw [List.replicate_succ, List.cons.injEq] at hletters
    exact absurd hletters.1 (by decide)

def presents (clientID : String) : TokenEvent Unit :=
  .request ⟨(), "POST", .pending "", none, fun _ => some ["https://eve.shop/callback"], true⟩
    (some ⟨[], clientID, "refresh_token", "", "", "", "r"⟩)

/-- Another client presents the token, and then the tool that it was issued to. -/
theorem wrong_client_burns : ¬∀ pre, pre <+: [presents "eve", presents "claude"] →
    shop.Alike 3600 (run (shop.step 3600 .memory) (shopGrants.start 1) pre)
      (run (shop.step 3600 .secret) (shopGrants.start 1) pre) := by
  intro h
  have hstatuses := (h _ (List.prefix_refl _)).1
  have hmemory : (run (shop.step 3600 .memory) (shopGrants.start 1) [presents "eve", presents "claude"]).statuses =
      [400, 400] := by decide
  have hsecret : (run (shop.step 3600 .secret) (shopGrants.start 1) [presents "eve", presents "claude"]).statuses =
      [400, 200] := by decide
  rw [hmemory, hsecret] at hstatuses
  cases hstatuses
end

end Paprika.OAuth
