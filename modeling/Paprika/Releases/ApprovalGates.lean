import Paprika.Lib.Run
import Paprika.Lib.Versioned

/-!
# Approval gates

`checkApprovalGates` of `release_controller.go` with `Evaluate` of `internal/gates`, and the writers of the gate status
of an Application: the check of a Release replaces the list, the API decides one entry, and the Application controller
writes back the list it has read, when that is not empty.

The list is kept by gate name and no new Release resets it.  `approval_gates`: every promotion was approved, and every
rejection decided, for the Release itself, provided that no check finds one of its gates decided in a list that was
filled for another Release.
-/

namespace Paprika.Releases

open Lib Lib.Run List

/-! ## One check -/

inductive GateType
  | manual | webhook | slack
  deriving DecidableEq, Repr

/-- `Pending`, `Approved`, `Rejected`. -/
inductive GateDecision
  | pending | approved | rejected
  deriving DecidableEq, Repr

structure ApprovalGate where
  name : String
  stage : String
  type : GateType
  required : Bool
  url : String
  successStatus : Int
  deriving DecidableEq, Repr

structure GateStatus where
  name : String
  stage : String
  type : GateType
  status : GateDecision
  approvedBy : String
  message : String
  deriving DecidableEq, Repr

/-- What becomes of the request of a webhook gate. -/
inductive WebhookResponse
  | invalid (message : String)
  | failed (message : String)
  | status (code : Int)
  deriving DecidableEq, Repr

structure ApprovalGateResult where
  status : GateDecision
  approvedBy : String
  message : String
  deriving DecidableEq, Repr

def pendingResult (message : String) : ApprovalGateResult :=
  { status := .pending, approvedBy := "", message := message }

def webhookResultFromResponse (code : Int) (gate : ApprovalGate) : ApprovalGateResult :=
  if gate.successStatus > 0 then
    if code = gate.successStatus then { status := .approved, approvedBy := "webhook", message := s!"HTTP {code}" }
    else pendingResult s!"HTTP {code} (expected {gate.successStatus})"
  else if code ≥ 200 ∧ code < 300 then { status := .approved, approvedBy := "webhook", message := s!"HTTP {code}" }
  else pendingResult s!"HTTP {code} (expected 2xx)"

def evaluateWebhook (gate : ApprovalGate) (response : WebhookResponse) : ApprovalGateResult :=
  if gate.url = "" then pendingResult "webhook gate missing URL"
  else
    match response with
    | .invalid message => pendingResult s!"invalid webhook request: {message}"
    | .failed message => pendingResult s!"webhook call failed: {message}"
    | .status code => webhookResultFromResponse code gate

/-- `Evaluate`; `none` is a gate without a status. -/
def evaluate (gate : ApprovalGate) (response : WebhookResponse) (currentStatus : Option GateDecision) :
    ApprovalGateResult :=
  if currentStatus = some .approved then { status := .approved, approvedBy := "manual", message := "" }
  else if currentStatus = some .rejected then { status := .rejected, approvedBy := "", message := "" }
  else
    match gate.type with
    | .manual => pendingResult "waiting for manual approval"
    | .webhook => evaluateWebhook gate response
    | .slack => pendingResult "Slack interaction is Phase 2"

/-- A Stage as the check reads it. -/
structure GateStage where
  name : String
  approvalGates : List ApprovalGate
  deriving DecidableEq, Repr

def effectiveApprovalGates (appGates : List ApprovalGate) (stage : GateStage) : List ApprovalGate :=
  appGates.filter (fun g => g.required && (decide (g.stage = "") || decide (g.stage = stage.name))) ++
    stage.approvalGates.filter (fun g => g.required)

def findGateStatus (statuses : List GateStatus) (name : String) : Option GateStatus :=
  statuses.find? (fun s => decide (s.name = name))

def gateStatus (g : ApprovalGate) (result : ApprovalGateResult) : GateStatus where
  name := g.name
  stage := g.stage
  type := g.type
  status := result.status
  approvedBy := if result.status = .approved then result.approvedBy else ""
  message := if result.status = .approved then "" else result.message

def gateStatuses (current : List GateStatus) (webhook : String → WebhookResponse) (gateList : List ApprovalGate) :
    List GateStatus :=
  gateList.map (fun g => gateStatus g (evaluate g (webhook g.name) ((findGateStatus current g.name).map (·.status))))

/-- Approved, rejected, or neither. -/
def verdict (statuses : List GateStatus) : GateDecision :=
  if statuses.any (fun s => s.status = .rejected) then .rejected
  else if statuses.any (fun s => s.status = .pending) then .pending
  else .approved

/-! ## The Application's gate status -/

/-- The gate status, and the release whose check has filled it. -/
structure GateList where
  gates : List GateStatus
  filledFor : Option String
  deriving DecidableEq, Repr

structure GateRelease where
  name : String
  /-- Its target, a Stage. -/
  target : String
  created : Nat
  deriving DecidableEq, Repr

/-- A gate is approved or rejected, while the list is that of a release. -/
structure Decided where
  gate : String
  decision : GateDecision
  release : String
  target : String
  time : Nat
  deriving DecidableEq, Repr

structure GateWorld where
  app : Versioned GateList
  releases : List GateRelease
  /-- All decisions so far. -/
  decisions : List Decided
  clock : Nat

def GateWorld.initial : GateWorld where
  app := Versioned.create { gates := [], filledFor := none }
  releases := []
  decisions := []
  clock := 0

inductive CheckedPhase
  | promoting | awaitingApproval
  deriving DecidableEq, Repr

/-- A reconcile that checks the gates of a release. -/
structure GateCheck where
  release : String
  phase : CheckedPhase
  /-- How many versions behind the Application is read; `none` where it cannot be read. -/
  behind : Option Nat
  appGates : List ApprovalGate
  stage : Option GateStage
  webhook : String → WebhookResponse
  /-- Whether the statuses are written. -/
  synced : Bool

inductive GateEvent
  | create (name target : String)
  | check (c : GateCheck)
  /-- `ApproveGate` and `RejectGate`, from a copy that may be old. -/
  | decide (gate : String) (approve : Bool) (behind : Nat)
  /-- The Application controller patches the status, with the gates of the copy it has read. -/
  | patch (behind : Nat)
  /-- Any other write of the Application. -/
  | touch

/-- What the phases do with a check. -/
inductive CheckOutcome
  | promotes | approved | awaits | rejected
  | error (message : String)
  deriving DecidableEq, Repr

/-- What `checkApprovalGates` reads. -/
structure CheckInputs where
  current : GateList
  gateList : List ApprovalGate

def GateWorld.inputs (w : GateWorld) (c : GateCheck) : Except String CheckInputs :=
  match c.behind with
  | none => .error "resolve owning application"
  | some behind =>
    match c.stage with
    | none => .error "fetch stage"
    | some stage => .ok { current := (w.app.read behind).value, gateList := effectiveApprovalGates c.appGates stage }

def GateWorld.release? (w : GateWorld) (name : String) : Option GateRelease :=
  w.releases.find? (fun r => decide (r.name = name))

def CheckInputs.statuses (i : CheckInputs) (c : GateCheck) : List GateStatus :=
  gateStatuses i.current.gates c.webhook i.gateList

def phaseOutcome (phase : CheckedPhase) (decision : GateDecision) : CheckOutcome :=
  match decision with
  | .rejected => .rejected
  | .pending => .awaits
  | .approved => if phase = .promoting then .promotes else .approved

/-- `checkApprovalGates`, and what the phase makes of it. -/
def GateWorld.outcome (w : GateWorld) (c : GateCheck) : CheckOutcome :=
  match w.inputs c with
  | .error e => .error e
  | .ok i =>
    if i.gateList.length = 0 then phaseOutcome c.phase .approved
    else if c.synced then phaseOutcome c.phase (verdict (i.statuses c))
    else .error "sync gate status"

def CheckInputs.webhookApprovals (i : CheckInputs) (c : GateCheck) : List ApprovalGate :=
  i.gateList.filter (fun g =>
    decide ((evaluate g (c.webhook g.name) ((findGateStatus i.current.gates g.name).map (·.status))).status = .approved ∧
      (findGateStatus i.current.gates g.name).map (·.status) ≠ some .approved))

/-- A check of an existing release: its webhooks decide, and the statuses replace the list. -/
def GateWorld.checked (w : GateWorld) (c : GateCheck) (r : GateRelease) (i : CheckInputs) : GateWorld :=
  { w with
    app := if i.gateList.length = 0 ∨ c.synced = false then w.app
      else w.app.write { gates := i.statuses c, filledFor := some r.name }
    decisions := w.decisions ++ (i.webhookApprovals c).map (fun g =>
      { gate := g.name, decision := .approved, release := r.name, target := r.target, time := w.clock })
    clock := w.clock + 1 }

/-- The first entry of a name, decided. -/
def decideEntry (gate : String) (approve : Bool) : List GateStatus → Option (List GateStatus)
  | [] => none
  | s :: rest =>
    if s.name = gate then
      some ({ s with
        status := if approve then .approved else .rejected
        approvedBy := if approve then "api" else "" } :: rest)
    else (decideEntry gate approve rest).map (fun rest => s :: rest)

def apiDecision (w : GateWorld) (gate : String) (approve : Bool) (list : GateList) : List Decided :=
  match list.filledFor.bind w.release? with
  | none => []
  | some r =>
    [{ gate := gate, decision := if approve then .approved else .rejected, release := r.name, target := r.target
       time := w.clock }]

def gateStep (w : GateWorld) : GateEvent → GateWorld
  | .create name target =>
    if (w.release? name).isSome then w
    else { w with
      releases := w.releases ++ [{ name := name, target := target, created := w.clock }]
      clock := w.clock + 1 }
  | .check c =>
    match w.release? c.release with
    | none => w
    | some r =>
      match w.inputs c with
      | .error _ => w
      | .ok i => w.checked c r i
  | .decide gate approve behind =>
    let copy := w.app.read behind
    match decideEntry gate approve copy.value.gates with
    | none => w
    | some gates =>
      if copy.version = w.app.version then
        { w with
          app := w.app.update copy { copy.value with gates := gates }
          decisions := w.decisions ++ apiDecision w gate approve copy.value
          clock := w.clock + 1 }
      else w
  | .patch behind =>
    { w with
      app := w.app.write (if (w.app.read behind).value.gates.length = 0 then w.app.current
        else (w.app.read behind).value) }
  | .touch => { w with app := w.app.write w.app.current }

/-! ## What an approval is good for -/

/-- A decision was made on the gate, for this release and its stage, after its creation. -/
def GateWorld.DecidedFor (w : GateWorld) (r : GateRelease) (gate : String) (decision : GateDecision) : Prop :=
  ∃ d ∈ w.decisions, d.gate = gate ∧ d.decision = decision ∧ d.release = r.name ∧ d.target = r.target ∧
    r.created < d.time

/-- Promotions and rejections are decided for the release itself. -/
def Authorised (w : GateWorld) : GateEvent → Prop
  | .check c => ∀ r, w.release? c.release = some r → ∀ i, w.inputs c = .ok i →
      (w.outcome c = .promotes → ∀ g ∈ i.gateList, (gateStep w (.check c)).DecidedFor r g.name .approved) ∧
      (w.outcome c = .rejected → ∃ g ∈ i.gateList, (gateStep w (.check c)).DecidedFor r g.name .rejected)
  | _ => True

/-- A list that was filled for another release decides none of the gates that the checked one requires. -/
def FreshGates (w : GateWorld) : GateEvent → Prop
  | .check c => ∀ i ∈ (w.inputs c).toOption, i.current.filledFor ≠ some c.release →
      ∀ g ∈ i.gateList, ∀ s ∈ findGateStatus i.current.gates g.name, s.status = .pending
  | _ => True

instance decidableFreshGates : ∀ (w : GateWorld) (e : GateEvent), Decidable (FreshGates w e)
  | _, .check _ => inferInstanceAs (Decidable (∀ _, _))
  | _, .create _ _ => .isTrue trivial
  | _, .decide _ _ _ => .isTrue trivial
  | _, .patch _ => .isTrue trivial
  | _, .touch => .isTrue trivial

/-! ### One gate -/

section
variable {gate : ApprovalGate} {response : WebhookResponse} {current : Option GateDecision}

theorem webhookResultFromResponse_ne_rejected (code : Int) : (webhookResultFromResponse code gate).status ≠ .rejected := by
  intro h
  unfold webhookResultFromResponse at h
  split at h
  · split at h <;> cases h
  · split at h <;> cases h

theorem evaluateWebhook_ne_rejected : (evaluateWebhook gate response).status ≠ .rejected := by
  intro h
  unfold evaluateWebhook at h
  split at h
  · cases h
  · cases response with
    | invalid message => cases h
    | failed message => cases h
    | status code => exact webhookResultFromResponse_ne_rejected code h

theorem evaluate_rejected (h : (evaluate gate response current).status = .rejected) : current = some .rejected := by
  unfold evaluate at h
  split at h
  · cases h
  split at h
  · assumption
  · split at h
    · cases h
    · exact absurd h evaluateWebhook_ne_rejected
    · cases h
end

variable {name : String} {statuses : List GateStatus}

theorem verdict_approved (h : verdict statuses = .approved) : ∀ s ∈ statuses, s.status = .approved := by
  unfold verdict at h
  split at h
  · cases h
  split at h
  · cases h
  · rename_i hrejected hpend
    intro s hs
    simp only [any_eq_true, decide_eq_true_eq, not_exists, not_and] at hrejected hpend
    cases hstatus : s.status with
    | approved => rfl
    | pending => exact absurd hstatus (hpend s hs)
    | rejected => exact absurd hstatus (hrejected s hs)

theorem verdict_rejected (h : verdict statuses = .rejected) : ∃ s ∈ statuses, s.status = .rejected := by
  unfold verdict at h
  split at h
  · rename_i hany
    simpa using hany
  · split at h <;> cases h

theorem findGateStatus_some {s : GateStatus}
    (h : findGateStatus statuses name = some s) : s ∈ statuses ∧ s.name = name :=
  ⟨mem_of_find?_eq_some h, by simpa using List.find?_some h⟩

/-! ### The invariant -/

variable {w : GateWorld} {c : GateCheck} {r : GateRelease} {i : CheckInputs}

/-- Every decided entry, in every version, was decided for the release that its list was filled for. -/
structure GatesInv (w : GateWorld) : Prop where
  filled : ∀ l ∈ w.app.versions, ∀ s ∈ l.gates, ∃ r, l.filledFor = some r.name ∧ w.release? r.name = some r ∧
    (s.status ≠ .pending → w.DecidedFor r s.name s.status)
  created : ∀ r ∈ w.releases, r.created < w.clock

theorem release?_name (h : w.release? name = some r) : r.name = name := by simpa using List.find?_some h

theorem release?_mem (h : w.release? name = some r) : r ∈ w.releases := List.mem_of_find?_eq_some h

variable {decision : GateDecision}

theorem DecidedFor.mono {w' : GateWorld} {gate : String}
    (hsub : w.decisions ⊆ w'.decisions) (h : w.DecidedFor r gate decision) : w'.DecidedFor r gate decision := by
  obtain ⟨d, hd, hrest⟩ := h
  exact ⟨d, hsub hd, hrest⟩

theorem inputs_current (h : w.inputs c = .ok i) : i.current ∈ w.app.versions := by
  unfold GateWorld.inputs at h
  split at h
  · cases h
  · split at h
    · cases h
    · cases h
      exact (w.app.holds_read _).mem

theorem decidedFor_of_evaluate (hinv : GatesInv w) (hfresh : FreshGates w (.check c))
    (hrel : w.release? c.release = some r) (hinputs : w.inputs c = .ok i) {g : ApprovalGate}
    (hg : g ∈ i.gateList) (hne : decision ≠ .pending)
    (h : (evaluate g (c.webhook g.name) ((findGateStatus i.current.gates g.name).map (·.status))).status = decision) :
    (w.checked c r i).DecidedFor r g.name decision := by
  by_cases hcur : (findGateStatus i.current.gates g.name).map (·.status) = some decision
  · -- the status was there: then the list was filled for this release
    obtain ⟨s, hs, hstatus⟩ := Option.map_eq_some_iff.mp hcur
    have hfilled : i.current.filledFor = some c.release := by
      by_contra hother
      have hpend := hfresh i (by rw [hinputs]; rfl) hother g hg s hs
      exact hne (by rw [← hstatus, hpend])
    obtain ⟨hmem, hname⟩ := findGateStatus_some hs
    obtain ⟨r', hfor, hr', hdecided⟩ := hinv.filled _ (inputs_current hinputs) s hmem
    have hname' : r'.name = c.release := Option.some.inj (hfor.symm.trans hfilled)
    have hsame : r' = r := by
      rw [hname'] at hr'
      exact Option.some.inj (hr'.symm.trans hrel)
    subst hsame
    have hold := hdecided (by rw [hstatus]; exact hne)
    rw [hname, hstatus] at hold
    exact DecidedFor.mono (subset_append_left _ _) hold
  · -- otherwise a webhook approves it now
    cases decision with
    | pending => exact absurd rfl hne
    | rejected => exact absurd (evaluate_rejected h) hcur
    | approved =>
    refine ⟨{ gate := g.name, decision := .approved, release := r.name, target := r.target, time := w.clock },
      mem_append_right _ (mem_map.mpr ⟨g, ?_, rfl⟩), rfl, rfl, rfl, rfl,
      hinv.created r (release?_mem hrel)⟩
    exact mem_filter.mpr ⟨hg, decide_eq_true ⟨h, hcur⟩⟩

theorem outcome_of_inputs (hinputs : w.inputs c = .ok i) : w.outcome c =
      if i.gateList.length = 0 then phaseOutcome c.phase .approved
      else if c.synced then phaseOutcome c.phase (verdict (i.statuses c))
      else .error "sync gate status" := by
  unfold GateWorld.outcome
  rw [hinputs]

theorem phaseOutcome_promotes {phase : CheckedPhase}
    (h : phaseOutcome phase decision = .promotes) : decision = .approved := by
  unfold phaseOutcome at h
  split at h
  · cases h
  · cases h
  · rfl

theorem phaseOutcome_rejected {phase : CheckedPhase}
    (h : phaseOutcome phase decision = .rejected) : decision = .rejected := by
  unfold phaseOutcome at h
  split at h
  · rfl
  · cases h
  · split at h <;> cases h

theorem gateStep_check (hrel : w.release? c.release = some r) (hinputs : w.inputs c = .ok i) :
    gateStep w (.check c) = w.checked c r i := by
  unfold gateStep
  dsimp only
  rw [hrel]
  dsimp only
  rw [hinputs]

theorem authorised_check (hinv : GatesInv w) (hfresh : FreshGates w (.check c)) : Authorised w (.check c) := by
  intro r hrel i hinputs
  rw [gateStep_check hrel hinputs, outcome_of_inputs hinputs]
  constructor
  · intro hout g hg
    have hlen : i.gateList.length ≠ 0 := fun hzero => by
      rw [length_eq_zero_iff.mp hzero] at hg
      cases hg
    rw [if_neg hlen] at hout
    split at hout
    · have hall := verdict_approved (phaseOutcome_promotes hout)
      exact decidedFor_of_evaluate hinv hfresh hrel hinputs hg (by decide)
        (hall _ (mem_map.mpr ⟨g, hg, rfl⟩))
    · cases hout
  · intro hout
    split at hout
    · cases hphase : c.phase <;> rw [hphase] at hout <;> cases hout
    split at hout
    · obtain ⟨s, hs, hstatus⟩ := verdict_rejected (phaseOutcome_rejected hout)
      obtain ⟨g, hg, rfl⟩ := mem_map.mp hs
      exact ⟨g, hg, decidedFor_of_evaluate hinv hfresh hrel hinputs hg (by decide) hstatus⟩
    · cases hout

/-! ### What each step keeps -/

theorem gatesInv_initial : GatesInv GateWorld.initial where
  filled := by
    intro l hl s hs
    have hempty : l = { gates := [], filledFor := none } := mem_singleton.mp hl
    rw [hempty] at hs
    cases hs
  created := fun r hr => by cases hr

theorem gatesInv_write (hinv : GatesInv w) {l : GateList} (hl : l ∈ w.app.versions) :
    GatesInv { w with app := w.app.write l } where
  filled := by
    intro l' hl' s hs
    rcases mem_cons.mp hl' with rfl | hold
    · exact hinv.filled _ hl s hs
    · exact hinv.filled _ hold s hs
  created := hinv.created

theorem gatesInv_create (hinv : GatesInv w) (name target : String) : GatesInv (gateStep w (.create name target)) := by
  unfold gateStep
  dsimp only
  split
  · exact hinv
  refine { filled := ?_, created := ?_ }
  · intro l hl s hs
    obtain ⟨r, hfor, hr, hdecided⟩ := hinv.filled l hl s hs
    exact ⟨r, hfor, List.find?_append.trans (by rw [show w.releases.find? _ = some r from hr]; rfl), hdecided⟩
  intro r hr
  show r.created < w.clock + 1
  rcases mem_append.mp hr with hold | hnew
  · exact Nat.lt_succ_of_lt (hinv.created r hold)
  · rw [mem_singleton.mp hnew]
    exact Nat.lt_succ_self _

theorem gatesInv_check (hinv : GatesInv w) (hfresh : FreshGates w (.check c)) : GatesInv (gateStep w (.check c)) := by
  cases hrel : w.release? c.release with
  | none =>
    unfold gateStep
    dsimp only
    rw [hrel]
    exact hinv
  | some r =>
  cases hinputs : w.inputs c with
  | error e =>
    unfold gateStep
    dsimp only
    rw [hrel]
    dsimp only
    rw [hinputs]
    exact hinv
  | ok i =>
  rw [gateStep_check hrel hinputs]
  have hname := release?_name hrel
  have hkept : ∀ l ∈ w.app.versions, ∀ s ∈ l.gates, ∃ r', l.filledFor = some r'.name ∧
      (w.checked c r i).release? r'.name = some r' ∧
      (s.status ≠ .pending → (w.checked c r i).DecidedFor r' s.name s.status) := by
    intro l hl s hs
    obtain ⟨r', hfor, hr', hdecided⟩ := hinv.filled l hl s hs
    exact ⟨r', hfor, hr', fun hne => DecidedFor.mono (subset_append_left _ _) (hdecided hne)⟩
  refine { filled := ?_, created := fun r hr => Nat.lt_succ_of_lt (hinv.created r hr) }
  intro l hl s hs
  unfold GateWorld.checked at hl
  dsimp only at hl
  split at hl
  · exact hkept l hl s hs
  rcases mem_cons.mp hl with rfl | hold
  · obtain ⟨g, hg, rfl⟩ := mem_map.mp hs
    refine ⟨r, rfl, ?_, fun hne => decidedFor_of_evaluate hinv hfresh hrel hinputs hg hne rfl⟩
    rw [hname]
    exact hrel
  · exact hkept l hold s hs

theorem mem_decideEntry {gate : String} {approve : Bool} {gates gates' : List GateStatus}
    (h : decideEntry gate approve gates = some gates') {s : GateStatus} (hs : s ∈ gates') :
    s ∈ gates ∨ (s.name = gate ∧ s.status = (if approve then .approved else .rejected) ∧ gates ≠ []) := by
  induction gates generalizing gates' with
  | nil => cases h
  | cons t rest ih =>
    unfold decideEntry at h
    split at h
    · rename_i hname
      cases h
      rcases mem_cons.mp hs with rfl | hrest
      · exact .inr ⟨hname, rfl, cons_ne_nil _ _⟩
      · exact .inl (mem_cons_of_mem t hrest)
    obtain ⟨rest', hrest', rfl⟩ := Option.map_eq_some_iff.mp h
    rcases mem_cons.mp hs with rfl | hmem
    · exact .inl mem_cons_self
    · rcases ih hrest' hmem with hold | ⟨hname, hstatus, -⟩
      · exact .inl (mem_cons_of_mem t hold)
      · exact .inr ⟨hname, hstatus, cons_ne_nil _ _⟩

theorem gatesInv_decide (hinv : GatesInv w) (gate : String) (approve : Bool) (behind : Nat) :
    GatesInv (gateStep w (.decide gate approve behind)) := by
  unfold gateStep
  dsimp only
  cases hentry : decideEntry gate approve (w.app.read behind).value.gates with
  | none => exact hinv
  | some gates =>
  dsimp only
  split
  · rename_i hver
    have hcopy : (w.app.read behind).value ∈ w.app.versions := (w.app.holds_read behind).mem
    rw [Versioned.update_eq hver]
    refine { filled := ?_, created := fun r hr => Nat.lt_succ_of_lt (hinv.created r hr) }
    intro l hl s hs
    rcases mem_cons.mp hl with rfl | hold
    · rcases mem_decideEntry hentry hs with hmem | ⟨hname, hstatus, hne⟩
      · obtain ⟨r, hfor, hr, hdecided⟩ := hinv.filled _ hcopy s hmem
        exact ⟨r, hfor, hr, fun hne => DecidedFor.mono (subset_append_left _ _) (hdecided hne)⟩
      obtain ⟨t, ht⟩ := exists_mem_of_ne_nil _ hne
      obtain ⟨r, hfor, hr, -⟩ := hinv.filled _ hcopy t ht
      refine ⟨r, hfor, hr, fun _ => ⟨{ gate := gate, decision := if approve then .approved else .rejected
                                       release := r.name, target := r.target, time := w.clock },
        mem_append_right _ ?_, hname.symm, hstatus.symm, rfl, rfl,
        hinv.created r (release?_mem hr)⟩⟩
      unfold apiDecision
      rw [hfor, Option.bind_some, hr]
      exact mem_singleton.mpr rfl
    · obtain ⟨r, hfor, hr, hdecided⟩ := hinv.filled l hold s hs
      exact ⟨r, hfor, hr, fun hne => DecidedFor.mono (subset_append_left _ _) (hdecided hne)⟩
  · exact hinv

theorem gatesInv_step {e : GateEvent} (hinv : GatesInv w) (hfresh : FreshGates w e) : GatesInv (gateStep w e) := by
  have hcur : w.app.current ∈ w.app.versions := mem_cons_self
  cases e with
  | create name target => exact gatesInv_create hinv name target
  | check c => exact gatesInv_check hinv hfresh
  | decide gate approve behind => exact gatesInv_decide hinv gate approve behind
  | patch behind =>
    refine gatesInv_write hinv ?_
    split
    · exact hcur
    · exact (w.app.holds_read behind).mem
  | touch => exact gatesInv_write hinv hcur

/-- **Approval gates**, in a run in which no check finds one of its gates decided in a list that was filled for another
release. -/
theorem approval_gates (events : List GateEvent) (h : Guarded gateStep FreshGates GateWorld.initial events) :
    Guarded gateStep Authorised GateWorld.initial events := by
  refine guarded_imp (motive := GatesInv) (fun w e => gatesInv_step) ?_ gatesInv_initial h
  intro w e hinv hfresh
  cases e with
  | check c => exact authorised_check hinv hfresh
  | create name target => trivial
  | decide gate approve behind => trivial
  | patch behind => trivial
  | touch => trivial

/-! ### Two releases of one stage -/

def prodStage : GateStage where
  name := "prod"
  approvalGates := [{ name := "qa", stage := "", type := .manual, required := true, url := "", successStatus := 0 }]

/-- A check that reads everything as it is. -/
def prodCheck (release : String) (phase : CheckedPhase) : GateEvent :=
  .check { release := release, phase := phase, behind := some 0, appGates := [], stage := some prodStage
           webhook := fun _ => .failed "no webhook", synced := true }

def firstRelease : List GateEvent :=
  [.create "web-1" "prod", prodCheck "web-1" .promoting, .decide "qa" true 0, prodCheck "web-1" .awaitingApproval,
    prodCheck "web-1" .promoting]

theorem approval_gates_first_release : Guarded gateStep FreshGates GateWorld.initial firstRelease ∧
      Guarded gateStep Authorised GateWorld.initial firstRelease :=
  ⟨by decide, approval_gates firstRelease (by decide)⟩

/-- The next release of the stage is promoted on the approval of the first. -/
theorem approval_passes_second_release :
    ¬ ∀ events : List GateEvent, Guarded gateStep Authorised GateWorld.initial events := by
  intro h
  have hlast := (guarded_append.mp (h (firstRelease ++ [.create "web-2" "prod", prodCheck "web-2" .promoting]))).2.2.1
  generalize hw : gateStep (run gateStep GateWorld.initial firstRelease) (.create "web-2" "prod") = w at hlast
  have hrelease : w.release? "web-2" = some { name := "web-2", target := "prod", created := 5 } := by
    rw [← hw]
    decide
  obtain ⟨d, hd, -, -, hname, -⟩ := (hlast _ hrelease _ rfl).1 (by rw [← hw]; decide) _ mem_cons_self
  have hnone : ∀ d ∈ (gateStep w (prodCheck "web-2" .promoting)).decisions, d.release ≠ "web-2" := by
    rw [← hw]
    decide
  exact hnone d hd hname

end Paprika.Releases
