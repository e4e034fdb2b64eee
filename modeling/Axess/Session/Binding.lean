import Axess.Session.Service

/-!
# Binding a session to its client

With a binding configured, the fingerprint of the request is waiting in the session until the
first transition out of `Guest` takes it. `clear` throws the stored fingerprint away and does not
put the waiting one back, so what leaves `Guest` after a bound session was cleared is bound to
nobody (`fingerprint_iff`).
-/

namespace Axess

open Calls

variable {V : Type}

namespace Transition

/-- The transitions that set a user, and bind the session. -/
def setsUser : Transition → Bool
  | setIdentifying .. => true
  | beginAuthenticating .. => true
  | setAuthenticated .. => true
  | setPendingWorkflow .. => true
  | _ => false

/-- A `clear` comes after the session was bound: it was on arrival, or a transition bound it. -/
def ClearsBound (bound : Bool) (ts : List Transition) : Prop :=
  ∃ before after, ts = before ++ .clear :: after ∧ (bound = true ∨ ∃ t ∈ before, t.setsUser = true)

end Transition

/-- How a session stands: not bound yet (a guest, the fingerprint waiting), bound, or past
binding (cleared after it was bound). -/
inductive BindState where
  | waiting | bound | lost
  deriving DecidableEq, Repr

namespace BindState

def step (b : BindState) (t : Transition) : BindState :=
  match b with
  | waiting => if t.setsUser then bound else waiting
  | bound => if t = .clear then lost else bound
  | lost => lost

/-- The session stands as `b` says, for a request whose fingerprint is `current`. -/
def Stands (current : String) (s : SessionInner V) : BindState → Prop
  | waiting => s.data.fingerprint = none ∧ s.pendingFingerprint = some current ∧
      s.data.authState = .guest
  | bound => s.data.fingerprint = some current ∧ s.pendingFingerprint = none
  | lost => s.data.fingerprint = none ∧ s.pendingFingerprint = none

variable {current : String} {s : SessionInner V} {b : BindState}

/-- A transition that sets a user binds a session that waits, and changes no other binding; what
it does besides (`f`) leaves the fingerprints alone. -/
theorem stands_bindFingerprint {t : SessionInner V} (h : Stands current s b)
    (hfp : t.data.fingerprint = s.data.fingerprint)
    (hpending : t.pendingFingerprint = s.pendingFingerprint) :
    Stands current t.bindFingerprint (if b = waiting then bound else b) := by
  cases b with
  | waiting =>
    obtain ⟨hnone, hsome, -⟩ := h
    exact SessionInner.bindFingerprint_waiting (hfp.trans hnone) (hpending.trans hsome)
  | bound =>
    obtain ⟨hsome, hnone⟩ := h
    rw [SessionInner.bindFingerprint_of_pending_none (hpending.trans hnone)]
    exact ⟨hfp.trans hsome, hpending.trans hnone⟩
  | lost =>
    obtain ⟨hnone, hnone'⟩ := h
    rw [SessionInner.bindFingerprint_of_pending_none (hpending.trans hnone')]
    exact ⟨hfp.trans hnone, hpending.trans hnone'⟩

theorem step_setsUser {t : Transition} (h : t.setsUser = true) (b : BindState) :
    b.step t = if b = waiting then bound else b := by
  have hclear : t ≠ .clear := by
    intro hc
    rw [hc] at h
    exact absurd h (by decide)
  cases b
  · exact if_pos h
  · exact if_neg hclear
  · rfl

theorem stands_advanceFactor (h : Stands current s b) (kind : FactorKind) (now : Instant)
    (preserved : List String) :
    Stands current (AuthSession.advanceFactor kind now preserved s) b := by
  cases b with
  | waiting =>
    -- a guest has no factor to advance
    obtain ⟨hnone, hsome, hguest⟩ := h
    have hsame : AuthSession.advanceFactor kind now preserved s = s := by
      unfold AuthSession.advanceFactor
      rw [hguest]
      rfl
    rw [hsame]
    exact ⟨hnone, hsome, hguest⟩
  | bound =>
    unfold AuthSession.advanceFactor
    split
    · exact stands_bindFingerprint h rfl rfl
    · exact h
    · exact h
  | lost =>
    unfold AuthSession.advanceFactor
    split
    · exact stands_bindFingerprint h rfl rfl
    · exact h
    · exact h

theorem stands_clear (h : Stands current s b) :
    Stands current (AuthSession.clear s) (b.step .clear) := by
  cases b with
  | waiting => exact ⟨rfl, h.2.1, rfl⟩
  | bound => exact ⟨rfl, h.2⟩
  | lost => exact ⟨rfl, h.2⟩

theorem stands_apply (h : Stands current s b) (t : Transition) :
    Stands current (t.apply s) (b.step t) := by
  cases t with
  | setIdentifying u tenant =>
    rw [step_setsUser rfl]
    exact stands_bindFingerprint h rfl rfl
  | beginAuthenticating u tenant method steps =>
    rw [step_setsUser rfl]
    exact stands_bindFingerprint h rfl rfl
  | setAuthenticated u tenant now preserved =>
    rw [step_setsUser rfl]
    exact stands_bindFingerprint h rfl rfl
  | setPendingWorkflow u tenant workflow =>
    rw [step_setsUser rfl]
    exact stands_bindFingerprint h rfl rfl
  | advanceFactor kind now preserved =>
    have hstep : b.step (.advanceFactor kind now preserved) = b := by cases b <;> rfl
    rw [hstep]
    exact stands_advanceFactor h kind now preserved
  | clear => exact stands_clear h
  | regenerate =>
    have hstep : b.step .regenerate = b := by cases b <;> rfl
    rw [hstep]
    cases b <;> exact h

theorem stands_applyAll (ts : List Transition) :
    ∀ {s : SessionInner V} {b : BindState}, Stands current s b →
      Stands current (ts.foldl (fun s t => t.apply s) s) (ts.foldl step b) := by
  induction ts with
  | nil => exact fun h => h
  | cons t ts ih => exact fun h => ih (stands_apply h t)

theorem clearsBound_nil (arrived : Bool) : ¬Transition.ClearsBound arrived [] := by
  rintro ⟨before, after, hts, -⟩
  cases before <;> cases hts

theorem clearsBound_cons (arrived : Bool) (t : Transition) (ts : List Transition) :
    Transition.ClearsBound arrived (t :: ts) ↔
      arrived = true ∧ t = .clear ∨ Transition.ClearsBound (arrived || t.setsUser) ts := by
  constructor
  · rintro ⟨before, after, hts, hbound⟩
    cases before with
    | nil =>
      obtain ⟨rfl, -⟩ := List.cons_eq_cons.mp hts
      have harrived : arrived = true := by simpa using hbound
      exact .inl ⟨harrived, rfl⟩
    | cons u before =>
      obtain ⟨rfl, htail⟩ := List.cons_eq_cons.mp hts
      refine .inr ⟨before, after, htail, ?_⟩
      rw [List.exists_mem_cons_iff] at hbound
      rw [Bool.or_eq_true]
      tauto
  · rintro (⟨harrived, rfl⟩ | ⟨before, after, rfl, hbound⟩)
    · exact ⟨[], ts, rfl, .inl harrived⟩
    · refine ⟨t :: before, after, rfl, ?_⟩
      rw [List.exists_mem_cons_iff]
      rw [Bool.or_eq_true] at hbound
      tauto

theorem foldl_step_lost (ts : List Transition) : ts.foldl step lost = lost := by
  induction ts with
  | nil => rfl
  | cons t ts ih => exact ih

def arriving (arrived : Bool) : BindState := if arrived then bound else waiting

theorem foldl_step_eq_lost_iff (ts : List Transition) :
    ∀ arrived, ts.foldl step (arriving arrived) = lost ↔ Transition.ClearsBound arrived ts := by
  induction ts with
  | nil =>
    intro arrived
    have hne : arriving arrived ≠ lost := by cases arrived <;> decide
    exact iff_of_false hne (clearsBound_nil arrived)
  | cons t ts ih =>
    intro arrived
    rw [clearsBound_cons, ← ih, List.foldl_cons]
    by_cases hlost : arrived = true ∧ t = .clear
    · obtain ⟨rfl, rfl⟩ := hlost
      exact iff_of_true (foldl_step_lost ts) (.inl ⟨rfl, rfl⟩)
    · -- the session is bound after `t` if it was before, or `t` sets a user
      have hstep : (arriving arrived).step t = arriving (arrived || t.setsUser) := by
        cases arrived with
        | false => rfl
        | true => exact if_neg fun h => hlost ⟨rfl, h⟩
      rw [hstep, or_iff_right hlost]

end BindState

/-! ## A request -/

section Request

variable {layer : SessionLayer} {binding : SessionBinding}

theorem pendingFingerprint_bound {load : LoadOutcome V} {fingerprints : Fingerprints} {fp : String}
    (h : load.data.fingerprint = some fp) : pendingFingerprint true load fingerprints = none := by
  unfold pendingFingerprint
  rw [h]
  rfl

theorem pendingFingerprint_waiting {load : LoadOutcome V} {fingerprints : Fingerprints}
    (h : load.data.fingerprint = none) :
    pendingFingerprint true load fingerprints = fingerprints.current := by
  unfold pendingFingerprint
  rw [h]
  rfl

theorem checkBinding_data (data : SessionData V) (current : String) (previous : Option String) :
    (checkBinding data ⟨some current, previous⟩).data.fingerprint = some current ∨
      (checkBinding data ⟨some current, previous⟩).data.fingerprint = none ∧
        (checkBinding data ⟨some current, previous⟩).data.authState = .guest := by
  unfold checkBinding
  split
  · rename_i stored hstored
    by_cases hcurrent : current = stored
    · subst hcurrent
      left
      simp only [beq_self_eq_true, if_true]
      exact hstored
    · have hne : (some current == some stored) = false := by simpa using hcurrent
      simp only [hne, Bool.false_eq_true, if_false]
      split
      · rename_i old cur hprevious hcur
        cases hcur
        split
        · exact .inl rfl
        · exact .inr ⟨rfl, rfl⟩
      · exact .inr ⟨rfl, rfl⟩
  · rename_i hnone
    simp only
    split
    · exact .inl rfl
    · rename_i hguest
      refine .inr ⟨hnone, ?_⟩
      cases hstate : data.authState <;> simp_all [AuthState.isGuest]

theorem resolveDevice_data (load : LoadOutcome V) (device : Option (Option DeviceId)) :
    (resolveDevice load device).1.data.fingerprint = load.data.fingerprint ∧
      (resolveDevice load device).1.data.authState = load.data.authState := by
  unfold resolveDevice
  cases device with
  | none => exact ⟨rfl, rfl⟩
  | some resolved =>
    simp only
    split <;> exact ⟨rfl, rfl⟩

theorem stands_seedRequest (hbinding : layer.binding = some binding) (req : Request)
    (stored : StoredSession V) :
    let loaded := loadOutcome req.cookie (layer.fingerprints req) req.rng stored
    BindState.Stands (binding.current req.material) (seedRequest layer req loaded.1 loaded.2)
      (.arriving loaded.1.data.fingerprint.isSome) := by
  intro loaded
  have hfps : layer.fingerprints req = ⟨some (binding.current req.material),
      binding.previous.map fun previous => previous (req.material.getD noBindingMaterial)⟩ := by
    unfold SessionLayer.fingerprints
    rw [hbinding]
    rfl
  have hseed : seedRequest layer req loaded.1 loaded.2 =
      seedSessionState (resolveDevice loaded.1 req.device).1
        (resolveDevice loaded.1 req.device).2
        (pendingFingerprint true (resolveDevice loaded.1 req.device).1 (layer.fingerprints req))
        layer.config loaded.2 := by
    unfold seedRequest
    rw [hbinding]
    rfl
  obtain ⟨hfp, hstate⟩ := resolveDevice_data loaded.1 req.device
  have hchecked := checkBinding_data stored.data (binding.current req.material)
    (binding.previous.map fun previous => previous (req.material.getD noBindingMaterial))
  rw [← hfps] at hchecked
  rw [hseed]
  rcases hchecked with hbound | ⟨hnone, hguest⟩
  · have hloaded : loaded.1.data.fingerprint = some (binding.current req.material) := hbound
    rw [hloaded]
    exact ⟨hfp.trans hloaded, pendingFingerprint_bound (hfp.trans hloaded)⟩
  · have hloaded : loaded.1.data.fingerprint = none := hnone
    rw [hloaded]
    refine ⟨hfp.trans hloaded, ?_, hstate.trans hguest⟩
    show pendingFingerprint true _ _ = _
    rw [pendingFingerprint_waiting (hfp.trans hloaded), hfps]

end Request

def AuthSession.transitions (ts : List Transition) (s : SessionInner V) : SessionInner V :=
  ts.foldl (fun s t => t.apply s) s

/-- A session that is past guest at the end of a handler is bound to this client, unless the
handler cleared it after it was bound. -/
theorem fingerprint_iff {layer : SessionLayer} {binding : SessionBinding}
    (hbinding : layer.binding = some binding) (req : Request) (stored : StoredSession V)
    (ts : List Transition) :
    let loaded := loadOutcome req.cookie (layer.fingerprints req) req.rng stored
    let final := AuthSession.transitions ts (seedRequest layer req loaded.1 loaded.2)
    final.data.authState ≠ .guest →
      (final.data.fingerprint = some (binding.current req.material) ↔
        ¬Transition.ClearsBound loaded.1.data.fingerprint.isSome ts) := by
  intro loaded final hpast
  have hstands := BindState.stands_applyAll ts (stands_seedRequest hbinding req stored)
  rw [← BindState.foldl_step_eq_lost_iff]
  cases hfinal : ts.foldl BindState.step (.arriving loaded.1.data.fingerprint.isSome) with
  | waiting =>
    rw [hfinal] at hstands
    exact absurd hstands.2.2 hpast
  | bound =>
    rw [hfinal] at hstands
    exact iff_of_true hstands.1 (by decide)
  | lost =>
    rw [hfinal] at hstands
    have hnone : final.data.fingerprint = none := hstands.1
    rw [hnone]
    exact iff_of_false (by simp) (by simp)

namespace Binding

def exampleLayer : SessionLayer where
  config := ⟨3600, by decide, 0, none, none⟩
  registry := false
  unknown := .reject
  binding := some ⟨id, none⟩

def exampleRequest : Request where
  cookie := some ⟨⟨1⟩, false⟩
  material := some "client"
  device := none
  rng := fun n => ⟨n + 2⟩
  loadedAt := 0
  finishedAt := 0

def exampleRow : SessionData Nat :=
  { SessionData.default with
    authState := .beginAuthenticating ⟨7⟩ ⟨1⟩ "password" [.required .password]
    fingerprint := some "client" }

def exampleStored : StoredSession Nat := ⟨some ⟨1⟩, exampleRow, some exampleRow, false⟩

def exampleSession : SessionInner Nat :=
  let loaded := loadOutcome exampleRequest.cookie (exampleLayer.fingerprints exampleRequest)
    exampleRequest.rng exampleStored
  seedRequest exampleLayer exampleRequest loaded.1 loaded.2

def restart : List Transition :=
  [.clear, .beginAuthenticating ⟨7⟩ ⟨1⟩ "password" [.required .password]]

end Binding

open Binding in
theorem fingerprint_iff_advanced :
    let final := AuthSession.transitions [.advanceFactor .password 5 []] exampleSession
    final.data.authState ≠ .guest ∧
      (final.data.fingerprint = some "client" ↔
        ¬Transition.ClearsBound true [.advanceFactor .password 5 []]) :=
  have hpast : (AuthSession.transitions [.advanceFactor .password 5 []]
      exampleSession).data.authState ≠ .guest := by decide
  ⟨hpast, fingerprint_iff (rfl : exampleLayer.binding = _) exampleRequest exampleStored
    [.advanceFactor .password 5 []] hpast⟩

open Binding in
/-- Loaded bound to this client, the session leaves the request past guest and bound to nobody. -/
theorem restarted_login_unbound :
    exampleSession.data.fingerprint = some "client" ∧
      (AuthSession.transitions restart exampleSession).data.authState ≠ .guest ∧
      (AuthSession.transitions restart exampleSession).data.fingerprint = none := by
  decide

end Axess
