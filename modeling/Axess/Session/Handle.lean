import Axess.Session.Swap

/-!
# The session a request holds

The in-memory session of one request: the id it runs under, the data, and what the end of the
request has to do about them (`session/layer/handle.rs`), with the operations a handler has on it
(`session/extractor.rs`). All but one of them touch nothing shared; taking a one-shot value out
of the custom bag writes the stored row.
-/

namespace Axess

variable {V : Type}

/-- The stored row a consumption writes, as this request last saw it. -/
structure ConsumeTarget (V : Type) where
  ttl : Duration
  loaded : Option (SessionData V)

structure SessionInner (V : Type) where
  id : SessionId
  data : SessionData V
  modified : Bool
  needsPersist : Bool
  regenerate : Bool
  /-- The id the request arrived with, once it has rotated. -/
  preCycleId : Option SessionId
  pendingFingerprint : Option String
  maxCustomBytes : Nat
  rng : Stream' SessionId
  consume : Option (ConsumeTarget V)

namespace SessionInner

def rotateId (s : SessionInner V) : SessionInner V :=
  { s with
    preCycleId := some (s.preCycleId.getD s.id)
    id := s.rng.head
    rng := s.rng.tail
    regenerate := true }

def bindFingerprint (s : SessionInner V) : SessionInner V :=
  match s.data.fingerprint, s.pendingFingerprint with
  | none, some fp => { s with data := { s.data with fingerprint := some fp }, pendingFingerprint := none }
  | _, _ => s

def setState (s : SessionInner V) (state : AuthState) : SessionInner V :=
  { s with data := { s.data with authState := state } }

def setCustom (s : SessionInner V) (custom : Custom V) : SessionInner V :=
  { s with data := { s.data with custom } }

def touch (s : SessionInner V) : SessionInner V := { s with modified := true }

@[simp] theorem bindFingerprint_authState (s : SessionInner V) :
    s.bindFingerprint.data.authState = s.data.authState := by
  unfold bindFingerprint
  split <;> rfl

theorem bindFingerprint_waiting {s : SessionInner V} {fp : String}
    (hnone : s.data.fingerprint = none) (hpending : s.pendingFingerprint = some fp) :
    s.bindFingerprint.data.fingerprint = some fp ∧
      s.bindFingerprint.pendingFingerprint = none := by
  unfold bindFingerprint
  rw [hnone, hpending]
  exact ⟨rfl, rfl⟩

theorem bindFingerprint_of_pending_none {s : SessionInner V}
    (hpending : s.pendingFingerprint = none) : s.bindFingerprint = s := by
  unfold bindFingerprint
  rw [hpending]
  cases s.data.fingerprint <;> rfl

section Bag

variable [JsonSize V]

def setCustomValue (s : SessionInner V) (key : String) (value : V) : SessionInner V × Bool :=
  let bag := s.data.custom.bag
  let next : Custom V := .object (bag.insert key value)
  if s.maxCustomBytes > 0 && jsonByteLen next > s.maxCustomBytes then
    let back := match bag.lookup key with
      | some prev => (bag.insert key value).insert key prev
      | none => (bag.insert key value).erase key
    (s.setCustom (.object back), false)
  else
    ((s.setCustom next).touch, true)

end Bag

def takeFrom (key : String) (fresh : SessionData V) : Option (SessionData V × V) :=
  (fresh.custom.take key).map fun (value, rest) => ({ fresh with custom := rest }, value)

section Consume

variable [BEq V] [JsonSize V]

/-- What the first attempt of a consumption writes, and over which revision. Once the id has
rotated, the row under the id the request arrived with gets only the removal, on the row as
loaded; `none` when the row never held the key. -/
def consumeWrite (s : SessionInner V) (base : SessionData V) (key : String) :
    Option (SessionData V × UInt64) :=
  if s.preCycleId.isSome then
    (base.custom.take key).map fun (_, rest) => ({ base with custom := rest }, base.revision)
  else some (s.data, s.data.revision)

def consumed (s : SessionInner V) (ttl : Duration) (base written : SessionData V) :
    SessionInner V :=
  { s with
    data := if s.preCycleId.isSome then mergeRotating base s.data written else written
    consume := some ⟨ttl, some written⟩ }

/-- Take the value under `key`, out of the stored row too: `none` when another request took it
first, or the row cannot be written. -/
def consumeCustom (s : SessionInner V) (key : String) : Async V (Option V × SessionInner V) :=
  match s.data.custom.take key with
  | none => pure (none, s)
  | some (value, rest) =>
    let s := (s.setCustom rest).touch
    match s.consume with
    | some ⟨ttl, some base⟩ =>
      match s.consumeWrite base key with
      | none => pure (some value, s)
      | some (mine, expected) => do
        let swap := ⟨s.preCycleId.getD s.id, some base, mine, expected, ttl, s.maxCustomBytes⟩
        match ← swapMerging swap value (takeFrom key) with
        | .ok (.written written taken) => pure (some taken, s.consumed ttl base written)
        | .ok _ => pure (none, s)
        | .error _ => pure (none, s)
    | _ => pure (some value, s)

end Consume

end SessionInner

inductive Transition where
  | setIdentifying (userId : UserId) (tenantId : TenantId)
  | beginAuthenticating (userId : UserId) (tenantId : TenantId) (methodName : String)
      (steps : List FactorStep)
  | advanceFactor (kind : FactorKind) (authnTime : Instant) (preserved : List String)
  | setAuthenticated (userId : UserId) (tenantId : TenantId) (authnTime : Instant)
      (preserved : List String)
  | setPendingWorkflow (userId : UserId) (tenantId : TenantId) (workflow : WorkflowState)
  | clear
  | regenerate
  deriving DecidableEq

/-- One change a `mutate_custom` closure makes to the bag it is shown. -/
inductive Edit (V : Type) where
  | insert (key : String) (value : V)
  | remove (key : String)

inductive CustomOp (V : Type) where
  | clearCustom
  | removeCustom (key : String)
  | mutateCustom (edits : List (Edit V))
  | setCustom (key : String) (value : V)

namespace AuthSession

open SessionInner

def setIdentifying (u : UserId) (t : TenantId) (s : SessionInner V) : SessionInner V :=
  (s.setState (.identifying u t)).rotateId.bindFingerprint.touch

def beginAuthenticating (u : UserId) (t : TenantId) (method : String) (steps : List FactorStep)
    (s : SessionInner V) : SessionInner V :=
  (s.setState (.beginAuthenticating u t method steps)).rotateId.bindFingerprint.touch

def retainAcrossLogin (preserved : List String) (s : SessionInner V) : SessionInner V :=
  s.setCustom (s.data.custom.retainAcrossLogin preserved)

def setAuthenticatedKeeping (u : UserId) (t : TenantId) (authnTime : Instant)
    (preserved : List String) (s : SessionInner V) : SessionInner V :=
  (retainAcrossLogin preserved
    (s.setState (.setAuthenticated u t authnTime))).bindFingerprint.touch.rotateId

def advanceFactor (kind : FactorKind) (authnTime : Instant) (preserved : List String)
    (s : SessionInner V) : SessionInner V :=
  match s.data.authState.advanceFactor kind authnTime with
  | (state, .completed) =>
    (retainAcrossLogin preserved (s.setState state)).bindFingerprint.rotateId.touch
  | (state, .stillAuthenticating) => (s.setState state).touch
  | (_, .notApplicable) => s

def setPendingWorkflow (u : UserId) (t : TenantId) (workflow : WorkflowState)
    (s : SessionInner V) : SessionInner V :=
  (s.setState (.pendingWorkflow u t workflow)).rotateId.bindFingerprint.touch

def clear (s : SessionInner V) : SessionInner V :=
  { s with data := .default }.touch.rotateId

def regenerate (s : SessionInner V) : SessionInner V := s.rotateId.touch

def clearCustom (s : SessionInner V) : SessionInner V := (s.setCustom (.object ∅)).touch

def removeCustom (key : String) (s : SessionInner V) : SessionInner V :=
  match s.data.custom.take key with
  | some (_, rest) => (s.setCustom rest).touch
  | none => s

def applyEdit (bag : Bag V) : Edit V → Bag V
  | .insert key value => bag.insert key value
  | .remove key => bag.erase key

def mutateCustom [BEq V] (edits : List (Edit V)) (s : SessionInner V) : SessionInner V :=
  let before : Custom V := .object s.data.custom.bag
  let after : Custom V := .object (edits.foldl applyEdit s.data.custom.bag)
  if after != before then (s.setCustom after).touch else s.setCustom after

def recordAttemptAt (now : Instant) (s : SessionInner V) : SessionInner V :=
  s.setState (s.data.authState.recordAttemptAt now)

def setImpersonator (admin : UserId) (since : Instant) (s : SessionInner V) :
    SessionInner V × Bool :=
  match s.data.authState.setImpersonator admin since with
  | some state => ((s.setState state).touch, true)
  | none => (s, false)

def sessionId (s : SessionInner V) : SessionId × SessionInner V :=
  (s.id, { s with needsPersist := true })

end AuthSession

def Transition.apply : Transition → SessionInner V → SessionInner V
  | .setIdentifying u t => AuthSession.setIdentifying u t
  | .beginAuthenticating u t method steps => AuthSession.beginAuthenticating u t method steps
  | .advanceFactor kind authnTime preserved => AuthSession.advanceFactor kind authnTime preserved
  | .setAuthenticated u t authnTime preserved =>
    AuthSession.setAuthenticatedKeeping u t authnTime preserved
  | .setPendingWorkflow u t workflow => AuthSession.setPendingWorkflow u t workflow
  | .clear => AuthSession.clear
  | .regenerate => AuthSession.regenerate

def CustomOp.apply [BEq V] [JsonSize V] : CustomOp V → SessionInner V → SessionInner V
  | .clearCustom => AuthSession.clearCustom
  | .removeCustom key => AuthSession.removeCustom key
  | .mutateCustom edits => AuthSession.mutateCustom edits
  | .setCustom key value => fun s => (s.setCustomValue key value).1

/-! ## What the operations do to the id -/

namespace SessionInner

/-- An operation that leaves the id and everything about the stored row as it was. -/
structure KeepsId (s t : SessionInner V) : Prop where
  id : t.id = s.id
  preCycleId : t.preCycleId = s.preCycleId
  rng : t.rng = s.rng
  consume : t.consume = s.consume
  maxCustomBytes : t.maxCustomBytes = s.maxCustomBytes
  regenerate : t.regenerate = s.regenerate
  revision : t.data.revision = s.data.revision

/-- An operation that moves the session to the next id of the generator. -/
structure Rotates (s t : SessionInner V) : Prop where
  id : t.id = s.rng.head
  preCycleId : t.preCycleId = some (s.preCycleId.getD s.id)
  rng : t.rng = s.rng.tail
  consume : t.consume = s.consume
  maxCustomBytes : t.maxCustomBytes = s.maxCustomBytes
  regenerate : t.regenerate = true

/-- The id has not moved: it is the same, and so is what would move it. -/
structure Stays (s t : SessionInner V) : Prop where
  id : t.id = s.id
  preCycleId : t.preCycleId = s.preCycleId
  rng : t.rng = s.rng
  regenerate : t.regenerate = s.regenerate

theorem Stays.refl (s : SessionInner V) : s.Stays s := ⟨rfl, rfl, rfl, rfl⟩

variable {s t u : SessionInner V}

theorem Stays.trans (h : s.Stays t) (h' : t.Stays u) : s.Stays u :=
  ⟨h'.id.trans h.id, h'.preCycleId.trans h.preCycleId, h'.rng.trans h.rng,
    h'.regenerate.trans h.regenerate⟩

theorem KeepsId.stays (h : s.KeepsId t) : s.Stays t :=
  ⟨h.id, h.preCycleId, h.rng, h.regenerate⟩

theorem KeepsId.refl (s : SessionInner V) : s.KeepsId s := ⟨rfl, rfl, rfl, rfl, rfl, rfl, rfl⟩

theorem keepsId_bindFingerprint (s : SessionInner V) : s.KeepsId s.bindFingerprint := by
  unfold bindFingerprint
  split <;> exact ⟨rfl, rfl, rfl, rfl, rfl, rfl, rfl⟩

theorem keepsId_setState (s : SessionInner V) (state : AuthState) : s.KeepsId (s.setState state) :=
  ⟨rfl, rfl, rfl, rfl, rfl, rfl, rfl⟩

theorem keepsId_setCustom (s : SessionInner V) (custom : Custom V) :
    s.KeepsId (s.setCustom custom) :=
  ⟨rfl, rfl, rfl, rfl, rfl, rfl, rfl⟩

theorem keepsId_touch (s : SessionInner V) : s.KeepsId s.touch :=
  ⟨rfl, rfl, rfl, rfl, rfl, rfl, rfl⟩

theorem KeepsId.trans (h : s.KeepsId t) (h' : t.KeepsId u) : s.KeepsId u :=
  ⟨h'.id.trans h.id, h'.preCycleId.trans h.preCycleId, h'.rng.trans h.rng,
    h'.consume.trans h.consume, h'.maxCustomBytes.trans h.maxCustomBytes,
    h'.regenerate.trans h.regenerate, h'.revision.trans h.revision⟩

theorem Rotates.keeps (h : s.Rotates t) (h' : t.KeepsId u) : s.Rotates u :=
  ⟨h'.id.trans h.id, h'.preCycleId.trans h.preCycleId, h'.rng.trans h.rng,
    h'.consume.trans h.consume, h'.maxCustomBytes.trans h.maxCustomBytes,
    h'.regenerate.trans h.regenerate⟩

theorem KeepsId.rotateId (h : s.KeepsId t) : s.Rotates t.rotateId := by
  refine ⟨?_, ?_, ?_, h.consume, h.maxCustomBytes, rfl⟩
  · exact congrArg Stream'.head h.rng
  · show some (t.preCycleId.getD t.id) = _
    rw [h.preCycleId, h.id]
  · exact congrArg Stream'.tail h.rng

theorem rotates_bindFingerprint (s : SessionInner V) (state : AuthState) :
    s.Rotates (s.setState state).rotateId.bindFingerprint.touch :=
  (((keepsId_setState s state).rotateId).keeps (keepsId_bindFingerprint _)).keeps
    (keepsId_touch _)

theorem keepsId_retainAcrossLogin (s : SessionInner V) (state : AuthState)
    (preserved : List String) :
    s.KeepsId (AuthSession.retainAcrossLogin preserved (s.setState state)).bindFingerprint :=
  ((keepsId_setState s state).trans (keepsId_setCustom _ _)).trans (keepsId_bindFingerprint _)

section

variable [JsonSize V]

theorem keepsId_setCustomValue (s : SessionInner V) (key : String) (value : V) :
    s.KeepsId (s.setCustomValue key value).1 := by
  unfold setCustomValue
  simp only
  split <;> exact ⟨rfl, rfl, rfl, rfl, rfl, rfl, rfl⟩

theorem setCustomValue_authState (s : SessionInner V) (key : String) (value : V) :
    (s.setCustomValue key value).1.data.authState = s.data.authState := by
  unfold setCustomValue
  simp only
  split <;> rfl

end

end SessionInner

def AuthState.identity (state : AuthState) : Option UserId × AuthStateKind :=
  (state.pendingUserId, state.kind)

theorem AuthState.identity_advanceFactor {state next : AuthState} {kind : FactorKind}
    {now : Instant} (h : state.advanceFactor kind now = (next, .stillAuthenticating)) :
    next.identity = state.identity := by
  cases state with
  | authenticating u t method remaining completed attempts last groups impersonator =>
    simp only [AuthState.advanceFactor] at h
    split at h
    · cases h
    · cases h
      rfl
  | guest => cases h
  | identifying => cases h
  | authenticated => cases h
  | pendingWorkflow => cases h

open SessionInner in
theorem Transition.apply_cases (t : Transition) (s : SessionInner V) :
    s.Rotates (t.apply s) ∨
      s.KeepsId (t.apply s) ∧
        (t.apply s).data.authState.identity = s.data.authState.identity := by
  cases t with
  | setIdentifying u tenant => exact .inl (rotates_bindFingerprint s _)
  | beginAuthenticating u tenant method steps => exact .inl (rotates_bindFingerprint s _)
  | setAuthenticated u tenant now preserved =>
    exact .inl ((keepsId_retainAcrossLogin s _ preserved).trans (keepsId_touch _)).rotateId
  | setPendingWorkflow u tenant workflow => exact .inl (rotates_bindFingerprint s _)
  | clear => exact .inl ⟨rfl, rfl, rfl, rfl, rfl, rfl⟩
  | regenerate => exact .inl ((KeepsId.refl s).rotateId.keeps (keepsId_touch _))
  | advanceFactor kind now preserved =>
    simp only [Transition.apply, AuthSession.advanceFactor]
    split
    · exact .inl ((keepsId_retainAcrossLogin s _ preserved).rotateId.keeps (keepsId_touch _))
    · rename_i state hstep
      exact .inr ⟨(keepsId_setState s state).trans (keepsId_touch _),
        AuthState.identity_advanceFactor hstep⟩
    · exact .inr ⟨.refl s, rfl⟩

theorem setImpersonator_keepsId (admin : UserId) (since : Instant) (s : SessionInner V) :
    s.KeepsId (AuthSession.setImpersonator admin since s).1 := by
  unfold AuthSession.setImpersonator
  split
  · exact (SessionInner.keepsId_setState s _).trans (SessionInner.keepsId_touch _)
  · exact .refl s

theorem sessionId_keepsId (s : SessionInner V) : s.KeepsId (AuthSession.sessionId s).2 :=
  ⟨rfl, rfl, rfl, rfl, rfl, rfl, rfl⟩

open SessionInner in
theorem CustomOp.apply_keepsId [BEq V] [JsonSize V] (c : CustomOp V) (s : SessionInner V) :
    s.KeepsId (c.apply s) ∧ (c.apply s).data.authState = s.data.authState := by
  cases c with
  | clearCustom => exact ⟨⟨rfl, rfl, rfl, rfl, rfl, rfl, rfl⟩, rfl⟩
  | removeCustom key =>
    simp only [CustomOp.apply, AuthSession.removeCustom]
    split <;> exact ⟨⟨rfl, rfl, rfl, rfl, rfl, rfl, rfl⟩, rfl⟩
  | mutateCustom edits =>
    simp only [CustomOp.apply, AuthSession.mutateCustom]
    split <;> exact ⟨⟨rfl, rfl, rfl, rfl, rfl, rfl, rfl⟩, rfl⟩
  | setCustom key value =>
    exact ⟨keepsId_setCustomValue s key value, setCustomValue_authState s key value⟩

end Axess
