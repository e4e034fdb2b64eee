import Axess.Authn.Account

/-!
# Verifying a factor

One step of a login or a step-up (`authn/service/login.rs` and its modules, and
`authn/service/factor_pipeline.rs`): the flow must be current, the account in good standing, the
guess within the lockout; then the credential is checked against the stored factor, and a pass
advances the session. This is the service as it is built by default, where every factor is checked
against a stored row.
-/

namespace Axess

variable {V : Type}

inductive VerifyOutcome where
  | fail
  | failWithUpdate (config : FactorConfig)
  | pass
  | passWithUpdate (config : FactorConfig)
  deriving DecidableEq, Repr

def VerifyOutcome.passes : VerifyOutcome → Bool
  | pass => true
  | passWithUpdate _ => true
  | _ => false

def maxPasswordBytes : Nat := 1024

def FactorKind.hasRow : FactorKind → Bool
  | totp => true
  | hotp => true
  | emailOtp => true
  | recoveryCode => true
  | _ => false

namespace Verifier

variable (verifier : Verifier)

def openConfig : FactorConfig → Option FactorConfig
  | .password cfg => some (.password cfg)
  | .other kind row => (verifier.openRow kind row).map (.other kind)

def closeConfig : FactorConfig → Option FactorConfig
  | .password cfg => some (.password cfg)
  | .other kind row => (verifier.sealRow kind row).map (.other kind)

def rowOutcome (kind : FactorKind) : RowOutcome → VerifyOutcome
  | .fail => .fail
  | .failWithUpdate row => .failWithUpdate (.other kind row)
  | .pass => .pass
  | .passWithUpdate row => .passWithUpdate (.other kind row)

def verifyCredential (credential : FactorCredential) (config : FactorConfig) (kind : FactorKind)
    (now : Instant) : Option VerifyOutcome :=
  match credential, config, kind with
  | .password secret, .password cfg, .password =>
    if secret.utf8ByteSize > maxPasswordBytes then some .fail
    else (verifier.password secret cfg.hash).map fun ok => if ok then .pass else .fail
  | credential, .other stored row, kind =>
    if stored = kind ∧ kind.hasRow ∧ credential.fits kind then
      (verifier.row credential kind row now).map (rowOutcome kind)
    else some .fail
  | _, _, _ => some .fail

def recountFailure (now : Instant) : FactorConfig → Option FactorConfig
  | .other .emailOtp row => some (.other .emailOtp (verifier.recountRow .emailOtp row now))
  | .other .hotp row => some (.other .hotp (verifier.recountRow .hotp row now))
  | _ => none

end Verifier

structure DerivedLockout where
  untilTime : Option Instant

namespace LockoutPolicy

variable (policy : LockoutPolicy)

def effectiveMaxAttempts : Nat := if policy.maxAttempts = 0 then 5 else policy.maxAttempts

def lockedUntil (now : Instant) : Option Instant :=
  (policy.duration.bind fromStd).map (now + ·)

def derivedLockout (failedAttempts : Nat) (lastFailureAt : Option Instant) (now : Instant) :
    Option DerivedLockout :=
  if failedAttempts < policy.effectiveMaxAttempts then none
  else
    match policy.duration, lastFailureAt with
    | some duration, some last =>
      match (fromStd duration).bind (checkedAddSigned last) with
      | some stop => if stop ≤ now then none else some ⟨some stop⟩
      | none => some ⟨none⟩
    | _, _ => some ⟨none⟩

end LockoutPolicy

inductive AccountStatusEnforcement where
  | ok
  | locked (untilTime : Option Instant)
  | notActive (status : EntityState)
  | throttled (retryAfter : Duration)

inductive GuessSlot where
  | reserved (count : Nat)
  | unmetered
  | refused (outcome : FactorOutcome)

namespace LoginService

variable (service : LoginService)

def derivedLockout (scope : UserScope) : Async V (Option DerivedLockout) := do
  let policy := service.lockout scope.tenantId
  match ← Idn.failedAttempts scope.userId with
  | .ok (count, last) => pure (policy.derivedLockout count last service.now)
  | .error _ =>
    match policy.onCounterUnavailable with
    | .lock => pure (some ⟨policy.lockedUntil service.now⟩)
    | .allow => pure none

def derivedLockoutFor (scope : UserScope) : Async V (Option DerivedLockout) := do
  match ← service.derivedLockout scope with
  | none => pure none
  | some lock =>
    if ← Idn.onKnownDevice scope.userId then pure none else pure (some lock)

def recordRefusedAttemptAudit (scope : UserScope) (reason : AuthFailureReason) :
    SessionAction V Unit := fun s => do
  let (sid, s) := AuthSession.sessionId s
  let audited ← AuthnService.emitAudit
    ⟨.factorVerified, some scope.userId, some scope.tenantId, some sid, none, some reason⟩
  pure (audited, s)

def refuseAttempt {α : Type} (scope : UserScope) (reason : AuthFailureReason) (answer : α) :
    SessionAction V α := fun s => do
  let (audited, s) ← recordRefusedAttemptAudit scope reason s
  match audited with
  | .error e => pure (.error e, s)
  | .ok () => pure (.ok answer, s)

def enforceCounters (scope : UserScope) : SessionAction V AccountStatusEnforcement := fun s => do
  match ← service.derivedLockoutFor scope with
  | some lock => refuseAttempt scope .locked (.locked lock.untilTime) s
  | none =>
    match ← Idn.retryAfter scope.userId with
    | some delay => refuseAttempt scope .throttled (.throttled delay) s
    | none => pure (.ok .ok, s)

def enforceAccountStatus (scope : UserScope) : SessionAction V AccountStatusEnforcement :=
  fun s => do
    match ← service.currentAccountStatus scope.userId with
    | .error e => pure (.error e, s)
    | .ok (.suspended detail) => refuseAttempt scope .locked (.locked detail.untilTime) s
    | .ok status =>
      if !status.allowsLogin then pure (.ok (.notActive status), s)
      else service.enforceCounters scope s

def reserveGuess (scope : UserScope) : SessionAction V GuessSlot := fun s => do
  let policy := service.lockout scope.tenantId
  match ← Idn.reserveAttempt scope.userId with
  | .ok (some count) => pure (.ok (.reserved count), s)
  | .ok none =>
    if ← Idn.onKnownDevice scope.userId then pure (.ok .unmetered, s)
    else
      let (audited, s) ← recordRefusedAttemptAudit scope .locked s
      match audited with
      | .error e => pure (.error e, s)
      | .ok () =>
        match ← service.derivedLockout scope with
        | some lock => pure (.ok (.refused (.locked lock.untilTime)), s)
        | none => pure (.ok (.refused (.locked (policy.lockedUntil service.now))), s)
  | .error _ =>
    match policy.onCounterUnavailable with
    | .lock => pure (.ok (.refused (.locked (policy.lockedUntil service.now))), s)
    | .allow => pure (.ok .unmetered, s)

/-- A guess that was reserved is counted already. -/
def countFailure (reserved : Option Nat) (u : UserId) : Async V (Except StoreError Nat) :=
  match reserved with
  | some count => pure (.ok count)
  | none => Idn.recordFailedAttempt u

def recordFactorFailureAudit (scope : UserScope) (s : SessionInner V) :
    Async V (SessionInner V) := do
  let (sid, s) := AuthSession.sessionId s
  let _ ← Idn.recordEvent
    ⟨.factorVerified, some scope.userId, some scope.tenantId, some sid, none,
      some .invalidCredential⟩
  pure s

def recordFactorFailureAfter (reserved : Option Nat) (scope : UserScope) :
    SessionAction V FactorOutcome := fun s => do
  let policy := service.lockout scope.tenantId
  match ← countFailure reserved scope.userId with
  | .error _ =>
    let s ← recordFactorFailureAudit scope (AuthSession.recordAttemptAt service.now s)
    match policy.onCounterUnavailable with
    | .lock => pure (.ok (.locked (policy.lockedUntil service.now)), s)
    | .allow => pure (.ok .invalidCredential, s)
  | .ok count =>
    let _ ← Idn.note (.recordThrottleFailure scope.userId)
    let s ← recordFactorFailureAudit scope (AuthSession.recordAttemptAt service.now s)
    if policy.effectiveMaxAttempts ≤ count then
      pure (.ok (.locked (policy.lockedUntil service.now)), s)
    else pure (.ok .invalidCredential, s)

def maxFailUpdateRetries : Nat := 8

def failUpdateLoop (scope : UserScope) (kind : FactorKind) (updated : FactorConfig) :
    Nat → Bool → FactorConfig → FactorConfig → Async V (Except AuthnError Unit)
  | 0, _, _, _ => pure (.ok ())
  | attempts + 1, reloadFirst, prior, next => do
    let swapped ← if reloadFirst then pure (.ok false)
      else Idn.compareAndSaveFactor scope prior next
    match swapped with
    | .error _ => pure (.error .store)
    | .ok true => pure (.ok ())
    | .ok false =>
      match ← Idn.loadFactor scope kind with
      | .error _ => pure (.error .store)
      | .ok none =>
        match ← Idn.insertFactorIfAbsent scope updated with
        | .ok false => failUpdateLoop scope kind updated attempts true prior next
        | _ => pure (.ok ())
      | .ok (some reloaded) =>
        match service.verifier.recountFailure service.now reloaded with
        | none => pure (.ok ())
        | some next => failUpdateLoop scope kind updated attempts false reloaded next

def persistFailWithUpdate (scope : UserScope) (kind : FactorKind) (updated : FactorConfig) :
    Async V (Except AuthnError Unit) := do
  let recounted existing := (service.verifier.recountFailure service.now existing).getD updated
  match ← Idn.loadFactor scope kind with
  | .error _ => pure (.error .store)
  | .ok (some existing) =>
    service.failUpdateLoop scope kind updated maxFailUpdateRetries false existing
      (recounted existing)
  | .ok none =>
    match ← Idn.insertFactorIfAbsent scope updated with
    | .error _ => pure (.error .store)
    | .ok true => pure (.ok ())
    | .ok false =>
      match ← Idn.loadFactor scope kind with
      | .error _ => pure (.error .store)
      | .ok (some existing) =>
        service.failUpdateLoop scope kind updated maxFailUpdateRetries false existing
          (recounted existing)
      | .ok none =>
        service.failUpdateLoop scope kind updated maxFailUpdateRetries true updated updated

def chosenFactorKey : String := "axess.factor.chosen"

structure ChosenFactor where
  kind : FactorKind
  user : UserId
  stepsLeft : Nat
  deriving DecidableEq, Repr

structure PreparedFactorStep where
  currentKind : FactorKind
  own : Bool
  config : FactorConfig

section Session

variable [JsonValue V ChosenFactor]

def chosenFactor (s : SessionInner V) (u : UserId) (stepsLeft : Nat) : Option FactorKind :=
  match (s.data.custom.get chosenFactorKey).bind fromValue with
  | some (⟨kind, user, left⟩ : ChosenFactor) =>
    if user = u ∧ left = stepsLeft then some kind else none
  | none => none

def attemptKind (s : SessionInner V) (credential : FactorCredential) (u : UserId)
    (remaining : List FactorStep) (step : FactorStep) : Option FactorKind :=
  ((chosenFactor s u remaining.length).filter fun kind =>
    step.accepts kind && credential.fits kind) <|> step.kindFor credential <|> step.primary

def resolveStep (credential : FactorCredential) (scope : UserScope) (remaining : List FactorStep) :
    SessionAction V (Except FactorOutcome PreparedFactorStep) := fun s =>
  match remaining.head? with
  | none => pure (.error .noFlow, s)
  | some step =>
    match attemptKind s credential scope.userId remaining step with
    | none => pure (.error .noFlow, s)
    | some kind => do
      match ← Idn.resolveFactor scope kind with
      | .error _ => pure (.error .store, s)
      | .ok none => pure (.error .noFlow, s)
      | .ok (some resolved) => pure (.ok (.ok ⟨kind, resolved.own, resolved.config⟩), s)

def prepareFactorStep (credential : FactorCredential) (scope : UserScope)
    (remaining : List FactorStep) :
    SessionAction V (Except FactorOutcome PreparedFactorStep) := fun s => do
  let (enforced, s) ← service.enforceAccountStatus scope s
  match enforced with
  | .error e => pure (.error e, s)
  | .ok (.locked untilTime) => pure (.ok (.error (.locked untilTime)), s)
  | .ok (.throttled delay) => pure (.ok (.error (.throttled delay)), s)
  | .ok (.notActive status) => pure (.error (.notActive status), s)
  | .ok .ok => resolveStep credential scope remaining s

def persistPassWithUpdate (scope : UserScope) (step : PreparedFactorStep)
    (updated : FactorConfig) : Async V (Except AuthnError Bool) := do
  match ← if step.own then Idn.compareAndSaveFactor scope step.config updated
    else Idn.insertFactorIfAbsent scope updated with
  | .error _ => pure (.error .store)
  | .ok swapped => pure (.ok swapped)

def rehashOutdatedPassword (credential : FactorCredential) (scope : UserScope)
    (step : PreparedFactorStep) : Async V Unit :=
  match credential, step.config with
  | .password secret, .password cfg =>
    match if step.own then service.verifier.rehash secret cfg.hash else none with
    | none => pure ()
    | some hash => do
      let next := ⟨hash, some (service.codec.passwordIdentity (some cfg))⟩
      let _ ← Idn.compareAndSaveFactor scope step.config (.password next)
      pure ()
  | _, _ => pure ()

def releaseGuess (reserved : Option Nat) (u : UserId) : Async V Unit :=
  match reserved with
  | none => pure ()
  | some _ => do
    let _ ← Idn.note (.releaseAttempt u)
    pure ()

def settlePass (scope : UserScope) (step : PreparedFactorStep) :
    VerifyOutcome → Async V (Except AuthnError Bool)
  | .passWithUpdate updated =>
    match service.verifier.closeConfig updated with
    | none => pure (.error .internal)
    | some updated => persistPassWithUpdate scope step updated
  | _ => pure (.ok true)

def settleFail (scope : UserScope) (step : PreparedFactorStep) :
    VerifyOutcome → Async V (Except AuthnError Unit)
  | .failWithUpdate updated =>
    match service.verifier.closeConfig updated with
    | none => pure (.error .internal)
    | some updated => service.persistFailWithUpdate scope step.currentKind updated
  | _ => pure (.ok ())

def verdict (credential : FactorCredential) (step : PreparedFactorStep) : Option VerifyOutcome :=
  (service.verifier.openConfig step.config).bind fun opened =>
    service.verifier.verifyCredential credential opened step.currentKind service.now

def checkGuess (credential : FactorCredential) (scope : UserScope) (step : PreparedFactorStep)
    (reserved : Option Nat) : SessionAction V (Option FactorOutcome) := fun s => do
  let failed (s : SessionInner V) : Async V (Except AuthnError (Option FactorOutcome) ×
      SessionInner V) := do
    let (outcome, s) ← service.recordFactorFailureAfter reserved scope s
    pure (outcome.map some, s)
  match service.verdict credential step with
  | none => pure (.error .internal, s)
  | some outcome =>
    if outcome.passes then
      match ← service.settlePass scope step outcome with
      | .error e => pure (.error e, s)
      | .ok false => failed s
      | .ok true =>
        releaseGuess reserved scope.userId
        let _ ← Idn.note (.clearThrottle scope.userId)
        service.rehashOutdatedPassword credential scope step
        pure (.ok none, s)
    else
      match ← service.settleFail scope step outcome with
      | .error e => pure (.error e, s)
      | .ok () => failed s

variable [JsonValue V FlowStamp] [BEq V] [JsonSize V]

def verifyLocalFactor (credential : FactorCredential) (scope : UserScope)
    (step : PreparedFactorStep) (reserved : Option Nat) : SessionAction V FactorOutcome :=
  fun s => do
    let (checked, s) ← service.checkGuess credential scope step reserved s
    match checked with
    | .error e => pure (.error e, s)
    | .ok (some outcome) => pure (.ok outcome, s)
    | .ok none =>
      service.completeFactorStep scope
        (AuthSession.advanceFactor step.currentKind service.now service.preservedCustomKeys s)

def forgetChoice : Except AuthnError FactorOutcome → SessionInner V → SessionInner V
  | .ok .authenticated, s => AuthSession.removeCustom chosenFactorKey s
  | .ok (.factorRequired _), s => AuthSession.removeCustom chosenFactorKey s
  | _, s => s

def attempt (credential : FactorCredential) (scope : UserScope) (step : PreparedFactorStep) :
    SessionAction V FactorOutcome := fun s => do
  let (slot, s) ← service.reserveGuess scope s
  match slot with
  | .error e => pure (.error e, s)
  | .ok (.refused outcome) => pure (.ok outcome, s)
  | .ok (.reserved count) =>
    let (outcome, s) ← service.verifyLocalFactor credential scope step (some count) s
    pure (outcome, forgetChoice outcome s)
  | .ok .unmetered =>
    let (outcome, s) ← service.verifyLocalFactor credential scope step none s
    pure (outcome, forgetChoice outcome s)

def verifyFactor (credential : FactorCredential) : SessionAction V FactorOutcome := fun s =>
  match s.data.authState with
  | .authenticating u t _ remaining .. => do
    let (flow, s) ← service.requireCurrentFlow ⟨t, u⟩ s
    match flow with
    | .error e => pure (.error e, s)
    | .ok () =>
      let (prepared, s) ← service.prepareFactorStep credential ⟨t, u⟩ remaining s
      match prepared with
      | .error e => pure (.error e, s)
      | .ok (.error outcome) => pure (.ok outcome, s)
      | .ok (.ok step) => service.attempt credential ⟨t, u⟩ step s
  | _ => pure (.error .noFlow, s)

end Session

end LoginService

abbrev FlowValue := FlowStamp ⊕ LoginService.ChosenFactor

instance : JsonValue FlowValue FlowStamp where
  toValue := .inl
  fromValue := Sum.getLeft?
  fromValue_toValue _ := rfl

instance : JsonValue FlowValue LoginService.ChosenFactor where
  toValue := .inr
  fromValue := Sum.getRight?
  fromValue_toValue _ := rfl

instance : JsonSize FlowValue where
  jsonByteLen custom := custom.bag.keys.length

end Axess
