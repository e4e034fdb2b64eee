import Axess.Authn.Login

/-!
# What a guess can do

Until a factor has passed, `verify_factor` asks and changes the accounts only: the session keeps
its id and its identity, or it is cleared because its flow is not current.
-/

namespace Axess

open Calls

variable {V : Type}

def Call.AsksIdentity (e : Call V) : Prop := ∃ c, e = .identity c

structure SessionInner.Idles (s t : SessionInner V) : Prop where
  keepsId : s.KeepsId t
  identity : t.data.authState.identity = s.data.authState.identity

namespace SessionInner.Idles

variable {s t r : SessionInner V}

theorem refl (s : SessionInner V) : s.Idles s := ⟨.refl s, rfl⟩

theorem trans (h : s.Idles t) (h' : t.Idles r) : s.Idles r :=
  ⟨h.keepsId.trans h'.keepsId, h'.identity.trans h.identity⟩

theorem sessionId (s : SessionInner V) : s.Idles (AuthSession.sessionId s).2 :=
  ⟨sessionId_keepsId s, rfl⟩

theorem recordAttemptAt (now : Instant) (s : SessionInner V) :
    s.Idles (AuthSession.recordAttemptAt now s) := by
  refine ⟨SessionInner.keepsId_setState s _, ?_⟩
  show (s.data.authState.recordAttemptAt now).identity = _
  cases s.data.authState <;> rfl

end SessionInner.Idles

def Call.guesses : Call V → Bool
  | .identity (.reserveAttempt _) => true
  | .identity (.note (.releaseAttempt _)) => true
  | _ => false

/-- A call on the accounts that leaves the reserved guesses alone. -/
structure Call.Looks (e : Call V) : Prop where
  asks : e.AsksIdentity
  guesses : e.guesses = false

theorem Call.Looks.call (c : IdentityCall) (h : (Call.identity c : Call V).guesses = false) :
    (Call.identity c : Call V).Looks := ⟨⟨c, rfl⟩, h⟩

abbrev Looks {α : Type} (s : SessionInner V) (p : Async V (α × SessionInner V)) : Prop :=
  p.Within Call.Looks fun r => s.Idles r.2

abbrev Reads {α : Type} (s : SessionInner V) (p : Async V (α × SessionInner V)) : Prop :=
  p.Within (fun e => World.ReadsIdentity e ∧ e.guesses = false) fun r => s.Idles r.2

theorem World.ReadsIdentity.asks {e : Call V} (h : World.ReadsIdentity e) : e.AsksIdentity := by
  cases e with
  | identity c => exact ⟨c, rfl⟩
  | store c => cases h
  | registry c => cases h
  | deliver key value => cases h

theorem emitAudit_looks (event : AuditEvent) :
    (AuthnService.emitAudit event : Async V _).Only Call.Looks := by
  refine ⟨.call _ rfl, fun answer => ?_⟩
  cases answer <;> trivial

theorem currentAccountStatus_looks (service : AuthnService) (u : UserId) :
    (service.currentAccountStatus u : Async V _).Only Call.Looks := by
  refine ⟨.call _ rfl, fun answer => ?_⟩
  cases answer <;> trivial

namespace LoginService

variable {service : LoginService} (scope : UserScope) (s : SessionInner V)

theorem derivedLockout_looks : (service.derivedLockout scope : Async V _).Only Call.Looks := by
  refine ⟨.call _ rfl, fun answer => ?_⟩
  cases answer with
  | ok counted => trivial
  | error e =>
    split <;> trivial

theorem derivedLockoutFor_looks :
    (service.derivedLockoutFor scope : Async V _).Only Call.Looks := by
  refine (derivedLockout_looks scope).bind fun lock => ?_
  cases lock with
  | none => trivial
  | some lock =>
    refine ⟨.call _ rfl, fun known => ?_⟩
    cases known <;> trivial

theorem recordRefusedAttemptAudit_looks (reason : AuthFailureReason) :
    Looks s (recordRefusedAttemptAudit scope reason s) :=
  Prog.Within.bind (emitAudit_looks _) fun _ _ => .sessionId s

theorem refuseAttempt_looks {α : Type} (reason : AuthFailureReason) (answer : α) :
    Looks s (refuseAttempt scope reason answer s) := by
  refine Prog.Within.bind (recordRefusedAttemptAudit_looks scope s reason) fun r hr => ?_
  obtain ⟨audited, t⟩ := r
  cases audited <;> exact hr

theorem enforceCounters_looks : Looks s (service.enforceCounters scope s) := by
  refine Prog.Within.bind (derivedLockoutFor_looks scope) fun lock _ => ?_
  cases lock with
  | some lock => exact refuseAttempt_looks scope s _ _
  | none =>
    refine ⟨.call _ rfl, fun delay => ?_⟩
    cases delay with
    | some delay => exact refuseAttempt_looks scope s _ _
    | none => exact .refl s

theorem enforceAccountStatus_looks : Looks s (service.enforceAccountStatus scope s) := by
  refine Prog.Within.bind (currentAccountStatus_looks _ _) fun status _ => ?_
  have hother (status : EntityState) : Looks s (if !status.allowsLogin then
      pure (.ok (.notActive status), s) else service.enforceCounters scope s) := by
    split
    · exact .refl s
    · exact enforceCounters_looks scope s
  cases status with
  | error e => exact .refl s
  | ok status =>
    cases status with
    | suspended detail => exact refuseAttempt_looks scope s _ _
    | guest => exact hother _
    | candidate => exact hother _
    | pending detail => exact hother _
    | active => exact hother _
    | terminated detail => exact hother _
    | archived detail => exact hother _

theorem recordFactorFailureAudit_reads :
    (recordFactorFailureAudit scope s).Within
      (fun e => World.ReadsIdentity e ∧ e.guesses = false) s.Idles :=
  ⟨⟨trivial, rfl⟩, fun _ => .sessionId s⟩

theorem recordFactorFailureAfter_reads (reserved : Option Nat) :
    Reads s (service.recordFactorFailureAfter reserved scope s) := by
  have haudit : (recordFactorFailureAudit scope
      (AuthSession.recordAttemptAt service.now s)).Within
      (fun e => World.ReadsIdentity e ∧ e.guesses = false) s.Idles :=
    (recordFactorFailureAudit_reads scope _).mono (fun _ he => he)
      fun _ ht => (SessionInner.Idles.recordAttemptAt service.now s).trans ht
  refine Prog.Within.bind (P := fun e => World.ReadsIdentity e ∧ e.guesses = false)
    (Q := fun _ => True) ?_ fun counted _ => ?_
  · unfold countFailure
    cases reserved with
    | some count => trivial
    | none => exact ⟨⟨trivial, rfl⟩, fun _ => trivial⟩
  · cases counted with
    | error e =>
      refine Prog.Within.bind haudit fun t ht => ?_
      split <;> exact ht
    | ok count =>
      refine Prog.Within.perform_bind ⟨trivial, rfl⟩ fun _ => ?_
      refine Prog.Within.bind haudit fun t ht => ?_
      split <;> exact ht

theorem failUpdateLoop_looks (kind : FactorKind) (updated : FactorConfig) (attempts : Nat) :
    ∀ (reloadFirst : Bool) (prior next : FactorConfig),
      (service.failUpdateLoop scope kind updated attempts reloadFirst prior next :
        Async V _).Only Call.Looks := by
  induction attempts with
  | zero => exact fun _ _ _ => trivial
  | succ attempts ih =>
    intro reloadFirst prior next
    have hreload : (service.failUpdateLoop scope kind updated (attempts + 1) true prior next :
        Async V _).Only Call.Looks := by
      refine ⟨.call _ rfl, fun loaded => ?_⟩
      rcases loaded with e | _ | reloaded
      · trivial
      · refine ⟨.call _ rfl, fun inserted => ?_⟩
        rcases inserted with e | _ | _
        · trivial
        · exact ih _ _ _
        · trivial
      · dsimp only [Prog.bind]
        split
        · trivial
        · exact ih _ _ _
    cases reloadFirst with
    | true => exact hreload
    | false =>
      refine ⟨.call _ rfl, fun swapped => ?_⟩
      rcases swapped with e | _ | _
      · trivial
      · exact hreload
      · trivial

theorem persistFailWithUpdate_looks (kind : FactorKind) (updated : FactorConfig) :
    (service.persistFailWithUpdate scope kind updated : Async V _).Only Call.Looks := by
  refine ⟨.call _ rfl, fun loaded => ?_⟩
  rcases loaded with e | _ | existing
  · trivial
  · refine ⟨.call _ rfl, fun inserted => ?_⟩
    rcases inserted with e | _ | _
    · trivial
    · refine ⟨.call _ rfl, fun loaded => ?_⟩
      rcases loaded with e | _ | existing
      · trivial
      · exact failUpdateLoop_looks scope kind updated _ _ _ _
      · exact failUpdateLoop_looks scope kind updated _ _ _ _
    · trivial
  · exact failUpdateLoop_looks scope kind updated _ _ _ _

theorem stampIsCurrent_looks (stamp : FlowStamp) :
    (service.stampIsCurrent scope stamp : Async V _).Only Call.Looks := by
  refine Prog.Only.bind (p := service.storedPasswordIdentity scope) ?_ fun password => ?_
  · refine ⟨.call _ rfl, fun answer => ?_⟩
    rcases answer with e | _ | ⟨own, config⟩
    · trivial
    · trivial
    · cases config <;> trivial
  · cases password with
    | error e => trivial
    | ok password =>
      refine Prog.Only.bind (p := service.stampSteps scope stamp) ?_ fun steps => ?_
      · unfold stampSteps
        cases stamp.steps with
        | some steps => trivial
        | none =>
          refine ⟨.call _ rfl, fun answer => ?_⟩
          cases answer with
          | error e => trivial
          | ok methods =>
            dsimp only [Prog.bind]
            split <;> trivial
      · cases steps <;> trivial

theorem requireCurrentFlow_looks [JsonValue V FlowStamp] :
    (service.requireCurrentFlow scope s).Within Call.Looks fun r =>
      r.2 = s ∨ r.2 = AuthSession.clear s ∧ ∃ e, r.1 = .error e := by
  unfold requireCurrentFlow
  split
  · exact .inr ⟨rfl, _, rfl⟩
  · split
    · exact .inr ⟨rfl, _, rfl⟩
    · refine Prog.Within.bind (stampIsCurrent_looks scope _) fun current _ => ?_
      rcases current with e | _ | _
      · exact .inl rfl
      · exact .inr ⟨rfl, _, rfl⟩
      · exact .inl rfl

theorem settlePass_looks (step : PreparedFactorStep) (outcome : VerifyOutcome) :
    (service.settlePass scope step outcome : Async V _).Only Call.Looks := by
  cases outcome with
  | passWithUpdate updated =>
    dsimp only [settlePass]
    split
    · trivial
    · unfold persistPassWithUpdate
      cases step.own <;> exact ⟨.call _ rfl, fun swapped => by cases swapped <;> trivial⟩
  | pass => trivial
  | fail => trivial
  | failWithUpdate updated => trivial

theorem settleFail_looks (step : PreparedFactorStep) (outcome : VerifyOutcome) :
    (service.settleFail scope step outcome : Async V _).Only Call.Looks := by
  cases outcome with
  | failWithUpdate updated =>
    dsimp only [settleFail]
    split
    · trivial
    · exact persistFailWithUpdate_looks scope _ _
  | pass => trivial
  | fail => trivial
  | passWithUpdate updated => trivial

theorem rehashOutdatedPassword_looks (credential : FactorCredential) (step : PreparedFactorStep) :
    (service.rehashOutdatedPassword credential scope step : Async V _).Only Call.Looks := by
  unfold rehashOutdatedPassword
  split
  · split
    · trivial
    · exact ⟨.call _ rfl, fun _ => trivial⟩
  · trivial

theorem recordFactorFailureAfter_looks (reserved : Option Nat) :
    Looks s (service.recordFactorFailureAfter reserved scope s) :=
  (recordFactorFailureAfter_reads scope s reserved).mono (fun _ he => ⟨he.1.asks, he.2⟩)
    fun _ hr => hr

end LoginService

end Axess
