import Axess.Session.Alone
import Axess.Authn.Impersonation

/-!
# Registry moves of the service and of the layer

`rotate_session` and an impersonation move the session to a new id and move the registry entry
themselves. The session layer, at the end of the request, moves the entry again: it finds the old
id gone, takes that for a revocation, and ends the session (`move_survives_iff`).
-/

namespace Axess

open Calls

variable {V : Type}

inductive RegistryMove where
  | rotateSession
  | beginImpersonation (admin target : UserId)
  | beginImpersonationAcrossTenants (admin target : UserId)

namespace RegistryMove

def run (service : AuthnService) : RegistryMove → SessionAction V Unit
  | rotateSession => service.rotateSession
  | beginImpersonation admin target => service.beginImpersonation admin target
  | beginImpersonationAcrossTenants admin target =>
    service.beginImpersonationAcrossTenants admin target

def target : RegistryMove → Option UserId
  | rotateSession => none
  | beginImpersonation _ target => some target
  | beginImpersonationAcrossTenants _ target => some target

def user (move : RegistryMove) (u : UserId) : UserId := move.target.getD u

end RegistryMove

/-- The session is under a new id that the registry holds for `owner`; `kept` says whether the
registry holds the old id for that user too. -/
structure ServiceMoved (ttl : Duration) (s : SessionInner V) (w : World V) (owner : UserId)
    (kept : Bool) (t : SessionInner V) (w' : World V) : Prop where
  alone : t.Alone ttl w.rows s.id
  preCycleId : t.preCycleId ≠ none
  regenerate : t.regenerate = true
  minted : ∃ n, t.id = s.rng.get n
  user : t.data.authState.authenticatedUserId = some owner
  rows : w'.rows = w.rows
  newHeld : w'.registry.holds owner t.id = true
  oldHeld : w'.registry.holds owner s.id = kept

section

variable {service : AuthnService} {ttl : Duration} {s : SessionInner V} {w : World V} {u : UserId}

theorem rotateSession_moved (hservice : service.registry = true)
    (halone : s.Alone ttl w.rows s.id) (hfresh : ∀ n, s.rng.get n ≠ s.id)
    (huser : s.data.authState.authenticatedUserId = some u) :
    let h := (service.rotateSession s).eval World.perform w
    h.1.1 = .ok () ∧ ServiceMoved ttl s w u false h.1.2 h.2 := by
  intro h
  let t := (AuthSession.sessionId (AuthSession.regenerate (AuthSession.sessionId s).2)).2
  have hh : h = ((.ok (), t), { w with
      registry := (w.registry.register u s.rng.head).invalidateSession u s.id }) := by
    simp only [h, AuthnService.rotateSession, huser, hservice, if_true, Prog.eval_bind,
      Reg.eval_register]
    rfl
  have hne : s.rng.head ≠ s.id := hfresh 0
  have hrot : s.Rotates t := ((sessionId_keepsId s).rotateId.keeps
    (SessionInner.keepsId_touch _)).keeps (sessionId_keepsId _)
  rw [hh]
  refine ⟨rfl, halone.rotates hrot, ?_, rfl, ⟨0, rfl⟩, huser, rfl, ?_, ?_⟩
  · rw [hrot.preCycleId]
    exact Option.some_ne_none _
  · show ((w.registry.register u s.rng.head).invalidateSession u s.id).holds u s.rng.head = true
    simp [Ne.symm hne]
  · show ((w.registry.register u s.rng.head).invalidateSession u s.id).holds u s.id = false
    simp

/-! ### Impersonation -/

theorem emitAudit_only (event : AuditEvent) :
    (AuthnService.emitAudit event : Async V _).Only World.ReadsIdentity := by
  refine ⟨trivial, fun answer => ?_⟩
  cases answer <;> trivial

theorem refuseImpersonation_only (admin : UserId) (target : Option (UserId × TenantId))
    (reason : AuthFailureReason) (error : AuthnError) :
    (AuthnService.refuseImpersonation admin target reason error : Async V _).Only
      World.ReadsIdentity := by
  refine (emitAudit_only _).bind fun answer => ?_
  cases answer <;> trivial

theorem refused_only (admin : UserId) (target : Option (UserId × TenantId))
    (reason : AuthFailureReason) (error : AuthnError) {α : Type} :
    (do return .error (← AuthnService.refuseImpersonation admin target reason error) :
      Async V (Except AuthnError α)).Only World.ReadsIdentity :=
  (refuseImpersonation_only admin target reason error).bind fun _ => trivial

theorem admitImpersonation_only (admin : UserId) (expectedTenant : Option TenantId)
    (target : UserId) (s : SessionInner V) :
    (AuthnService.admitImpersonation admin expectedTenant target s).Only World.ReadsIdentity := by
  unfold AuthnService.admitImpersonation
  split
  · exact refused_only ..
  · split
    · split
      · exact refused_only ..
      · refine ⟨trivial, fun answer => ?_⟩
        rcases answer with e | _ | targetTenant
        · exact refused_only ..
        · exact refused_only ..
        · show Prog.Only _ (ite _ _ _)
          split
          · exact refused_only ..
          · trivial
    · exact refused_only ..

theorem currentAccountStatus_only (service : AuthnService) (u : UserId) :
    (service.currentAccountStatus u : Async V _).Only World.ReadsIdentity := by
  refine ⟨trivial, fun answer => ?_⟩
  cases answer <;> trivial

theorem requireTenantStanding_only (service : AuthnService) (admin target : UserId)
    (targetTenant tenant : TenantId) :
    (service.requireTenantStanding admin target targetTenant tenant : Async V _).Only
      World.ReadsIdentity := by
  have hactive : (service.requireActiveTenant tenant : Async V _).Only World.ReadsIdentity := by
    refine ⟨trivial, fun answer => ?_⟩
    rcases answer with e | _ | status
    · trivial
    · trivial
    · show Prog.Only _ (ite _ _ _)
      split <;> trivial
  refine hactive.bind fun answer => ?_
  split
  · trivial
  · trivial
  · refine (emitAudit_only _).bind fun answer => ?_
    cases answer <;> trivial

theorem requireImpersonationStanding_only (service : AuthnService) (admin target : UserId)
    (targetTenant : TenantId) :
    (service.requireImpersonationStanding admin target targetTenant : Async V _).Only
      World.ReadsIdentity := by
  refine (currentAccountStatus_only service admin).bind fun adminStatus => ?_
  split
  · trivial
  split
  · exact refused_only ..
  refine (currentAccountStatus_only service target).bind fun status => ?_
  split
  · trivial
  split
  · refine (emitAudit_only _).bind fun answer => ?_
    cases answer <;> trivial
  refine ⟨trivial, fun adminTenant => ?_⟩
  cases adminTenant with
  | error e => trivial
  | ok adminTenant =>
  refine (requireTenantStanding_only service admin target targetTenant targetTenant).bind
    fun standing => ?_
  split
  · trivial
  split
  · trivial
  · exact requireTenantStanding_only ..

theorem admitImpersonation_ok {admin : UserId} {expectedTenant : Option TenantId}
    {target : UserId} {s : SessionInner V} {w : World V} {p : Instant × TenantId}
    (h : ((AuthnService.admitImpersonation admin expectedTenant target s).eval
      World.perform w).1 = .ok p) : s.data.authState.authenticatedUserId = some admin := by
  unfold AuthnService.admitImpersonation at h
  split at h
  · cases h
  · split at h
    · rename_i userId tenantId authnTime factors impersonator groups hstate
      split at h
      · cases h
      · rename_i hadmin
        rw [hstate]
        exact congrArg some (not_not.mp hadmin)
    · cases h

theorem setImpersonator_user {s : SessionInner V} {admin owner : UserId} {since : Instant}
    (h : s.data.authState.authenticatedUserId = some owner) :
    (AuthSession.setImpersonator admin since s).1.data.authState.authenticatedUserId =
      some owner := by
  unfold AuthSession.setImpersonator
  split
  · rename_i state hstate
    show state.authenticatedUserId = some owner
    cases hs : s.data.authState with
    | authenticated =>
      rw [hs] at hstate h
      cases hstate
      exact h
    | guest => rw [hs] at h; cases h
    | identifying => rw [hs] at h; cases h
    | authenticating => rw [hs] at h; cases h
    | pendingWorkflow => rw [hs] at h; cases h
  · exact h

theorem assumeIdentity_user (service : AuthnService) (admin target : UserId) (tenant : TenantId)
    (authnTime : Instant) (s : SessionInner V) :
    (service.assumeIdentity admin target tenant authnTime s).data.authState.authenticatedUserId =
      some target := by
  apply setImpersonator_user
  show (AuthSession.retainAcrossLogin [] _).bindFingerprint.data.authState.authenticatedUserId = _
  rw [SessionInner.bindFingerprint_authState]
  rfl

theorem assumeIdentity_rotates (service : AuthnService) (admin target : UserId)
    (tenant : TenantId) (authnTime : Instant) (s : SessionInner V) :
    ∃ t, s.Rotates t ∧ t.Rotates (service.assumeIdentity admin target tenant authnTime s) := by
  have hclear : s.KeepsId (AuthSession.clearCustom s) :=
    (SessionInner.keepsId_setCustom s _).trans (SessionInner.keepsId_touch _)
  have hset : s.Rotates (AuthSession.setAuthenticatedKeeping target tenant authnTime []
      (AuthSession.clearCustom s)) :=
    (hclear.trans ((SessionInner.keepsId_retainAcrossLogin _ _ []).trans
      (SessionInner.keepsId_touch _))).rotateId
  exact ⟨_, hset.keeps (setImpersonator_keepsId admin service.now _),
    (SessionInner.KeepsId.refl _).rotateId.keeps (SessionInner.keepsId_touch _)⟩

theorem takeOver_moved (hservice : service.registry = true) (halone : s.Alone ttl w.rows s.id)
    (hfresh : ∀ n, s.rng.get n ≠ s.id) (admin target : UserId) (tenant : TenantId)
    (authnTime : Instant) :
    let h := (service.takeOver admin target tenant authnTime s).eval World.perform w
    h.1.1 = .ok () ∧
      ServiceMoved ttl s w target (w.registry.holds target s.id && target != admin) h.1.2 h.2 := by
  intro h
  let t := (AuthSession.sessionId (service.assumeIdentity admin target tenant authnTime
    (AuthSession.sessionId s).2)).2
  have hh : h = ((.ok (), t), { w with
      registry := (w.registry.invalidateSession admin s.id).register target t.id }) := by
    simp only [h, AuthnService.takeOver, hservice, if_true, Prog.eval_bind,
      Reg.eval_invalidateSession, Reg.eval_register]
    rfl
  obtain ⟨r, hfirst, hsecond⟩ := assumeIdentity_rotates service admin target tenant authnTime
    (AuthSession.sessionId s).2
  have hlast : r.Rotates t := hsecond.keeps (sessionId_keepsId _)
  have hid : t.id = s.rng.get 1 := by
    rw [hlast.id, hfirst.rng]
    rfl
  have hne : t.id ≠ s.id := by
    rw [hid]
    exact hfresh 1
  rw [hh]
  refine ⟨rfl, ((halone.keeps (sessionId_keepsId s)).rotates hfirst).rotates hlast, ?_,
    hlast.regenerate, ⟨1, hid⟩, assumeIdentity_user .., rfl, ?_, ?_⟩
  · rw [hlast.preCycleId]
    exact Option.some_ne_none _
  · show ((w.registry.invalidateSession admin s.id).register target t.id).holds target t.id = true
    simp
  · show ((w.registry.invalidateSession admin s.id).register target t.id).holds target s.id = _
    rw [Registry.holds_register, Registry.holds_invalidateSession]
    have hnew : (t.id == s.id) = false := beq_eq_false_iff_ne.mpr hne
    have hadmin : (!(admin == target && s.id == s.id)) = (target != admin) := by
      rw [beq_self_eq_true, Bool.and_true, ← bne, bne_comm]
    rw [hnew, hadmin, Bool.and_false, Bool.or_false]

theorem impersonate_moved (hservice : service.registry = true) (halone : s.Alone ttl w.rows s.id)
    (hfresh : ∀ n, s.rng.get n ≠ s.id) (huser : s.data.authState.authenticatedUserId = some u)
    {admin target : UserId} {expectedTenant : Option TenantId}
    (hok : ((service.impersonate admin expectedTenant target s).eval World.perform w).1.1 =
      .ok ()) :
    let h := (service.impersonate admin expectedTenant target s).eval World.perform w
    ServiceMoved ttl s w target (w.registry.holds target s.id && target != u) h.1.2 h.2 := by
  intro h
  have hadmitWorld := (admitImpersonation_only admin expectedTenant target s).eval_state
    World.perform World.perform_readsIdentity w
  simp only [h, AuthnService.impersonate, Prog.eval_bind, hadmitWorld] at hok ⊢
  cases hadmission : ((AuthnService.admitImpersonation admin expectedTenant target s).eval
    World.perform w).1 with
  | error e =>
    rw [hadmission] at hok
    cases hok
  | ok p =>
    obtain ⟨authnTime, tenant⟩ := p
    have hadmin : admin = u :=
      Option.some.inj ((admitImpersonation_ok hadmission).symm.trans huser)
    have hworld := (requireImpersonationStanding_only service admin target tenant).eval_state
      World.perform World.perform_readsIdentity w
    rw [hadmission] at hok
    simp only [Prog.eval_bind, hworld] at hok ⊢
    cases hstanding : ((service.requireImpersonationStanding admin target tenant).eval
      World.perform w).1 with
    | error e =>
      rw [hstanding] at hok
      cases hok
    | ok _ =>
      subst hadmin
      exact (takeOver_moved hservice halone hfresh admin target tenant authnTime).2

end

/-! ## What the layer makes of it -/

theorem rotationOf_user {wasAuthenticated : Bool} {state : AuthState} {owner : UserId}
    {oldId newId : SessionId} (h : state.authenticatedUserId = some owner)
    (hne : oldId ≠ newId) :
    rotationOf wasAuthenticated state oldId newId =
      some ⟨wasAuthenticated, owner, oldId, newId, hne⟩ := by
  unfold rotationOf
  rw [h]
  exact dif_pos hne

section

variable [BEq V] [JsonSize V] {layer : SessionLayer} (req : Request) {s t : SessionInner V}
  {w w' : World V} {existingId : Option SessionId} {owner : UserId} {kept : Bool}

theorem finishRequest_moved (hlayer : layer.registry = true) (hbegun : Begun layer w s existingId)
    (hexisting : existingId.isSome = true) {u : UserId}
    (huser : s.data.authState.authenticatedUserId = some u)
    (hmoved : ServiceMoved layer.config.ttl s w owner kept t w') :
    let f := (finishRequest layer req t existingId).eval World.perform w'
    (f.1 = some t.id ∧ (f.2.rows t.id).isSome = true ∧ f.2.registry.holds owner t.id = true) ↔
      kept = true := by
  intro f
  obtain ⟨n, hid⟩ := hmoved.minted
  have hne : s.id ≠ t.id := by
    rw [hid]
    exact (hbegun.fresh n).symm
  obtain ⟨old, hold⟩ := Option.ne_none_iff_exists'.mp hmoved.preCycleId
  have halone : t.Alone layer.config.ttl w'.rows s.id := by
    rw [hmoved.rows]
    exact hmoved.alone
  have hpresent : existingId.isSome = (w'.rows s.id).isSome := by
    rw [hmoved.rows]
    exact hbegun.existing
  -- the row was authenticated when it was loaded
  have hwas : (w'.rows s.id).any (·.authState.isAuthenticated) = true := by
    rw [hmoved.rows]
    cases hrow : w.rows s.id with
    | none =>
      rw [hexisting, hmoved.rows, hrow] at hpresent
      cases hpresent
    | some row =>
      rw [hbegun.authState row hrow] at huser
      show row.authState.isAuthenticated = true
      cases hstate : row.authState <;> rw [hstate] at huser <;> first | rfl | cases huser
  have hfinal := finalizeSession_regenerate req.finishedAt halone hpresent hmoved.regenerate
  rw [SessionInner.moved_id hold, hwas, rotationOf_user hmoved.user hne] at hfinal
  have hf : f = _ := finishRequest_rotation hlayer hfinal
  rw [moveRegistryEntry_alone] at hf
  cases kept with
  | true =>
    simp only [hmoved.oldHeld, if_true] at hf
    rw [hf]
    refine iff_of_true ⟨rfl, ?_, ?_⟩ rfl
    · show ((w'.rows.drop s.id).put t.id (t.stamped layer.config req.finishedAt).data
        t.id).isSome = true
      rw [Rows.put_self]
      rfl
    · show ((w'.registry.register owner t.id).invalidateSession owner s.id).holds owner t.id = true
      simp [hne]
  | false =>
    simp only [hmoved.oldHeld, hmoved.newHeld, Bool.false_eq_true, if_false, if_true] at hf
    rw [hf]
    refine iff_of_false (fun h => ?_) Bool.false_ne_true
    cases h.1

/-- A session that the service moved to a new id is still registered, stored and in the cookie
after the request only if the move was an impersonation of another user for whom the registry held
the old id. -/
theorem move_survives_iff {service : AuthnService} (hlayer : layer.registry = true)
    (hservice : service.registry = true) {w : World V} (hmint : req.Mints w.rows)
    (move : RegistryMove) (u : UserId) :
    let b := (beginRequest layer req).eval World.perform w
    let h := (move.run service b.1.1).eval World.perform b.2
    let f := (finishRequest layer req h.1.2 b.1.2).eval World.perform h.2
    b.1.2.isSome = true → b.1.1.data.authState.authenticatedUserId = some u → h.1.1 = .ok () →
      ((f.1 = some h.1.2.id ∧ (f.2.rows h.1.2.id).isSome = true ∧
          f.2.registry.holds (move.user u) h.1.2.id = true) ↔
        ∃ target, move.target = some target ∧ target ≠ u ∧
          b.2.registry.holds target b.1.1.id = true) := by
  intro b h f hexisting huser hok
  have hbegun : Begun layer b.2 b.1.1 b.1.2 := beginRequest_alone hmint
  have himpersonated {target : UserId}
      (hmoved : ServiceMoved layer.config.ttl b.1.1 b.2 target
        (b.2.registry.holds target b.1.1.id && target != u) h.1.2 h.2) :
      (f.1 = some h.1.2.id ∧ (f.2.rows h.1.2.id).isSome = true ∧
          f.2.registry.holds target h.1.2.id = true) ↔
        ∃ target', some target = some target' ∧ target' ≠ u ∧
          b.2.registry.holds target' b.1.1.id = true := by
    have hiff := finishRequest_moved req hlayer hbegun hexisting huser hmoved
    refine hiff.trans ?_
    simp [and_comm]
  cases move with
  | rotateSession =>
    have hmoved := (rotateSession_moved hservice hbegun.alone hbegun.fresh huser).2
    have hiff := finishRequest_moved req hlayer hbegun hexisting huser hmoved
    refine hiff.trans (iff_of_false Bool.false_ne_true ?_)
    rintro ⟨target, htarget, -⟩
    cases htarget
  | beginImpersonationAcrossTenants admin target =>
    exact himpersonated (impersonate_moved hservice hbegun.alone hbegun.fresh huser hok)
  | beginImpersonation admin target =>
    cases htenant : b.2.identity.userTenant admin with
    | none =>
      have herror : h.1.1 = .error .noFlow := by
        simp only [h, RegistryMove.run, AuthnService.beginImpersonation, Prog.eval_bind,
          Idn.eval_getUserTenant, htenant]
        rfl
      rw [herror] at hok
      cases hok
    | some adminTenant =>
      have hrun : h =
          (service.impersonate admin (some adminTenant) target b.1.1).eval World.perform b.2 := by
        simp only [h, RegistryMove.run, AuthnService.beginImpersonation, Prog.eval_bind,
          Idn.eval_getUserTenant, htenant]
      rw [hrun] at hok
      have hmoved := impersonate_moved hservice hbegun.alone hbegun.fresh huser hok
      rw [← hrun] at hmoved
      exact himpersonated hmoved

end

namespace Moves

def service : AuthnService := ⟨true, 0⟩

def world (users : List UserId) : World Nat :=
  { (World.empty : World Nat) with
    rows := fun i =>
      if i = ⟨1⟩ then some { SessionData.default with authState := .setAuthenticated ⟨7⟩ ⟨0⟩ 0 }
      else none
    registry := fun u => if u ∈ users then [⟨1⟩] else [] }

def request : Request := .counting (some ⟨⟨1⟩, false⟩) 2

theorem request_mints (users : List UserId) : request.Mints (world users).rows := by
  apply Request.counting_mints
  · intro c hc
    cases hc
    decide
  · intro i hi
    have hne : i ≠ ⟨1⟩ := by
      rintro rfl
      exact absurd hi (by decide)
    exact if_neg hne

end Moves

open Moves in
theorem move_survives_iff_impersonation :
    let b := (beginRequest SessionLayer.plain request).eval World.perform (world [⟨7⟩, ⟨8⟩])
    let h := (RegistryMove.run service (.beginImpersonation ⟨7⟩ ⟨8⟩) b.1.1).eval World.perform b.2
    let f := (finishRequest SessionLayer.plain request h.1.2 b.1.2).eval World.perform h.2
    f.1 = some h.1.2.id ∧ (f.2.rows h.1.2.id).isSome = true ∧
      f.2.registry.holds ⟨8⟩ h.1.2.id = true :=
  (move_survives_iff request (rfl : SessionLayer.plain.registry = true)
    (rfl : service.registry = true) (request_mints [⟨7⟩, ⟨8⟩]) (.beginImpersonation ⟨7⟩ ⟨8⟩) ⟨7⟩ rfl rfl rfl).mpr
    ⟨⟨8⟩, rfl, by decide, by decide⟩

open Moves in
/-- A live, registered session ends when its handler rotates it, and when its handler begins an
impersonation: no cookie, no row under any id, no registered id. -/
theorem moved_session_ended :
    let rotated := (serve SessionLayer.plain request service.rotateSession).eval World.perform
      (world [⟨7⟩])
    let impersonated := (serve SessionLayer.plain request
      (service.beginImpersonation ⟨7⟩ ⟨8⟩)).eval World.perform (world [⟨7⟩])
    (world [⟨7⟩]).registry.holds ⟨7⟩ ⟨1⟩ = true ∧
      rotated.1 = (.ok (), none) ∧ rotated.2.registry ⟨7⟩ = [] ∧
      (∀ id ∈ [1, 2, 3], (rotated.2.rows ⟨id⟩).isNone = true) ∧
      impersonated.1 = (.ok (), none) ∧ impersonated.2.registry ⟨8⟩ = [] ∧
      (∀ id ∈ [1, 2, 3], (impersonated.2.rows ⟨id⟩).isNone = true) := by
  decide

end Axess
