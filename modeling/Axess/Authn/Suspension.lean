import Axess.Authn.Completion
import Axess.Authn.Login

/-!
# A suspension against the logins of its user

A suspension writes the status of the account and then removes the user from the registry. A login
registers itself first and looks at the status afterwards, so one of the two sees the other
(`suspendUserInner_not_outrun`): as long as the suspension is in force when the logins look. A
suspension until a time that has passed is none, and a login that looks then stays.
-/

namespace Axess

open Calls

variable {V ι : Type}

namespace Suspending

open Completing

variable (login : ι → Completion V) (u : UserId)

def Barred (identity : Identity) : Prop :=
  ∀ i, ((identity.status u).effectiveAt (login i).service.now).allowsLogin = false

def InForce (detail : StatusDetail) : Prop :=
  ∀ i stop, detail.untilTime = some stop → (login i).service.now < stop

variable {login u}

theorem InForce.allowsLogin {detail : StatusDetail} (h : InForce login detail) (i : ι) :
    ((EntityState.suspended detail).effectiveAt (login i).service.now).allowsLogin = false := by
  obtain ⟨cause, untilTime⟩ := detail
  cases untilTime with
  | none => rfl
  | some stop =>
    have hnow := h i stop rfl
    rw [EntityState.effectiveAt, if_neg (Int.not_le.mpr hnow)]
    rfl

abbrev answered : Option ι → Sem (Call V) Call.Answer (World V) := fun _ => World.Answers

theorem served : Served (answered : Option ι → Sem (Call V) Call.Answer (World V)) where
  registry := by
    rintro i c w a w' ⟨rfl, rfl⟩
    exact ⟨rfl, rfl, rfl⟩
  quiet i e w a w' he h := answers_quiet he h

section Login

variable (hids : Pairwise fun i j => Disjoint (login i).ids (login j).ids)
  {i : ι} {s : State V ι} {sid : SessionId}
include hids

theorem currentAccountStatus_among (hs : Exposed login u (Barred login u) i u sid s) :
    Among login u (Barred login u) answered i ((login i).service.currentAccountStatus u)
      (fun r s => Exposed login u (Barred login u) i u sid s ∧
        ∀ status, r = .ok status → status.allowsLogin = true →
          Settled login u (Barred login u) i s) s := by
  have hexposed : Stable (rely login u (Barred login u) i)
      (Exposed login u (Barred login u) i u sid) := running_stable hids (exposed_subset i u sid)
  have hsettled : Stable (rely login u (Barred login u) i)
      (Settled login u (Barred login u) i) := running_stable hids (Set.Subset.refl _)
  refine Prog.Safe.perform_bind _ hexposed hs fun before a after hs hcall => ?_
  obtain ⟨hG, hs'⟩ := hs.tame hids served (e := .identity (.accountStatus u)) (.inr trivial) hcall
  refine ⟨hG, ?_⟩
  obtain ⟨ha, -⟩ := hcall.1
  have hstatus : a = .ok (before.state.identity.status u) := ha
  subst hstatus
  refine Prog.Safe.ret (fun s => Exposed login u (Barred login u) i u sid s ∧
    (((before.state.identity.status u).effectiveAt (login i).service.now).allowsLogin = true →
      Settled login u (Barred login u) i s)) ?_ ⟨hs', fun hallows => ?_⟩ ?_
  · exact fun _ _ h hR => ⟨hexposed h.1 hR, fun hallows => hsettled (h.2 hallows) hR⟩
  · -- a status that was read after the revocation is that of a suspended account
    refine hs'.settle fun hrev => ?_
    rw [hs.inv.barred (revoked_call hcall hrev) i] at hallows
    cases hallows
  · rintro s ⟨hs, hpass⟩
    refine ⟨hs, fun status hstatus hallows => hpass ?_⟩
    cases hstatus
    exact hallows

theorem recheckStatusAfterRegister_among {t : SessionInner V} (hown : (login i).Owns t)
    (hs : Exposed login u (Barred login u) i u sid s) :
    Among login u (Barred login u) answered i
      ((login i).service.recheckStatusAfterRegister u sid t)
      (fun r s => (login i).Owns r.2 ∧ Settled login u (Barred login u) i s) s := by
  refine Prog.Safe.bind (currentAccountStatus_among hids hs) fun status s hs => ?_
  cases status with
  | error e => exact refuseRegistered_among hids served hs.1 hown
  | ok status =>
    show Among _ _ _ _ _ (if !status.allowsLogin then _ else _) _ s
    cases hallows : status.allowsLogin with
    | false => exact refuseRegistered_among hids served hs.1 hown
    | true =>
      exact Prog.Safe.ret _ (running_stable hids (Set.Subset.refl _)) (hs.2 status rfl hallows)
        fun _ hs => ⟨hown, hs⟩

theorem checksOut [JsonValue V FlowStamp] [BEq V] [JsonSize V] (tenantId : TenantId) :
    ChecksOut login u (Barred login u) answered (login i).service i ⟨tenantId, u⟩ := by
  intro sid t s hown hs
  refine Prog.Safe.bind (tame_among hids served ((flowStillCurrent_quiet ⟨tenantId, u⟩ t).mono
    (fun _ he => he.tame) fun _ ht => ht) (exposed_subset i u sid) hs) fun r s hr => ?_
  obtain ⟨current, t'⟩ := r
  have hown' : (login i).Owns t' := hown.stays hr.1
  rcases current with e | _ | _
  · exact refuseRegistered_among hids served hr.2 hown'
  · exact refuseRegistered_among hids served hr.2 hown'
  · exact recheckStatusAfterRegister_among hids hown' hr.2

end Login

section Suspender

variable {service : LoginService} {s : State V ι} {actor : Actor} {expectedTenant : Option TenantId} {detail : StatusDetail}

theorem verifyAdminTargetInTenant_quiet (eventType : AuthEventType) :
    (LoginService.verifyAdminTargetInTenant u actor expectedTenant eventType : Async V _).Only
      Quiet := by
  refine ⟨.inr trivial, fun answer => ?_⟩
  rcases answer with e | tenant
  · trivial
  · cases expectedTenant with
    | none => cases tenant <;> trivial
    | some expected =>
      show Prog.Only _ (if tenant = some expected then _ else _)
      split
      · trivial
      · exact ⟨.inr trivial, fun audited => by cases audited <;> trivial⟩

theorem endSuspended_revoking {tenant : TenantId} (hregistry : service.registry = true)
    (hs : Barred login u s.state.identity) :
    Completing.Revoking login u (Barred login u) (service.endSuspended u tenant actor)
      (fun _ => Revoked u) s := by
  refine Prog.Safe.bind (endUserSessions_revoking hregistry hs) fun ended s hs => ?_
  refine quiet_revoked ⟨.inr trivial, fun revoked => ⟨.inr trivial, fun audited => ?_⟩⟩ hs
  rcases audited with e | _
  · trivial
  · rcases ended with e | _
    · trivial
    · cases revoked <;> trivial

theorem suspendUserInner_revoking (hforce : InForce login detail)
    (hregistry : service.registry = true) (s : State V ι) :
    Completing.Revoking login u (Barred login u) (service.suspendUserInner actor expectedTenant u detail)
      (fun r s => r = .ok () → Revoked u s) s := by
  refine Prog.Safe.bind (quiet_revoking (verifyAdminTargetInTenant_quiet _)
    (I := fun _ => True) (fun _ _ _ _ => trivial) (fun _ _ _ _ _ => trivial) trivial)
    fun verified s _ => ?_
  cases verified with
  | error e =>
    exact Prog.Safe.ret (fun _ => True) (fun _ _ _ _ => trivial) trivial fun _ _ h => by cases h
  | ok tenant =>
    refine Prog.Safe.perform_bind (fun _ => True) (fun _ _ _ _ => trivial) trivial
      fun s a s' _ hX => ?_
    obtain ⟨⟨ha, hstate⟩, htrace⟩ := hX
    have hbarred : Barred login u s'.state.identity := by
      intro i
      rw [hstate]
      show ((Function.update s.state.identity.status u (.suspended detail) u).effectiveAt
        _).allowsLogin = false
      rw [Function.update_self]
      exact hforce.allowsLogin i
    have hreg : s'.state.registry = s.state.registry := by rw [hstate]; rfl
    refine ⟨revokerStep_of_registry htrace (by simp) hreg fun _ => hbarred, ?_⟩
    have hok : a = .ok () := ha
    subst hok
    exact Prog.Safe.conseq (endSuspended_revoking hregistry hbarred) fun _ _ hrev _ => hrev

end Suspender

end Suspending

section Race

open Completing

variable [JsonValue V FlowStamp] [BEq V] [JsonSize V] [DecidableEq ι]

def Suspending.start (layer : SessionLayer) (service : LoginService) (actor : Actor)
    (expectedTenant : Option TenantId) (u : UserId) (detail : StatusDetail)
    (login : ι → Completion V) (w : World V) :
    Pool (Option ι) (Act V) Act.Answer (Except AuthnError Unit) (State V ι) :=
  ⟨prog login layer u (service.suspendUserInner actor expectedTenant u detail), ⟨w, []⟩⟩

/-- **No login outruns a suspension that is in force.** Whatever the order of their calls, once the
suspension has succeeded and every login has been answered the registry holds no id of the user. -/
theorem suspendUserInner_not_outrun (layer : SessionLayer) (service : LoginService)
    (hregistry : service.registry = true) (actor : Actor) (expectedTenant : Option TenantId)
    (u : UserId) (detail : StatusDetail) (login : ι → Completion V)
    (hids : Pairwise fun i j => Disjoint (login i).ids (login j).ids)
    (hforce : Suspending.InForce login detail) (w : World V)
    (s : Pool (Option ι) (Act V) Act.Answer (Except AuthnError Unit) (State V ι))
    (hrun : Pool.Reaches (sem login Suspending.answered)
      (Suspending.start layer service actor expectedTenant u detail login w) s)
    (hsuspended : s.prog none = .ret (.ok ()))
    (hanswered : ∀ i, s.prog (some i) = .ret (.ok ())) :
    s.state.state.registry u = [] := by
  have hfresh : Inv login u (Suspending.Barred login u) (⟨w, []⟩ : State V ι) :=
    ⟨fun h => absurd h List.not_mem_nil, fun h => absurd h List.not_mem_nil,
      fun _ h => absurd h List.not_mem_nil⟩
  have hsafe : Pool.AllSafe (sem login Suspending.answered)
      (guar login u (Suspending.Barred login u))
      (fun k r s => k.elim (r = .ok () → Revoked u s) (Responded · s))
      (Suspending.start layer service actor expectedTenant u detail login w) := by
    intro k
    cases k with
    | none =>
      exact Prog.Safe.relabel (Suspending.suspendUserInner_revoking hforce hregistry _)
    | some i =>
      exact login_safe hids Suspending.served layer
        (service.suspendUserInner actor expectedTenant u detail) (Suspending.checksOut hids _)
        ⟨hfresh, List.not_mem_nil, fun h => absurd h List.not_mem_nil⟩
  have hinv : Inv login u (Suspending.Barred login u) s.state :=
    hrun.invariant hsafe (fun k w w' hG hI => hI.step hids hG) hfresh
  exact hinv.registry_eq_nil (hrun.post hsafe hsuspended rfl) fun i => hrun.post hsafe (hanswered i)

end Race

namespace Suspending

open Completing

def exampleService (now : Instant) : LoginService :=
  { LoginService.literal now none with codec := ⟨fun _ => "digest", fun _ => "steps"⟩ }

def exampleRow : SessionData FlowValue :=
  let steps := [FactorStep.required .password]
  let stamp : FlowStamp := ⟨0, "password", "digest", some steps⟩
  { (SessionData.default : SessionData FlowValue) with
    authState := .beginAuthenticating ⟨7⟩ ⟨0⟩ "password" steps
    custom := .object (AList.insert loginFlowKey (toValue stamp) ∅) }

def exampleLogin (now : Instant) (_ : Unit) : Completion FlowValue where
  service := exampleService now
  tenantId := ⟨0⟩
  session := AuthSession.advanceFactor .password now []
    { id := ⟨1⟩, data := exampleRow, modified := false, needsPersist := false, regenerate := false,
      preCycleId := none, pendingFingerprint := none, maxCustomBytes := 0,
      rng := fun n => ⟨n + 2⟩, consume := some ⟨3600, some exampleRow⟩ }
  oldId := ⟨1⟩
  rotated := rfl
  request := .counting none 2
  existingId := some ⟨1⟩

def exampleWorld : World FlowValue :=
  { (World.empty : World FlowValue) with
    rows := fun id => if id = ⟨1⟩ then some exampleRow else none
    identity :=
      { (World.empty : World FlowValue).identity with
        own := fun _ kind => if kind = .password then some (.password ⟨"hash", none⟩) else none } }

def perform : (e : Act V) → World V → e.Answer × World V
  | .call c, w => World.perform c w
  | .arrive, w => ((), w)
  | .respond, w => ((), w)

theorem reaches_replay {login : ι → Completion V} [DecidableEq ι]
    (hold : ∀ k j, (login k).oldId ∉ (login j).ids) (sched : List (Option ι × Unit))
    (s : Pool (Option ι) (Act V) Act.Answer (Except AuthnError Unit) (State V ι)) :
    Pool.Reaches (sem login answered) s (Pool.replay (noting fun _ _ => perform) sched s) := by
  refine Pool.reaches_replay (fun i c e s => ⟨?_, rfl⟩) sched s
  cases e with
  | call c => exact ⟨rfl, rfl⟩
  | arrive => exact ⟨rfl, fun k _ j hj => absurd hj (hold k j)⟩
  | respond => exact rfl

theorem exampleLogin_oldId (now : Instant) (k j : Unit) :
    (exampleLogin now k).oldId ∉ (exampleLogin now j).ids := by
  rintro (h | ⟨n, h⟩)
  · cases h
  · have huuid : 1 = n + 1 + 2 := congrArg SessionId.uuid h
    omega

def exampleRun (now : Instant) (stop : Option Instant) (sched : List (Option Unit)) :
    Pool (Option Unit) (Act FlowValue) Act.Answer (Except AuthnError Unit)
      (State FlowValue Unit) :=
  Pool.replay (noting fun _ _ => perform) (sched.map (·, ()))
    (start .plain (exampleService 0) .system none ⟨7⟩ ⟨.administrative, stop⟩ (exampleLogin now)
      exampleWorld)

theorem reaches_exampleRun (now : Instant) (stop : Option Instant) (sched : List (Option Unit)) :
    Pool.Reaches (sem (exampleLogin now) answered)
      (start .plain (exampleService 0) .system none ⟨7⟩ ⟨.administrative, stop⟩ (exampleLogin now)
        exampleWorld) (exampleRun now stop sched) :=
  reaches_replay (exampleLogin_oldId now) _ _

def suspendedFirst : List (Option Unit) := List.replicate 6 none ++ List.replicate 14 (some ())

def registeredFirst : List (Option Unit) :=
  List.replicate 2 (some ()) ++ List.replicate 6 none ++ List.replicate 10 (some ())

end Suspending

open Suspending

/-- A suspension until time 5 has run out when a login looks at the account at time 10: the login
stays in the registry. -/
theorem lapsed_suspension_outrun :
    ∃ s, Pool.Reaches (Completing.sem (exampleLogin 10) answered)
      (start .plain (exampleService 0) .system none ⟨7⟩ ⟨.administrative, some 5⟩
        (exampleLogin 10) exampleWorld) s ∧
      s.prog none = .ret (.ok ()) ∧ (∀ i, s.prog (some i) = .ret (.ok ())) ∧
      s.state.state.registry ⟨7⟩ = [⟨2⟩] := by
  refine ⟨exampleRun 10 (some 5) suspendedFirst,
    reaches_exampleRun 10 (some 5) suspendedFirst,
    Prog.eq_ret_of_returned ?_, fun () => Prog.eq_ret_of_returned ?_, ?_⟩
  · decide +kernel
  · decide +kernel
  · decide +kernel

/-- The suspension lands between the registration of a login and its last look at the account. -/
theorem suspendUserInner_not_outrun_registeredFirst :
    (exampleRun 10 none registeredFirst).state.state.registry ⟨7⟩ = [] :=
  suspendUserInner_not_outrun .plain (exampleService 0) rfl .system none ⟨7⟩ ⟨.administrative, none⟩
    (exampleLogin 10) (fun i j hij => absurd rfl hij) (fun _ _ h => by cases h)
    exampleWorld _
    (reaches_exampleRun 10 none registeredFirst)
    (Prog.eq_ret_of_returned (by decide +kernel))
    fun () => Prog.eq_ret_of_returned (by decide +kernel)

end Axess
