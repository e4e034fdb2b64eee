import Axess.Device.Lifecycle

/-!
# One live device for each fingerprint

A device is created only while no live one has its tenant, fingerprint and owner, in one step with
the check. A claim is one step too, but it only checks that the device has no owner: the claimant may
have got a device of its own since it looked. So unowned devices are never two, and owned ones are
not where every claim finds the claimant without one.
-/

namespace Axess

open Calls DeviceTable

def EnsureRequest.pool {ι : Type} (granularity : Int) (requests : ι → EnsureRequest) :
    Pool ι DeviceCall DeviceCall.Answer (Except NotFound DeviceId) DeviceTable :=
  ⟨fun i => (requests i).run granularity, .empty⟩

namespace DeviceTable

def AtMostOne (tenant : TenantId) (hash : FingerprintHash) (user : Option UserId)
    (t : DeviceTable) : Prop :=
  ∀ d ∈ t.values, ∀ d' ∈ t.values, d.SharesCreateKey tenant hash user →
    d'.SharesCreateKey tenant hash user → d = d'

instance (tenant : TenantId) (hash : FingerprintHash) (user : Option UserId) (t : DeviceTable) :
    Decidable (t.AtMostOne tenant hash user) :=
  inferInstanceAs (Decidable (∀ d ∈ t.values, ∀ d' ∈ t.values, _ → _ → d = d'))

/-- The claimant has no live device with the fingerprint of the one it claims. -/
def Unprovided (tenant : TenantId) (id : DeviceId) (user : UserId) (t : DeviceTable) : Prop :=
  ∀ entry, t.get (tenant, id) = some entry → entry.userId = none →
    ∀ d ∈ t.values, ¬d.SharesCreateKey tenant entry.fingerprintHash (some user)

end DeviceTable

namespace DeviceCall

def unprovided {ι : Type} (cfg : SweepConfig) (i : ι) : Sem DeviceCall Answer DeviceTable
  | .claimOwner tenant id user, t, a, t' =>
    sem cfg i (.claimOwner tenant id user) t a t' ∧ t.Unprovided tenant id user
  | e, t, a, t' => sem cfg i e t a t'

def Ensuring : DeviceCall → Prop
  | .findByFingerprint .. => True
  | .findByFingerprintForUser .. => True
  | .createOrFind .. => True
  | .recordSighting .. => True
  | .claimOwner .. => True
  | .emit _ => True
  | _ => False

end DeviceCall

namespace DeviceLifecycle

theorem serve_ensuring {α : Type} (granularity : Int) (tenant : TenantId) (device : DeviceRow)
    (now : Instant) (found : α) {otherwise : DeviceProg (Except NotFound α)}
    (h : otherwise.Only DeviceCall.Ensuring) :
    (serve granularity tenant device now found otherwise).Only DeviceCall.Ensuring := by
  have hnote : (noteSighting granularity tenant device now).Only DeviceCall.Ensuring := by
    unfold noteSighting
    split
    · trivial
    · exact ⟨trivial, fun _ => trivial⟩
  refine hnote.bind fun level => ?_
  cases level with
  | error e => trivial
  | ok level =>
    dsimp only
    split
    · trivial
    · exact h

theorem createDevice_ensuring (tenant : TenantId) (user : Option UserId)
    (fingerprint : FingerprintHash) (now : Instant) (id : DeviceId) :
    (createDevice tenant user fingerprint now id).Only DeviceCall.Ensuring := by
  refine Prog.Within.perform_bind trivial fun created => ?_
  split
  · trivial
  · exact ⟨trivial, fun _ => trivial⟩

theorem reuseExisting_ensuring (granularity : Int) (tenant : TenantId) (user : Option UserId)
    (fingerprint : FingerprintHash) (now : Instant) (newId : DeviceId) :
    (reuseExisting granularity tenant user fingerprint now newId).Only DeviceCall.Ensuring := by
  have hcreate := createDevice_ensuring tenant user fingerprint now newId
  refine Prog.Within.perform_bind trivial fun existing => ?_
  cases existing with
  | none => exact hcreate
  | some existing =>
    have hserve := serve_ensuring granularity tenant existing now existing.id hcreate
    dsimp only
    split
    · split
      · refine Prog.Within.perform_bind trivial fun claim => ?_
        cases claim with
        | claimed => exact hserve
        | ownedByOther => exact hcreate
        | missing => exact hcreate
      · exact hserve
    · exact hcreate

theorem ensureDevice_ensuring (granularity : Int) (tenant : TenantId) (user : Option UserId)
    (fingerprint : FingerprintHash) (now : Instant) (newId : DeviceId) :
    (ensureDevice granularity tenant user fingerprint now newId).Only DeviceCall.Ensuring := by
  have hreuse := reuseExisting_ensuring granularity tenant user fingerprint now newId
  unfold ensureDevice
  cases user with
  | none => exact hreuse
  | some owner =>
    refine Prog.Within.perform_bind trivial fun own => ?_
    cases own with
    | none => exact hreuse
    | some own =>
      dsimp only
      split
      · exact serve_ensuring granularity tenant own now own.id hreuse
      · exact hreuse

end DeviceLifecycle

namespace DeviceTable

variable {t : DeviceTable} {tenant : TenantId} {hash : FingerprintHash} {user : Option UserId}

theorem AtMostOne.put {x : DeviceRow} (h : t.AtMostOne tenant hash user)
    (hx : x.SharesCreateKey tenant hash user → ∀ d ∈ t.values, d.SharesCreateKey tenant hash user →
      d.key = x.key) : (t.put x).AtMostOne tenant hash user := by
  intro d hd d' hd' hshares hshares'
  rw [mem_values_put] at hd hd'
  rcases hd with rfl | ⟨hd, hne⟩
  · rcases hd' with rfl | ⟨hd', hne'⟩
    · rfl
    · exact absurd (hx hshares d' hd' hshares') hne'
  · rcases hd' with rfl | ⟨hd', hne'⟩
    · exact absurd (hx hshares' d hd hshares) hne
    · exact h d hd d' hd' hshares hshares'

theorem AtMostOne.put_same {entry x : DeviceRow} (h : t.AtMostOne tenant hash user)
    (hentry : entry ∈ t.values) (hkey : x.key = entry.key)
    (hsame : x.SharesCreateKey tenant hash user → entry.SharesCreateKey tenant hash user) :
    (t.put x).AtMostOne tenant hash user := by
  refine h.put fun hx d hd hshares => ?_
  rw [h d hd entry hentry hshares (hsame hx), hkey]

theorem AtMostOne.createOrFind (h : t.AtMostOne tenant hash user) (device : DeviceRow)
    (now : Instant) : (t.createOrFind device now).2.AtMostOne tenant hash user := by
  rcases createOrFind_cases t device now with ⟨existing, -, heq⟩ | ⟨hnone, heq⟩
  · rw [heq]
    exact h
  · rw [heq]
    -- no row has the key of the new one
    have hnew (hshares : (forSave device now).SharesCreateKey tenant hash user) (d : DeviceRow)
        (hd : d ∈ t.values) : ¬d.SharesCreateKey tenant hash user := by
      obtain ⟨-, ⟨rfl, rfl⟩, rfl⟩ := hshares
      exact hnone d hd
    intro d hd d' hd' hshares hshares'
    rcases mem_of_mem_write hd with rfl | hd
    · rcases mem_of_mem_write hd' with rfl | hd'
      · rfl
      · exact absurd hshares' (hnew hshares d' hd')
    · rcases mem_of_mem_write hd' with rfl | hd'
      · exact absurd hshares (hnew hshares' d hd)
      · exact h d hd d' hd' hshares hshares'

theorem AtMostOne.recordSighting (h : t.AtMostOne tenant hash user) (other : TenantId)
    (id : DeviceId) (now : Instant) :
    (t.recordSighting other id now).2.AtMostOne tenant hash user := by
  rcases recordSighting_cases t other id now with
    ⟨-, heq⟩ | ⟨entry, hentry, ⟨-, -, heq⟩ | ⟨-, heq⟩⟩
  · rw [heq]
    exact h
  · rw [heq]
    exact h.put_same (mem_of_get hentry) rfl fun hx => hx
  · rw [heq]
    exact h

theorem AtMostOne.claimOwner (h : t.AtMostOne tenant hash user) (other : TenantId) (id : DeviceId)
    (claimant : UserId) (hfree : user ≠ none → t.Unprovided other id claimant) :
    (t.claimOwner other id claimant).2.AtMostOne tenant hash user := by
  rcases claimOwner_cases t other id claimant with
    ⟨-, heq⟩ | ⟨entry, hentry, heq | ⟨-, heq⟩ | ⟨howner, -, heq⟩⟩
  · rw [heq]
    exact h
  · rw [heq]
    exact h
  · rw [heq]
    exact h
  · rw [heq]
    refine h.put fun hx d hd hshares => ?_
    obtain ⟨-, ⟨htenant, rfl⟩, rfl⟩ := hx
    have hother : entry.tenantId = other := congrArg Prod.fst (key_of_get hentry)
    rw [show entry.tenantId = tenant from htenant] at hother
    subst hother
    exact absurd hshares (hfree (by simp) entry hentry howner d hd)

end DeviceTable

namespace DeviceCall

variable {ι : Type} {cfg : SweepConfig} {i : ι} {e : DeviceCall} {t t' : DeviceTable} {a : e.Answer}
  {tenant : TenantId} {hash : FingerprintHash} {user : Option UserId}

theorem sem_of_unprovided (h : unprovided cfg i e t a t') : sem cfg i e t a t' := by
  cases e with
  | claimOwner => exact h.1
  | _ => exact h

theorem atMostOne_step (he : e.Ensuring) (h : sem cfg i e t a t')
    (hfree : ∀ other id claimant, e = .claimOwner other id claimant → user ≠ none →
      t.Unprovided other id claimant) (hone : t.AtMostOne tenant hash user) :
    t'.AtMostOne tenant hash user := by
  have ht : t' = (handle cfg e t).2 := congrArg Prod.snd h
  rw [ht]
  cases e with
  | findByFingerprint => exact hone
  | findByFingerprintForUser => exact hone
  | createOrFind device now => exact hone.createOrFind device now
  | recordSighting other id now => exact hone.recordSighting other id now
  | claimOwner other id claimant =>
    exact hone.claimOwner other id claimant (hfree other id claimant rfl)
  | emit => exact hone
  | _ => exact he.elim

end DeviceCall

namespace EnsureRequest

variable {ι : Type} [DecidableEq ι] {cfg : SweepConfig} {granularity : Int}
  {requests : ι → EnsureRequest} {tenant : TenantId} {hash : FingerprintHash}
  {user : Option UserId}

theorem invariant {X : ι → Sem DeviceCall DeviceCall.Answer DeviceTable}
    (hX : ∀ i e t a t', e.Ensuring → X i e t a t' → t.AtMostOne tenant hash user →
      t'.AtMostOne tenant hash user)
    {s : Pool ι DeviceCall DeviceCall.Answer (Except NotFound DeviceId) DeviceTable}
    (hrun : Pool.Reaches X (pool granularity requests) s) :
    s.state.AtMostOne tenant hash user := by
  have hsafe : Pool.AllSafe X
      (fun _ t t' => t.AtMostOne tenant hash user → t'.AtMostOne tenant hash user)
      (fun _ _ _ => True) (pool granularity requests) :=
    fun i => (DeviceLifecycle.ensureDevice_ensuring granularity _ _ _ _ _).safe
      (fun e t a t' he h => hX i e t a t' he h) _
  refine hrun.invariant hsafe (fun _ _ _ hkeep => hkeep) ?_
  intro d hd
  cases hd

end EnsureRequest

/-- In every run in which each claim of a device is made for a user without a live one, a user has at
most one live device with a fingerprint. In every run at most one has no owner. -/
theorem one_live_device_per_fingerprint {ι : Type} [DecidableEq ι] {cfg : SweepConfig}
    {granularity : Int} {requests : ι → EnsureRequest} (tenant : TenantId)
    (hash : FingerprintHash) :
    (∀ s, Pool.Reaches (DeviceCall.unprovided cfg) (EnsureRequest.pool granularity requests) s →
      ∀ user, s.state.AtMostOne tenant hash user) ∧
    ∀ s, Pool.Reaches (DeviceCall.sem cfg) (EnsureRequest.pool granularity requests) s →
      s.state.AtMostOne tenant hash none := by
  constructor
  · intro s hrun user
    refine EnsureRequest.invariant (fun i e t a t' he h => ?_) hrun
    refine DeviceCall.atMostOne_step he (DeviceCall.sem_of_unprovided h) ?_
    rintro other id claimant rfl -
    exact h.2
  · intro s hrun
    refine EnsureRequest.invariant (fun i e t a t' he h => ?_) hrun
    exact DeviceCall.atMostOne_step he h fun _ _ _ _ hne => absurd rfl hne

namespace TwoTabs

def fingerprint : FingerprintHash := ⟨40⟩

def requests : Fin 3 → EnsureRequest
  | 0 => ⟨⟨1⟩, none, fingerprint, 0, ⟨10⟩⟩
  | 1 => ⟨⟨1⟩, some ⟨7⟩, fingerprint, 0, ⟨11⟩⟩
  | 2 => ⟨⟨1⟩, some ⟨7⟩, fingerprint, 0, ⟨12⟩⟩

def cfg : SweepConfig := ⟨0, 0, 0⟩

abbrev Requests := Pool (Fin 3) DeviceCall DeviceCall.Answer (Except NotFound DeviceId) DeviceTable

def start : Requests := EnsureRequest.pool (300 * second) requests

def answering : Pool.Answerer (Fin 3) Unit DeviceCall DeviceCall.Answer DeviceTable :=
  fun _ _ e t => DeviceCall.handle cfg e t

/-- The guest's device is claimed by the first request, and found by the second. -/
def apart : List (Fin 3 × Unit) := Pool.turns [(3, 0, ()), (3, 1, ()), (3, 2, ())]

/-- The second request has looked before the guest's device is there, and creates its own while the
first is about to claim that one. -/
def across : List (Fin 3 × Unit) :=
  Pool.turns [(2, 2, ()), (3, 0, ()), (2, 1, ()), (2, 2, ()), (1, 1, ())]

def admitted (_ : Fin 3) (_ : Unit) (e : DeviceCall) (t : DeviceTable) : Bool :=
  match e with
  | .claimOwner tenant id user => (t.get (tenant, id)).all fun entry =>
    t.values.all fun d => !decide (d.SharesCreateKey tenant entry.fingerprintHash (some user))
  | _ => true

theorem unprovided_of_admitted (i : Fin 3) (x : Unit) (e : DeviceCall) (t : DeviceTable)
    (h : admitted i x e t = true) :
    DeviceCall.unprovided cfg i e t (answering i x e t).1 (answering i x e t).2 := by
  cases e with
  | claimOwner tenant id user =>
    refine ⟨rfl, fun entry hentry _ d hd => ?_⟩
    simp only [admitted, hentry, Option.all_some, List.all_eq_true] at h
    simpa using h d hd
  | _ => exact rfl

end TwoTabs

open TwoTabs in
theorem one_live_device_of_two_tabs :
    (Pool.replay answering apart start).prog 2 = .ret (.ok ⟨10⟩) ∧
    (Pool.replay answering apart start).state.AtMostOne ⟨1⟩ fingerprint (some ⟨7⟩) := by
  refine ⟨Prog.eq_ret_of_returned (by decide +kernel), ?_⟩
  exact (one_live_device_per_fingerprint ⟨1⟩ fingerprint).1 _
    (Pool.reaches_replay_of_admits unprovided_of_admitted apart start (by decide +kernel)) _

open TwoTabs in
/-- The user ends with the device it created and the guest's. -/
theorem two_live_devices_of_two_tabs :
    ∃ s, Pool.Reaches (DeviceCall.sem cfg) start s ∧ s.prog 1 = .ret (.ok ⟨10⟩) ∧
      s.prog 2 = .ret (.ok ⟨12⟩) ∧
      ¬s.state.AtMostOne ⟨1⟩ fingerprint (some ⟨7⟩) := by
  exact ⟨Pool.replay answering across start,
    Pool.reaches_replay (fun _ _ _ _ => rfl) across start, Prog.eq_ret_of_returned (by decide +kernel),
    Prog.eq_ret_of_returned (by decide +kernel), by decide +kernel⟩

end Axess
