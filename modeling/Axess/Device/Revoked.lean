import Axess.Device.Lifecycle

/-!
# Revoked devices are not handed out

The lookup, the claim and the sighting of a request are separate calls, and a revocation may fall
between any two of them. Each call tells the request the level it finds, except the claim of a device
that the claimant already owns: it is answered without a look at the level. So a request that finds a
device unowned, while another request of the user claims it and it is then revoked, returns it when no
sighting is due.
-/

namespace Axess

open Calls DeviceTable DeviceLifecycle

inductive DeviceOp where
  | ensure (r : EnsureRequest)
  | resolve (request : DeviceRequest) (now : Instant) (minted : DeviceToken) (newId : DeviceId)
  | revoke (tenant : TenantId) (id : DeviceId) (now : Instant)

namespace DeviceOp

def run (digest : DeviceToken → FingerprintHash) (granularity : Int) :
    DeviceOp → DeviceProg (Except NotFound (Option DeviceId))
  | ensure r => (Except.map some) <$> r.run granularity
  | resolve request now minted newId => (Except.map (Option.map ResolvedDevice.id)) <$>
    resolveProven digest granularity request now minted newId
  | revoke tenant id now => (Except.map fun _ => none) <$> DeviceLifecycle.revoke tenant id now

def tenant : DeviceOp → TenantId
  | ensure r => r.tenant
  | resolve request _ _ _ => request.tenant
  | revoke tenant _ _ => tenant

def user : DeviceOp → Option UserId
  | ensure r => r.user
  | resolve request _ _ _ => request.user
  | revoke _ _ _ => none

def newKey : DeviceOp → Option DeviceKey
  | ensure r => some (r.tenant, r.newId)
  | resolve request _ _ newId => some (request.tenant, newId)
  | revoke _ _ _ => none

end DeviceOp

def DeviceCall.names : (e : DeviceCall) → e.Answer → List DeviceKey
  | .load tenant id, _ => [(tenant, id)]
  | .findByFingerprint .., (a : Option DeviceRow) => a.toList.map DeviceRow.key
  | .findByFingerprintForUser .., (a : Option DeviceRow) => a.toList.map DeviceRow.key
  | .save device _, _ => [device.key]
  | .createOrFind device _, (a : DeviceRow) => [device.key, a.key]
  | .recordSighting tenant id _, _ => [(tenant, id)]
  | .setTrustLevel tenant id _ _, _ => [(tenant, id)]
  | .setTrustLevelIf tenant id _ _ _, _ => [(tenant, id)]
  | .claimOwner tenant id _, _ => [(tenant, id)]
  | .sweepKeys _, _ => []
  | .sweepRow key _, _ => [key]
  | .emit _, _ => []

/-- The table, and for each request the level that a device had when the request last named it. -/
structure DeviceRun (ι : Type) where
  table : DeviceTable
  found : ι → DeviceKey → Option DeviceTrustLevel

namespace DeviceRun

variable {ι : Type} [DecidableEq ι]

def start (t : DeviceTable) : DeviceRun ι := ⟨t, fun _ _ => none⟩

def note (s : DeviceRun ι) (i : ι) (names : List DeviceKey) (t : DeviceTable) :
    ι → DeviceKey → Option DeviceTrustLevel :=
  Function.update s.found i fun key =>
    if key ∈ names then (t.get key).map DeviceRow.trustLevel else s.found i key

def sem (cfg : SweepConfig) (i : ι) : Sem DeviceCall DeviceCall.Answer (DeviceRun ι) :=
  fun e s a s' => (a, s'.table) = e.handle cfg s.table ∧
    s'.found = s.note i (e.names a) s'.table

def ClaimsLive : DeviceCall → DeviceTable → Prop
  | .claimOwner tenant id user, t =>
    ∀ entry, t.get (tenant, id) = some entry → entry.userId = some user → entry.Live
  | _, _ => True

/-- Runs whose claims, if `c`, are of devices that are not revoked. -/
def guarded (c : Prop) (cfg : SweepConfig) (i : ι) :
    Sem DeviceCall DeviceCall.Answer (DeviceRun ι) :=
  fun e s a s' => sem cfg i e s a s' ∧ (c → ClaimsLive e s.table)

end DeviceRun

/-! ## What a call does to the table -/

namespace DeviceTable

/-- No row goes, no owner is changed, and no row comes but under the key `own`. -/
structure Grows (own : Option DeviceKey) (t t' : DeviceTable) : Prop where
  kept : ∀ key d, t.get key = some d →
    ∃ d', t'.get key = some d' ∧ ∀ u, d.userId = some u → d'.userId = some u
  added : ∀ key d', t'.get key = some d' → t.get key = none → own = some key

variable {own : Option DeviceKey} {t t' : DeviceTable} {x entry : DeviceRow} {key : DeviceKey}

theorem Grows.refl (own : Option DeviceKey) (t : DeviceTable) : Grows own t t where
  kept _ d hd := ⟨d, hd, fun _ hu => hu⟩
  added _ _ hd' hnone := nomatch hnone.symm.trans hd'

theorem Grows.weaken (h : Grows none t t') : Grows own t t' where
  kept := h.kept
  added key d' hd' hnone := nomatch h.added key d' hd' hnone

theorem Grows.put (hentry : t.get key = some entry) (hkey : x.key = entry.key)
    (howner : ∀ u, entry.userId = some u → x.userId = some u) : Grows own t (t.put x) where
  kept other d hd := by
    rw [get_put]
    by_cases hother : other = x.key
    · rw [hother, hkey, key_of_get hentry, hentry] at hd
      obtain rfl := Option.some.inj hd
      exact ⟨x, if_pos hother, howner⟩
    · exact ⟨d, by rw [if_neg hother]; exact hd, fun _ hu => hu⟩
  added other d' hd' hnone := by
    rw [get_put] at hd'
    by_cases hother : other = x.key
    · rw [hother, hkey, key_of_get hentry, hentry] at hnone
      cases hnone
    · rw [if_neg hother, hnone] at hd'
      cases hd'

theorem get_write_new (hfresh : t.get x.key = none) :
    (t.write x).get key = if key = x.key then some x else t.get key := by
  rw [get_write, hfresh]
  simp

theorem Grows.write (hfresh : t.get x.key = none) : Grows (some x.key) t (t.write x) where
  kept other d hd := by
    have hother : other ≠ x.key := by
      rintro rfl
      rw [hfresh] at hd
      cases hd
    exact ⟨d, by rw [get_write_new hfresh, if_neg hother]; exact hd, fun _ hu => hu⟩
  added other d' hd' hnone := by
    rw [get_write_new hfresh] at hd'
    by_cases hother : other = x.key
    · rw [hother]
    · rw [if_neg hother, hnone] at hd'
      cases hd'

theorem level_of_recordSighting {tenant : TenantId} {id : DeviceId} {now : Instant}
    {level : DeviceTrustLevel} (h : (t.recordSighting tenant id now).1 = .ok level) :
    ((t.recordSighting tenant id now).2.get (tenant, id)).map DeviceRow.trustLevel = some level := by
  rcases recordSighting_cases t tenant id now with
    ⟨-, heq⟩ | ⟨entry, hentry, ⟨-, -, heq⟩ | ⟨-, heq⟩⟩
  · rw [heq] at h
    cases h
  · rw [heq] at h ⊢
    obtain rfl := Except.ok.inj h
    have hkey : (tenant, id) = ({ entry with lastSeenAt := wholeSecond now } : DeviceRow).key :=
      (key_of_get hentry).symm
    rw [get_settleFingerprint, get_put, if_pos hkey]
    rfl
  · rw [heq] at h ⊢
    obtain rfl := Except.ok.inj h
    rw [hentry]
    rfl

theorem row_of_claimOwner {tenant : TenantId} {id : DeviceId} {user : UserId}
    (h : (t.claimOwner tenant id user).1 = .claimed) :
    ∃ entry, (t.claimOwner tenant id user).2.get (tenant, id) = some entry ∧
      entry.userId = some user ∧ (entry.Live ∨ t.get (tenant, id) = some entry) := by
  rcases claimOwner_cases t tenant id user with
    ⟨-, heq⟩ | ⟨entry, hentry, heq | ⟨howner, heq⟩ | ⟨-, hlive, heq⟩⟩
  · rw [heq] at h
    cases h
  · rw [heq] at h
    cases h
  · rw [heq]
    exact ⟨entry, hentry, howner, .inr hentry⟩
  · have hkey : (tenant, id) = ({ entry with userId := some user } : DeviceRow).key :=
      (key_of_get hentry).symm
    refine ⟨{ entry with userId := some user }, ?_, rfl, .inl hlive⟩
    rw [heq, get_put, if_pos hkey]

end DeviceTable

namespace DeviceCall

def Plain : DeviceCall → Prop
  | .save .. => False
  | .createOrFind .. => False
  | .sweepRow .. => False
  | _ => True

variable {cfg : SweepConfig} {e : DeviceCall} {t : DeviceTable}

/-- A plain call leaves the table as it was or changes one row in its place, which keeps its owner and
its bindings. -/
theorem Plain.keeps {P : DeviceTable → Prop} (he : e.Plain) (hsame : P t)
    (hput : ∀ key entry x, t.get key = some entry → x.key = entry.key →
      x.bindings = entry.bindings → (∀ u, entry.userId = some u → x.userId = some u) → P (t.put x))
    (hsettle : ∀ t' tenant hash, P t' → P (t'.settleFingerprint tenant hash)) :
    P (e.handle cfg t).2 := by
  cases e with
  | save => exact he.elim
  | createOrFind => exact he.elim
  | sweepRow => exact he.elim
  | recordSighting tenant id now =>
    show P (t.recordSighting tenant id now).2
    rcases recordSighting_cases t tenant id now with
      ⟨-, heq⟩ | ⟨entry, hentry, ⟨-, -, heq⟩ | ⟨-, heq⟩⟩
    · rw [heq]
      exact hsame
    · rw [heq]
      exact hsettle _ _ _ (hput _ entry _ hentry rfl rfl fun _ hu => hu)
    · rw [heq]
      exact hsame
  | setTrustLevel tenant id level now =>
    show P (t.setTrustLevel tenant id level now).2
    unfold DeviceTable.setTrustLevel
    cases hentry : t.get (tenant, id) with
    | none => exact hsame
    | some entry => exact hput _ entry _ hentry rfl rfl fun _ hu => hu
  | setTrustLevelIf tenant id expected level now =>
    show P (t.setTrustLevelIf tenant id expected level now).2
    unfold DeviceTable.setTrustLevelIf
    cases hentry : t.get (tenant, id) with
    | none => exact hsame
    | some entry =>
      dsimp only
      split
      · exact hsame
      · exact hput _ entry _ hentry rfl rfl fun _ hu => hu
  | claimOwner tenant id user =>
    show P (t.claimOwner tenant id user).2
    rcases claimOwner_cases t tenant id user with
      ⟨-, heq⟩ | ⟨entry, hentry, heq | ⟨-, heq⟩ | ⟨howner, -, heq⟩⟩
    · rw [heq]
      exact hsame
    · rw [heq]
      exact hsame
    · rw [heq]
      exact hsame
    · rw [heq]
      exact hput _ entry _ hentry rfl rfl fun u hu => nomatch howner.symm.trans hu
  | _ => exact hsame

theorem grows_of_plain (he : e.Plain) : Grows none t (e.handle cfg t).2 :=
  he.keeps (.refl none t) (fun _ _ _ hentry hkey _ howner => .put hentry hkey howner)
    fun _ _ _ h => ⟨h.kept, h.added⟩

end DeviceCall

namespace DeviceRun

variable {ι : Type} [DecidableEq ι] {c : Prop} {cfg : SweepConfig} {own : ι → Option DeviceKey}
  {i : ι} {s s' : DeviceRun ι} {e : DeviceCall} {a : e.Answer} {key : DeviceKey}
  {user : Option UserId}

structure Frame (own : ι → Option DeviceKey) (i : ι) (s s' : DeviceRun ι) : Prop where
  grows : Grows (own i) s.table s'.table
  found : ∀ j, j ≠ i → s'.found j = s.found j

theorem table_of_guarded (h : guarded c cfg i e s a s') :
    a = (e.handle cfg s.table).1 ∧ s'.table = (e.handle cfg s.table).2 :=
  Prod.mk.inj h.1.1

theorem found_of_guarded (h : guarded c cfg i e s a s') :
    s'.found i key = if key ∈ e.names a then (s'.table.get key).map DeviceRow.trustLevel
      else s.found i key := by
  rw [h.1.2, note, Function.update_self]

theorem frame_of_guarded (h : guarded c cfg i e s a s') (hgrows : Grows (own i) s.table s'.table) :
    Frame own i s s' :=
  ⟨hgrows, fun j hj => by rw [h.1.2, note, Function.update_of_ne hj]⟩

def Free (key : DeviceKey) (s : DeviceRun ι) : Prop := s.table.get key = none

def Handed (c : Prop) (i : ι) (key : DeviceKey) (user : Option UserId) (s : DeviceRun ι) : Prop :=
  (∃ level, s.found i key = some level ∧ (c → level ≠ .revoked)) ∧
    ∀ u, user = some u → ∃ d, s.table.get key = some d ∧ d.userId = some u

omit [DecidableEq ι] in
theorem Handed.unowned (h : Handed c i key user s) : Handed c i key none s :=
  ⟨h.1, fun _ hu => nomatch hu⟩

omit [DecidableEq ι] in
theorem Handed.grows {own : Option DeviceKey} (h : Handed c i key user s)
    (hgrows : Grows own s.table s'.table) (hfound : s'.found i key = s.found i key) :
    Handed c i key user s' := by
  refine ⟨hfound ▸ h.1, fun u hu => ?_⟩
  obtain ⟨d, hd, howner⟩ := h.2 u hu
  obtain ⟨d', hd', hkept⟩ := hgrows.kept key d hd
  exact ⟨d', hd', hkept u howner⟩

omit [DecidableEq ι] in
theorem handed_stable : Stable (Pool.others (Frame own) i) (Handed c i key user) := by
  rintro s s' h ⟨j, hj, hframe⟩
  exact h.grows hframe.grows (by rw [hframe.found i (Ne.symm hj)])

omit [DecidableEq ι] in
theorem free_stable (hown : own i = some key)
    (hinj : ∀ j key, own i = some key → own j = some key → j = i) :
    Stable (Pool.others (Frame own) i) (Free key : DeviceRun ι → Prop) := by
  rintro s s' h ⟨j, hj, hframe⟩
  cases hkey : s'.table.get key with
  | none => exact hkey
  | some d => exact absurd (hinj j key hown (hframe.grows.added key d hkey h)) hj

omit [DecidableEq ι] in
theorem Free.grows (h : Free key s) (hgrows : Grows none s.table s'.table) : Free key s' := by
  cases hkey : s'.table.get key with
  | none => exact hkey
  | some d => exact nomatch hgrows.added key d hkey h

theorem handed_of_row {d : DeviceRow} (h : guarded c cfg i e s a s') (hname : d.key ∈ e.names a)
    (hget : s'.table.get d.key = some d) (hlive : c → d.Live) : Handed c i d.key d.userId s' := by
  refine ⟨⟨d.trustLevel, ?_, hlive⟩, fun u hu => ⟨d, hget, hu⟩⟩
  rw [found_of_guarded h, if_pos hname, hget]
  rfl

/-! ## Requests among others -/

section Requests

variable {α : Type} {tenant : TenantId} {newId : DeviceId}

def Returned (c : Prop) (i : ι) (tenant : TenantId) (user : Option UserId)
    (idOf : α → Option DeviceId) (r : Except NotFound α) (s : DeviceRun ι) : Prop :=
  ∀ v id, r = .ok v → idOf v = some id → Handed c i (tenant, id) user s

abbrev Hands (c : Prop) (cfg : SweepConfig) (own : ι → Option DeviceKey) (i : ι) (tenant : TenantId)
    (user : Option UserId) (idOf : α → Option DeviceId) (p : DeviceProg (Except NotFound α))
    (s : DeviceRun ι) : Prop :=
  p.SafeAmong (guarded c cfg) (Frame own) i (Returned c i tenant user idOf) s

variable {idOf : α → Option DeviceId}

theorem call_safe {β : Type} {K : DeviceRun ι → Prop} {Q : β → DeviceRun ι → Prop}
    {f : e.Answer → DeviceProg β} (he : e.Plain) (hK : Stable (Pool.others (Frame own) i) K)
    (hs : K s)
    (hstep : ∀ s a s', K s → guarded c cfg i e s a s' → Grows none s.table s'.table →
      (f a).SafeAmong (guarded c cfg) (Frame own) i Q s') :
    (call e >>= f).SafeAmong (guarded c cfg) (Frame own) i Q s := by
  refine Prog.Safe.perform_bind K hK hs fun s a s' hs h => ?_
  have hgrows : Grows none s.table s'.table := by
    rw [(table_of_guarded h).2]
    exact DeviceCall.grows_of_plain he
  exact ⟨frame_of_guarded h hgrows.weaken, hstep s a s' hs h hgrows⟩

variable {id : DeviceId}

theorem ret_safe {v : α} (hv : idOf v = some id) (hs : Handed c i (tenant, id) user s) :
    Hands c cfg own i tenant user idOf (pure (.ok v)) s := by
  refine Prog.Safe.ret _ handed_stable hs fun s hs v' id' hv' hid' => ?_
  obtain rfl := Except.ok.inj hv'
  obtain rfl := Option.some.inj (hv.symm.trans hid')
  exact hs

theorem error_safe (error : NotFound) :
    Hands c cfg own i tenant user idOf (pure (.error error)) s :=
  fun _ _ _ _ hv => nomatch hv

variable (hown : own i = some (tenant, newId))
  (hinj : ∀ j key, own i = some key → own j = some key → j = i)

include hown hinj in
theorem free_call_safe {β : Type} {Q : β → DeviceRun ι → Prop} {f : e.Answer → DeviceProg β}
    (he : e.Plain) (hfree : Free (tenant, newId) s)
    (hstep : ∀ s a s', Free (tenant, newId) s' → guarded c cfg i e s a s' →
      a = (e.handle cfg s.table).1 → s'.table = (e.handle cfg s.table).2 →
      (f a).SafeAmong (guarded c cfg) (Frame own) i Q s') :
    (call e >>= f).SafeAmong (guarded c cfg) (Frame own) i Q s :=
  call_safe he (free_stable hown hinj) hfree fun s a s' hfree h hgrows =>
    hstep s a s' (hfree.grows hgrows) h (table_of_guarded h).1 (table_of_guarded h).2

variable {granularity : Int} {now : Instant}

include hown hinj in
theorem serve_safe {device : DeviceRow} {found : α} {otherwise : DeviceProg (Except NotFound α)}
    (hlive : device.Live) (htenant : device.tenantId = tenant) (hid : idOf found = some device.id)
    (hother : ∀ s, Free (tenant, newId) s → Hands c cfg own i tenant user idOf otherwise s)
    (hfree : Free (tenant, newId) s) (hs : Handed c i device.key user s) :
    Hands c cfg own i tenant user idOf
      (DeviceLifecycle.serve granularity tenant device now found otherwise) s := by
  subst htenant
  unfold DeviceLifecycle.serve noteSighting
  split
  · -- no sighting is due, and the loaded level is returned
    show (if device.trustLevel ≠ .revoked then pure (.ok found) else otherwise :
      DeviceProg (Except NotFound α)).Safe _ _ _ _ s
    have hne : device.trustLevel ≠ .revoked := hlive
    rw [if_pos hne]
    exact ret_safe hid hs
  · refine call_safe trivial (Stable.and (free_stable hown hinj) handed_stable) ⟨hfree, hs⟩
      fun s level s' ⟨hfree, hs⟩ h hgrows => ?_
    obtain ⟨hlevel, htable⟩ := table_of_guarded h
    cases level with
    | error error => exact error_safe error
    | ok level =>
      dsimp only
      split
      · next hne =>
        have hname : (device.tenantId, device.id) ∈
            (DeviceCall.recordSighting device.tenantId device.id now).names (.ok level) :=
          List.mem_singleton_self _
        refine ret_safe hid ⟨⟨level, ?_, fun _ => hne⟩, fun u hu => ?_⟩
        · rw [found_of_guarded h, if_pos hname, htable]
          exact level_of_recordSighting hlevel.symm
        · obtain ⟨d, hd, howner⟩ := hs.2 u hu
          obtain ⟨d', hd', hkept⟩ := hgrows.kept _ d hd
          exact ⟨d', hd', hkept u howner⟩
      · exact hother s' (hfree.grows hgrows)

variable {claimant : UserId}

include hown hinj in
theorem claim_safe {f : OwnerClaim → DeviceProg α} {Q : α → DeviceRun ι → Prop}
    (hclaimed : ∀ s, Free (tenant, newId) s → Handed c i (tenant, id) (some claimant) s →
      (f .claimed).SafeAmong (guarded c cfg) (Frame own) i Q s)
    (hrefused : ∀ claim, claim ≠ .claimed → ∀ s, Free (tenant, newId) s →
      (f claim).SafeAmong (guarded c cfg) (Frame own) i Q s) (hfree : Free (tenant, newId) s) :
    (call (.claimOwner tenant id claimant) >>= f).SafeAmong (guarded c cfg) (Frame own) i Q s := by
  refine free_call_safe hown hinj trivial hfree fun s claim s' hfree h hclaim htable => ?_
  cases claim with
  | ownedByOther => exact hrefused .ownedByOther nofun s' hfree
  | missing => exact hrefused .missing nofun s' hfree
  | claimed =>
    obtain ⟨entry, hentry, howner, hlive⟩ := row_of_claimOwner hclaim.symm
    have hget : s'.table.get entry.key = some entry := by
      rw [htable, key_of_get hentry]
      exact hentry
    have hhanded := handed_of_row h (by rw [key_of_get hentry]; exact List.mem_singleton_self _)
      hget fun hc => hlive.elim (fun hnow => hnow) fun hbefore => h.2 hc entry hbefore howner
    rw [howner, key_of_get hentry] at hhanded
    exact hclaimed s' hfree hhanded

theorem emit_safe {v : α} (event : DeviceFirstSeen) (hv : idOf v = some id)
    (hs : Handed c i (tenant, id) user s) :
    Hands c cfg own i tenant user idOf (do
      let _ ← call (.emit event)
      pure (.ok v)) s := by
  refine call_safe trivial handed_stable hs fun s _ s' hs h hgrows => ret_safe hv ?_
  exact hs.grows hgrows (by rw [found_of_guarded h]; exact if_neg List.not_mem_nil)

theorem written_new {x : DeviceRow} (hfresh : s.table.get x.key = none)
    (h : guarded c cfg i e s a s') (htable : s'.table = s.table.write x)
    (hname : x.key ∈ e.names a) (hlive : x.Live) :
    Grows (some x.key) s.table s'.table ∧ Handed c i x.key x.userId s' := by
  rw [htable]
  refine ⟨.write hfresh, handed_of_row h hname ?_ fun _ => hlive⟩
  rw [htable, get_write_new hfresh, if_pos rfl]

variable {fingerprint : FingerprintHash}

include hown hinj in
theorem createDevice_safe (hfree : Free (tenant, newId) s) :
    Hands c cfg own i tenant user some (createDevice tenant user fingerprint now newId) s := by
  refine Prog.Safe.perform_bind _ (free_stable hown hinj) hfree fun s created s' hfree h => ?_
  obtain ⟨hcreated, htable⟩ := table_of_guarded h
  have hstep : Grows (own i) s.table s'.table ∧ Handed c i (tenant, created.id) user s' := by
    have hname : created.key ∈ (DeviceCall.createOrFind (newDevice tenant user fingerprint [] now
        newId) now).names created :=
      List.mem_cons_of_mem _ (List.mem_singleton_self _)
    rcases createOrFind_cases s.table (newDevice tenant user fingerprint [] now newId) now with
      ⟨existing, hfound, heq⟩ | ⟨-, heq⟩
    · obtain rfl : created = existing := hcreated.trans (congrArg Prod.fst heq)
      have hsame : s'.table = s.table := htable.trans (congrArg Prod.snd heq)
      obtain ⟨hmem, hshares⟩ := List.mem_filter.mp (mem_of_newestFirst hfound)
      obtain ⟨hlive, ⟨htenant, -⟩, howner⟩ := of_decide_eq_true hshares
      have hget : s'.table.get created.key = some created := by
        rw [hsame]
        exact mem_values.mp hmem
      have hhanded := handed_of_row h hname hget fun _ => hlive
      rw [howner, show created.key = (tenant, created.id) from Prod.ext htenant rfl] at hhanded
      exact ⟨hsame ▸ .refl _ _, hhanded⟩
    · obtain rfl := hcreated.trans (congrArg Prod.fst heq)
      have hfresh : s.table.get (forSave (newDevice tenant user fingerprint [] now newId) now).key =
          none := hfree
      rw [hown]
      exact written_new hfresh h (htable.trans (congrArg Prod.snd heq)) hname nofun
  refine ⟨frame_of_guarded h hstep.1, ?_⟩
  split
  · exact ret_safe rfl hstep.2
  · next hsame =>
    rw [not_not.mp hsame] at hstep
    exact emit_safe _ rfl hstep.2

include hown hinj in
theorem reuseExisting_safe (hfree : Free (tenant, newId) s) :
    Hands c cfg own i tenant user some
      (reuseExisting granularity tenant user fingerprint now newId) s := by
  refine free_call_safe hown hinj trivial hfree fun s existing s' hfree h hexisting htable => ?_
  cases existing with
  | none => exact createDevice_safe hown hinj hfree
  | some existing =>
    obtain ⟨hget, htenant, -⟩ := findByFingerprint_some hexisting.symm
    dsimp only
    split
    · next husable =>
      obtain ⟨hlive, hmine⟩ := isUsableBy_iff.mp husable
      have hhanded := handed_of_row h (List.mem_singleton_self _) (htable ▸ hget) fun _ => hlive
      have hkey : existing.key = (tenant, existing.id) := Prod.ext htenant rfl
      split
      · refine claim_safe hown hinj (fun s hfree hclaimed => ?_) (fun claim hne s hfree => ?_) hfree
        · exact serve_safe hown hinj hlive htenant rfl
            (fun _ => createDevice_safe hown hinj) hfree (hkey ▸ hclaimed)
        · cases claim with
          | claimed => exact absurd rfl hne
          | _ => exact createDevice_safe hown hinj hfree
      · next hnot =>
        refine serve_safe hown hinj hlive htenant rfl (fun _ => createDevice_safe hown hinj)
          hfree ⟨hhanded.1, ?_⟩
        rintro u rfl
        cases howner : existing.userId with
        | none => exact absurd rfl (hnot u howner)
        | some owner =>
          obtain rfl := hmine owner u howner rfl
          exact hhanded.2 owner howner
    · exact createDevice_safe hown hinj hfree

include hown hinj in
theorem ensureDevice_safe (hfree : Free (tenant, newId) s) :
    Hands c cfg own i tenant user some
      (ensureDevice granularity tenant user fingerprint now newId) s := by
  unfold ensureDevice
  cases user with
  | none => exact reuseExisting_safe hown hinj hfree
  | some owner =>
    refine free_call_safe hown hinj trivial hfree fun s found s' hfree h hfound htable => ?_
    cases found with
    | none => exact reuseExisting_safe hown hinj hfree
    | some device =>
      obtain ⟨hget, ⟨htenant, -⟩, howner⟩ := findByFingerprintForUser_some hfound.symm
      dsimp only
      split
      · next husable =>
        have hlive := (isUsableBy_iff.mp husable).1
        have hhanded := handed_of_row h (List.mem_singleton_self _) (htable ▸ hget) fun _ => hlive
        exact serve_safe hown hinj hlive htenant rfl (fun _ => reuseExisting_safe hown hinj) hfree
          (howner ▸ hhanded)
      · exact reuseExisting_safe hown hinj hfree

variable {digest : DeviceToken → FingerprintHash} {granularity : Int} {request : DeviceRequest}
  {now : Instant} {minted : DeviceToken}

abbrev resolvedId : Option ResolvedDevice → Option DeviceId := Option.map ResolvedDevice.id

variable (htenant : request.tenant = tenant)

include hown hinj htenant in
theorem createProven_safe (hfree : Free (tenant, newId) s) :
    Hands c cfg own i tenant (some claimant) resolvedId
      (createProven digest request now minted newId claimant) s := by
  subst htenant
  refine Prog.Safe.perform_bind _ (free_stable hown hinj) hfree fun s _ s' hfree h => ?_
  have hstep := written_new (x := forSave (newDevice request.tenant (some claimant)
    request.fingerprint [.cookie (digest minted) now now] now newId) now) hfree h
    (table_of_guarded h).2 (List.mem_singleton_self _) nofun
  exact ⟨frame_of_guarded h (hown ▸ hstep.1), emit_safe _ rfl hstep.2⟩

include hown hinj htenant in
theorem keepSessionDevice_safe (hfree : Free (tenant, newId) s) :
    Hands c cfg own i tenant (some claimant) resolvedId
      (keepSessionDevice digest granularity request now minted newId claimant) s := by
  unfold keepSessionDevice
  cases request.sessionDevice with
  | none => exact createProven_safe hown hinj htenant hfree
  | some id =>
    refine free_call_safe hown hinj trivial hfree fun s found s' hfree h hfound htable => ?_
    cases found with
    | none => exact createProven_safe hown hinj htenant hfree
    | some device =>
      have hkey := key_of_get hfound.symm
      dsimp only
      split
      · next hkept =>
        have hhanded := handed_of_row h (by rw [hkey]; exact List.mem_singleton_self _)
          (by rw [htable, hkey]; exact hfound.symm) fun _ => hkept.1
        rw [htenant]
        exact serve_safe hown hinj hkept.1 ((congrArg Prod.fst hkey).trans htenant) rfl
          (fun _ => createProven_safe hown hinj htenant) hfree (hkept.2 ▸ hhanded)
      · exact createProven_safe hown hinj htenant hfree

include hown hinj htenant in
theorem resolveUnproven_safe (huser : request.user = user) (hfree : Free (tenant, newId) s) :
    Hands c cfg own i tenant user resolvedId
      (resolveUnproven digest granularity request now minted newId) s := by
  subst huser
  unfold resolveUnproven
  cases huser : request.user with
  | none =>
    rintro s' - v id hv hid
    obtain rfl := Except.ok.inj hv
    cases hid
  | some claimant => exact keepSessionDevice_safe hown hinj htenant hfree

include hown hinj htenant in
theorem resolveProven_safe (huser : request.user = user) (hfree : Free (tenant, newId) s) :
    Hands c cfg own i tenant user resolvedId
      (resolveProven digest granularity request now minted newId) s := by
  subst htenant
  have hother (s : DeviceRun ι) (hfree : Free (request.tenant, newId) s) :
      Hands c cfg own i request.tenant user resolvedId
        (resolveUnproven digest granularity request now minted newId) s :=
    resolveUnproven_safe hown hinj rfl huser hfree
  unfold resolveProven
  cases request.presented with
  | none => exact hother s hfree
  | some presented =>
    refine free_call_safe hown hinj trivial hfree fun s found s' hfree h hfound htable => ?_
    cases found with
    | none => exact hother s' hfree
    | some device =>
      have hkey := key_of_get hfound.symm
      have hkey' : device.key = (request.tenant, device.id) :=
        Prod.ext (congrArg (·.1) hkey :) rfl
      dsimp only
      split
      · next hproven =>
        obtain ⟨hlive, -, husable⟩ := hproven
        obtain ⟨-, hmine⟩ := isUsableBy_iff.mp husable
        have hhanded := handed_of_row h (by rw [hkey]; exact List.mem_singleton_self _)
          (by rw [htable, hkey]; exact hfound.symm) fun _ => hlive
        have hserve (s : DeviceRun ι) (hfree : Free (request.tenant, newId) s)
            (hs : Handed c i device.key user s) :
            Hands c cfg own i request.tenant user resolvedId
              (DeviceLifecycle.serve granularity request.tenant device now (some ⟨device.id, none⟩)
              (resolveUnproven digest granularity request now minted newId)) s :=
          serve_safe hown hinj hlive (congrArg Prod.fst hkey') rfl hother hfree hs
        unfold serveProven
        cases hclaimant : request.user with
        | none =>
          obtain rfl : user = none := huser.symm.trans hclaimant
          exact ret_safe rfl (hkey' ▸ hhanded.unowned)
        | some claimant =>
          obtain rfl : user = some claimant := huser.symm.trans hclaimant
          dsimp only
          split
          · refine claim_safe hown hinj (fun s hfree hclaimed => ?_)
              (fun claim hne s hfree => ?_) hfree
            · exact hserve s hfree (hkey' ▸ hclaimed)
            · cases claim with
              | claimed => exact absurd rfl hne
              | _ => exact hother s hfree
          · next howned =>
            obtain ⟨owner, howner⟩ := Option.ne_none_iff_exists'.mp howned
            obtain rfl := hmine owner claimant howner hclaimant
            exact hserve s' hfree (howner ▸ hhanded)
      · exact hother s' hfree

end Requests

/-! ## Every interleaving -/

def OpReturned (c : Prop) (op : ι → DeviceOp) (i : ι) (r : Except NotFound (Option DeviceId))
    (s : DeviceRun ι) : Prop :=
  ∀ id, r = .ok (some id) → Handed c i ((op i).tenant, id) (op i).user s

variable {op : ι → DeviceOp} {digest : DeviceToken → FingerprintHash} {granularity : Int}

def newKeys (op : ι → DeviceOp) (i : ι) : Option DeviceKey := (op i).newKey

theorem run_safe (hinj : ∀ j key, newKeys op i = some key → newKeys op j = some key → j = i)
    (hfree : ∀ key, newKeys op i = some key → Free key s) :
    ((op i).run digest granularity).SafeAmong (guarded c cfg) (Frame (newKeys op)) i
      (OpReturned c op i) s := by
  unfold OpReturned
  cases hop : op i with
  | ensure r =>
    have hnew : newKeys op i = some (r.tenant, r.newId) := by rw [newKeys, hop]; rfl
    refine Prog.Safe.map ((ensureDevice_safe hnew hinj
      (hfree _ hnew)).conseq fun result s hs id hid => ?_)
    cases result with
    | error e => cases hid
    | ok v =>
      obtain rfl := Option.some.inj (Except.ok.inj hid)
      exact hs v v rfl rfl
  | resolve request now minted newId =>
    have hnew : newKeys op i = some (request.tenant, newId) := by rw [newKeys, hop]; rfl
    refine Prog.Safe.map ((resolveProven_safe hnew hinj rfl rfl
      (hfree _ hnew)).conseq fun result s hs id hid => ?_)
    cases result with
    | error e => cases hid
    | ok v => exact hs v id rfl (Except.ok.inj hid)
  | revoke tenant id now =>
    refine Prog.Safe.map (call_safe (K := fun _ => True) (f := Prog.ret) trivial
      (fun _ _ _ _ => trivial) trivial fun s result s' _ h _ => ?_)
    rintro s'' - id hid
    cases result with
    | error e => cases hid
    | ok v => cases hid

theorem handed_of_returned {t : DeviceTable}
    (hnew : ∀ i key, (op i).newKey = some key → t.get key = none)
    (hinj : ∀ i j key, (op i).newKey = some key → (op j).newKey = some key → j = i)
    {s : Pool ι DeviceCall DeviceCall.Answer (Except NotFound (Option DeviceId)) (DeviceRun ι)}
    (hrun : Pool.Reaches (guarded c cfg) ⟨fun i => (op i).run digest granularity, .start t⟩ s)
    {id : DeviceId} (hret : s.prog i = .ret (.ok (some id))) :
    Handed c i ((op i).tenant, id) (op i).user s.state := by
  have hsafe : Pool.AllSafe (guarded c cfg) (Frame (newKeys op)) (OpReturned c op)
      (⟨fun i => (op i).run digest granularity, .start t⟩ : Pool ι DeviceCall DeviceCall.Answer
        (Except NotFound (Option DeviceId)) (DeviceRun ι)) :=
    fun i => run_safe (fun j key => hinj i j key) fun key hkey => hnew i key hkey
  exact hrun.post hsafe hret id rfl

end DeviceRun

/-- The devices that requests create have ids of their own. Then the device that a request returns is
the user's, in every run; and in every run in which no claim finds a revoked device that is already
the claimant's, it was not revoked when the request last named it. -/
theorem revoked_device_is_not_handed_out {ι : Type} [DecidableEq ι] {cfg : SweepConfig}
    {op : ι → DeviceOp} {digest : DeviceToken → FingerprintHash} {granularity : Int}
    {t : DeviceTable} (hnew : ∀ i key, (op i).newKey = some key → t.get key = none)
    (hinj : ∀ i j key, (op i).newKey = some key → (op j).newKey = some key → j = i) :
    (∀ s, Pool.Reaches (DeviceRun.guarded True cfg)
        ⟨fun i => (op i).run digest granularity, .start t⟩ s →
      ∀ i id, s.prog i = .ret (.ok (some id)) →
        ∃ level, s.state.found i ((op i).tenant, id) = some level ∧ level ≠ .revoked) ∧
    ∀ s, Pool.Reaches (DeviceRun.sem cfg) ⟨fun i => (op i).run digest granularity, .start t⟩ s →
      ∀ i id u, s.prog i = .ret (.ok (some id)) → (op i).user = some u →
        ∃ d, s.state.table.get ((op i).tenant, id) = some d ∧ d.userId = some u := by
  constructor
  · intro s hrun i id hret
    obtain ⟨level, hfound, hlive⟩ := (DeviceRun.handed_of_returned hnew hinj hrun hret).1
    exact ⟨level, hfound, hlive trivial⟩
  · intro s hrun i id u hret huser
    have hguarded : Pool.Reaches (DeviceRun.guarded False cfg)
        ⟨fun i => (op i).run digest granularity, .start t⟩ s := by
      refine Relation.ReflTransGen.mono (fun _ _ hstep => ?_) _ _ hrun
      cases hstep with
      | call i hprog hX => exact .call i hprog ⟨hX, False.elim⟩
    exact (DeviceRun.handed_of_returned hnew hinj hguarded hret).2 u huser

namespace ClaimedTwice

def fingerprint : FingerprintHash := ⟨40⟩

def op : Fin 4 → DeviceOp
  | 0 => .ensure ⟨⟨1⟩, none, fingerprint, 0, ⟨10⟩⟩
  | 1 => .ensure ⟨⟨1⟩, some ⟨7⟩, fingerprint, 0, ⟨11⟩⟩
  | 2 => .ensure ⟨⟨1⟩, some ⟨7⟩, fingerprint, 0, ⟨12⟩⟩
  | 3 => .revoke ⟨1⟩ ⟨10⟩ 0

def cfg : SweepConfig := ⟨0, 0, 0⟩

abbrev Requests := Pool (Fin 4) DeviceCall DeviceCall.Answer (Except NotFound (Option DeviceId))
  (DeviceRun (Fin 4))

def start : Requests := ⟨fun i => (op i).run (fun token => ⟨token.bytes⟩) (300 * second), .start .empty⟩

def answering : Pool.Answerer (Fin 4) Unit DeviceCall DeviceCall.Answer (DeviceRun (Fin 4)) :=
  fun i _ e s =>
    let answered := e.handle cfg s.table
    (answered.1, ⟨answered.2, s.note i (e.names answered.1) answered.2⟩)

theorem sem_answering (i : Fin 4) (x : Unit) (e : DeviceCall) (s : DeviceRun (Fin 4)) :
    DeviceRun.sem cfg i e s (answering i x e s).1 (answering i x e s).2 :=
  ⟨rfl, rfl⟩

/-- The second request has found the device unowned; then the first claims it. -/
def claimed : List (Fin 4 × Unit) := Pool.turns [(3, 0, ()), (2, 2, ()), (3, 1, ())]

def late : List (Fin 4 × Unit) := claimed ++ Pool.turns [(1, 2, ()), (1, 3, ())]

def between : List (Fin 4 × Unit) := claimed ++ Pool.turns [(1, 3, ()), (1, 2, ())]

def admitted (_ : Fin 4) (_ : Unit) (e : DeviceCall) (s : DeviceRun (Fin 4)) : Bool :=
  match e with
  | .claimOwner tenant id user => (s.table.get (tenant, id)).all fun entry =>
    entry.userId ≠ some user || entry.Live
  | _ => true

theorem guarded_of_admitted (i : Fin 4) (x : Unit) (e : DeviceCall) (s : DeviceRun (Fin 4))
    (h : admitted i x e s = true) :
    DeviceRun.guarded True cfg i e s (answering i x e s).1 (answering i x e s).2 := by
  refine ⟨sem_answering i x e s, fun _ => ?_⟩
  cases e with
  | claimOwner tenant id user =>
    intro entry hentry howner
    simp only [admitted, hentry, Option.all_some] at h
    simpa [howner] using h
  | _ => trivial

theorem newKey_injective (i j : Fin 4) (key : DeviceKey) (hi : (op i).newKey = some key)
    (hj : (op j).newKey = some key) : j = i := by
  have hkeys : ∀ i j, (op i).newKey = (op j).newKey → (op i).newKey ≠ none → j = i := by decide
  exact hkeys i j (hi.trans hj.symm) (by rw [hi]; nofun)

end ClaimedTwice

open ClaimedTwice in
/-- The second request claims a live device that is its user's already. -/
theorem live_device_is_handed_out :
    (Pool.replay answering late start).prog 2 = .ret (.ok (some ⟨10⟩)) ∧
    ∃ level, (Pool.replay answering late start).state.found 2 (⟨1⟩, ⟨10⟩) = some level ∧
      level ≠ .revoked := by
  have hret : (Pool.replay answering late start).prog 2 = .ret (.ok (some ⟨10⟩)) :=
    Prog.eq_ret_of_returned (by decide +kernel)
  exact ⟨hret, (revoked_device_is_not_handed_out (fun _ _ _ => rfl) newKey_injective).1 _
    (Pool.reaches_replay_of_admits guarded_of_admitted late start (by decide +kernel)) 2 ⟨10⟩ hret⟩

open ClaimedTwice in
/-- The claim of the second request, its last call, is answered for a revoked device. -/
theorem revoked_device_handed_out :
    ∃ s, Pool.Reaches (DeviceRun.sem cfg) start s ∧ s.prog 2 = .ret (.ok (some ⟨10⟩)) ∧
      s.state.found 2 (⟨1⟩, ⟨10⟩) = some .revoked :=
  ⟨Pool.replay answering between start, Pool.reaches_replay sem_answering between start,
    Prog.eq_ret_of_returned (by decide +kernel), by decide +kernel⟩

end Axess
