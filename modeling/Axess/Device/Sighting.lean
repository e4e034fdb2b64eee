import Axess.Device.Lifecycle

/-!
# A device in use stays sighted

A request that is served a device it has looked up records a sighting of it, if one is due. A request
that goes on to create a device does not when it finds one: the row is taken to be new. It need not
be. The lookups only see the row that comes first among those with the fingerprint, and a revoked row
may come first.
-/

namespace Axess

open Calls DeviceTable DeviceLifecycle

namespace DeviceTable

variable {t : DeviceTable} {d x c : DeviceRow} {p : DeviceRow → Prop} [DecidablePred p]
  {tenant : TenantId} {hash : FingerprintHash}

def First (p : DeviceRow → Prop) (d : DeviceRow) (t : DeviceTable) : Prop :=
  d ∈ t.values ∧ p d ∧ ∀ x ∈ t.values, p x → d.rank ≤ x.rank

theorem id_of_rank (h : d.rank = x.rank) : d.id = x.id := by
  have hid : d.id.uuid = x.id.uuid := congrArg (fun r => (ofLex r).2) h
  exact congrArg DeviceId.mk hid

theorem newestFirst_id_congr {rows rows' : List DeviceRow}
    (h : ∀ r, (∃ d ∈ rows, d.rank = r) ↔ ∃ d ∈ rows', d.rank = r) :
    (newestFirst rows).map DeviceRow.id = (newestFirst rows').map DeviceRow.id := by
  cases hrows : newestFirst rows with
  | none =>
    obtain rfl := newestFirst_eq_none.mp hrows
    cases hrows' : newestFirst rows' with
    | none => rfl
    | some e =>
      obtain ⟨d, hd, -⟩ := (h e.rank).mpr ⟨e, mem_of_newestFirst hrows', rfl⟩
      cases hd
  | some d =>
    obtain ⟨y, hy, hrank⟩ := (h d.rank).mp ⟨d, mem_of_newestFirst hrows, rfl⟩
    cases hrows' : newestFirst rows' with
    | none =>
      rw [newestFirst_eq_none.mp hrows'] at hy
      cases hy
    | some e =>
      obtain ⟨z, hz, hrank'⟩ := (h e.rank).mpr ⟨e, mem_of_newestFirst hrows', rfl⟩
      have hle : e.rank ≤ d.rank := hrank ▸ List.le_of_mem_argmin hy hrows'
      have hge : d.rank ≤ e.rank := hrank' ▸ List.le_of_mem_argmin hz hrows
      exact congrArg some (id_of_rank (le_antisymm hge hle))

theorem first_of_newestFirst (h : newestFirst (t.values.filter p) = some d) : t.First p d := by
  obtain ⟨hmem, hp⟩ := List.mem_filter.mp (mem_of_newestFirst h)
  refine ⟨hmem, of_decide_eq_true hp, fun x hx hpx => ?_⟩
  exact List.le_of_mem_argmin (List.mem_filter.mpr ⟨hx, decide_eq_true hpx⟩) h

theorem newestFirst_eq_some_iff (hp : ∀ d, p d → d.tenantId = tenant) :
    newestFirst (t.values.filter p) = some d ↔ t.First p d := by
  refine ⟨first_of_newestFirst, fun hfirst => ?_⟩
  cases hfound : newestFirst (t.values.filter p) with
  | none =>
    have hmem : d ∈ t.values.filter p := List.mem_filter.mpr ⟨hfirst.1, decide_eq_true hfirst.2.1⟩
    rw [newestFirst_eq_none.mp hfound] at hmem
    cases hmem
  | some e =>
    have hfirst' := first_of_newestFirst hfound
    have hrank : e.rank = d.rank :=
      le_antisymm (hfirst'.2.2 d hfirst.1 hfirst.2.1) (hfirst.2.2 e hfirst'.1 hfirst'.2.1)
    have hkey : e.key = d.key :=
      Prod.ext ((hp e hfirst'.2.1).trans (hp d hfirst.2.1).symm) (id_of_rank hrank)
    rw [eq_of_key hfirst'.1 hfirst.1 hkey]

/-! ## The index is settled -/

def Settled (t : DeviceTable) : Prop :=
  ∀ tenant hash, t.fingerprintIndex.lookup (tenant, hash) =
    (newestFirst (t.values.filter (·.Carries tenant hash))).map DeviceRow.id

theorem lookup_settleFingerprint {key : TenantId × FingerprintHash} :
    (t.settleFingerprint tenant hash).fingerprintIndex.lookup key =
      if key = (tenant, hash) then
        (newestFirst (t.values.filter (·.Carries tenant hash))).map DeviceRow.id
      else t.fingerprintIndex.lookup key := by
  unfold settleFingerprint
  by_cases hkey : key = (tenant, hash)
  · subst hkey
    rw [if_pos rfl]
    cases newestFirst (t.values.filter (·.Carries tenant hash)) with
    | none => exact AList.lookup_erase _ _
    | some best => exact AList.lookup_insert _
  · rw [if_neg hkey]
    cases newestFirst (t.values.filter (·.Carries tenant hash)) with
    | none => exact AList.lookup_erase_ne hkey
    | some best => exact AList.lookup_insert_ne hkey

def SettledBut (keys : List (TenantId × FingerprintHash)) (t : DeviceTable) : Prop :=
  ∀ tenant hash, (tenant, hash) ∉ keys → t.fingerprintIndex.lookup (tenant, hash) =
    (newestFirst (t.values.filter (·.Carries tenant hash))).map DeviceRow.id

theorem SettledBut.settle {keys : List (TenantId × FingerprintHash)}
    (h : t.SettledBut ((tenant, hash) :: keys)) :
    (t.settleFingerprint tenant hash).SettledBut keys := by
  intro tenant' hash' hnot
  rw [lookup_settleFingerprint]
  by_cases hkey : (tenant', hash') = (tenant, hash)
  · rw [if_pos hkey]
    obtain ⟨rfl, rfl⟩ := Prod.mk.inj hkey
    rfl
  · rw [if_neg hkey]
    exact h tenant' hash' fun hin => (List.mem_cons.mp hin).elim hkey hnot

theorem SettledBut.settled (h : t.SettledBut []) : t.Settled :=
  fun tenant hash => h tenant hash List.not_mem_nil

theorem Settled.put (h : t.Settled) {keys : List (TenantId × FingerprintHash)}
    (hnew : (x.tenantId, x.fingerprintHash) ∈ keys)
    (hold : ∀ d, t.get x.key = some d → (x.tenantId, d.fingerprintHash) ∈ keys) :
    (t.put x).SettledBut keys := by
  intro tenant hash hnot
  refine (h tenant hash).trans (newestFirst_id_congr fun r => ?_)
  have hsame (d : DeviceRow) (hd : d.Carries tenant hash) :
      d ∈ (t.put x).values ↔ d ∈ t.values := by
    rw [mem_values_put]
    constructor
    · rintro (rfl | ⟨hmem, -⟩)
      · exact absurd (hd.1 ▸ hd.2 ▸ hnew) hnot
      · exact hmem
    · intro hmem
      refine .inr ⟨hmem, fun hkey => hnot ?_⟩
      have htenant : d.tenantId = x.tenantId := congrArg Prod.fst hkey
      rw [← hd.1, ← hd.2, htenant]
      exact hold d (hkey ▸ mem_values.mp hmem)
  constructor
  · rintro ⟨d, hd, hr⟩
    obtain ⟨hmem, hcarries⟩ := List.mem_filter.mp hd
    exact ⟨d, List.mem_filter.mpr ⟨(hsame d (of_decide_eq_true hcarries)).mpr hmem, hcarries⟩, hr⟩
  · rintro ⟨d, hd, hr⟩
    obtain ⟨hmem, hcarries⟩ := List.mem_filter.mp hd
    exact ⟨d, List.mem_filter.mpr ⟨(hsame d (of_decide_eq_true hcarries)).mp hmem, hcarries⟩, hr⟩

theorem Settled.put_same {entry : DeviceRow} (h : t.Settled) (hentry : t.get entry.key = some entry)
    (hxkey : x.key = entry.key) (hrank : x.rank = entry.rank)
    (hhash : x.fingerprintHash = entry.fingerprintHash) : (t.put x).Settled := by
  have hkey : entry.key = x.key := hxkey.symm
  have hcarries (tenant : TenantId) (hash : FingerprintHash) :
      x.Carries tenant hash ↔ entry.Carries tenant hash := by
    unfold DeviceRow.Carries
    rw [hhash, show entry.tenantId = x.tenantId from congrArg Prod.fst hkey]
  intro tenant hash
  refine (h tenant hash).trans (newestFirst_id_congr fun r => ?_)
  simp only [List.mem_filter, decide_eq_true_eq]
  constructor
  · rintro ⟨d, ⟨hmem, hd⟩, rfl⟩
    by_cases hsame : d.key = x.key
    · obtain rfl := eq_of_key hmem (mem_of_get hentry) (hsame.trans hkey.symm)
      exact ⟨x, ⟨mem_values_put.mpr (.inl rfl), (hcarries tenant hash).mpr hd⟩, hrank⟩
    · exact ⟨d, ⟨mem_values_put.mpr (.inr ⟨hmem, hsame⟩), hd⟩, rfl⟩
  · rintro ⟨d, ⟨hmem, hd⟩, rfl⟩
    rcases mem_values_put.mp hmem with rfl | ⟨hmem, -⟩
    · exact ⟨entry, ⟨mem_of_get hentry, (hcarries tenant hash).mp hd⟩, hrank.symm⟩
    · exact ⟨d, ⟨hmem, hd⟩, rfl⟩

theorem Settled.remove (h : t.Settled) (hx : t.get x.key = some x) :
    ((t.remove x.key).settleFingerprint x.tenantId x.fingerprintHash).Settled := by
  have hmem (d : DeviceRow) : d ∈ (t.remove x.key).values ↔ d ∈ t.values ∧ d.key ≠ x.key := by
    rw [mem_values, mem_values, get_remove]
    by_cases hkey : d.key = x.key
    · simp [hkey]
    · simp [hkey]
  refine SettledBut.settled (SettledBut.settle fun tenant hash hnot => ?_)
  refine (h tenant hash).trans (newestFirst_id_congr fun r => ?_)
  simp only [List.mem_filter, decide_eq_true_eq]
  constructor
  · rintro ⟨d, ⟨hd, hcarries⟩, rfl⟩
    refine ⟨d, ⟨(hmem d).mpr ⟨hd, fun hkey => hnot ?_⟩, hcarries⟩, rfl⟩
    obtain rfl := eq_of_key hd (mem_of_get hx) hkey
    rw [← hcarries.1, ← hcarries.2]
    exact List.mem_singleton_self _
  · rintro ⟨d, ⟨hd, hcarries⟩, rfl⟩
    exact ⟨d, ⟨((hmem d).mp hd).1, hcarries⟩, rfl⟩

theorem Settled.write (h : t.Settled) (device : DeviceRow) : (t.write device).Settled := by
  unfold DeviceTable.write
  cases hstored : t.get device.key with
  | none =>
    refine SettledBut.settled (SettledBut.settle (h.put (List.mem_singleton_self _) ?_))
    intro d hd
    rw [hstored] at hd
    cases hd
  | some stored =>
    have hold (d : DeviceRow) (hd : t.get device.key = some d) : d = stored :=
      Option.some.inj (hd.symm.trans hstored)
    dsimp only
    split
    · exact h
    · split
      · refine SettledBut.settled (SettledBut.settle (SettledBut.settle (h.put ?_ ?_)))
        · exact List.mem_cons_of_mem _ (List.mem_singleton_self _)
        · intro d hd
          rw [hold d hd]
          exact List.mem_cons_self
      · next hsame =>
        refine SettledBut.settled (SettledBut.settle (h.put (List.mem_singleton_self _) ?_))
        intro d hd
        rw [hold d hd, not_not.mp hsame]
        exact List.mem_singleton_self _

theorem Settled.recordSighting (h : t.Settled) (tenant : TenantId) (id : DeviceId)
    (now : Instant) : (t.recordSighting tenant id now).2.Settled := by
  rcases recordSighting_cases t tenant id now with
    ⟨-, heq⟩ | ⟨entry, hentry, ⟨-, -, heq⟩ | ⟨-, heq⟩⟩
  · rw [heq]
    exact h
  · rw [heq]
    have hkey := key_of_get hentry
    obtain rfl : entry.tenantId = tenant := congrArg Prod.fst hkey
    refine SettledBut.settled (SettledBut.settle (h.put (List.mem_singleton_self _) ?_))
    intro d hd
    obtain rfl : d = entry := Option.some.inj (hd.symm.trans (hkey ▸ hentry))
    exact List.mem_singleton_self _
  · rw [heq]
    exact h

theorem get_of_get {key : DeviceKey} (h : t.get key = some d) : t.get d.key = some d :=
  mem_values.mp (mem_of_get h)

theorem Settled.claimOwner (h : t.Settled) (tenant : TenantId) (id : DeviceId) (user : UserId) :
    (t.claimOwner tenant id user).2.Settled := by
  rcases claimOwner_cases t tenant id user with
    ⟨-, heq⟩ | ⟨entry, hentry, heq | ⟨-, heq⟩ | ⟨-, -, heq⟩⟩
  · rw [heq]
    exact h
  · rw [heq]
    exact h
  · rw [heq]
    exact h
  · rw [heq]
    exact h.put_same (x := { entry with userId := some user }) (get_of_get hentry) rfl rfl rfl

theorem stampRevoked_demote (cfg : SweepConfig) (entry : DeviceRow) (now : Instant) :
    let swept := stampRevoked (demote cfg entry now).1 now
    swept.key = entry.key ∧ swept.rank = entry.rank ∧
      swept.fingerprintHash = entry.fingerprintHash := by
  unfold stampRevoked demote
  split <;> split <;> exact ⟨rfl, rfl, rfl⟩

theorem Settled.sweepRow (h : t.Settled) (cfg : SweepConfig) (key : DeviceKey) (now : Instant) :
    (t.sweepRow cfg key now).2.Settled := by
  unfold DeviceTable.sweepRow
  cases hentry : t.get key with
  | none => exact h
  | some entry =>
    obtain ⟨hkey, hrank, hhash⟩ := stampRevoked_demote cfg entry (wholeSecond now)
    generalize hswept : stampRevoked (demote cfg entry (wholeSecond now)).1 (wholeSecond now) =
      swept at hkey hrank hhash
    have hput : (t.put swept).Settled := h.put_same (get_of_get hentry) hkey hrank hhash
    dsimp only
    rw [hswept]
    split
    · rw [show key = swept.key from (key_of_get hentry).symm.trans hkey.symm]
      exact hput.remove (by rw [get_put, if_pos rfl])
    · exact hput

theorem Settled.handle (h : t.Settled) (cfg : SweepConfig) (e : DeviceCall) :
    (e.handle cfg t).2.Settled := by
  cases e with
  | save device now => exact h.write (forSave device now)
  | createOrFind device now =>
    rcases createOrFind_cases t device now with ⟨existing, -, heq⟩ | ⟨-, heq⟩
    · rw [show DeviceCall.handle cfg (.createOrFind device now) t = _ from heq]
      exact h
    · rw [show DeviceCall.handle cfg (.createOrFind device now) t = _ from heq]
      exact h.write (forSave device now)
  | recordSighting tenant id now => exact h.recordSighting tenant id now
  | setTrustLevel tenant id level now =>
    show (t.setTrustLevel tenant id level now).2.Settled
    unfold DeviceTable.setTrustLevel
    cases hentry : t.get (tenant, id) with
    | none => exact h
    | some entry =>
      exact h.put_same (x := applyTrustLevel entry level now) (get_of_get hentry) rfl rfl rfl
  | setTrustLevelIf tenant id expected level now =>
    show (t.setTrustLevelIf tenant id expected level now).2.Settled
    unfold DeviceTable.setTrustLevelIf
    cases hentry : t.get (tenant, id) with
    | none => exact h
    | some entry =>
      dsimp only
      split
      · exact h
      · exact h.put_same (x := applyTrustLevel entry level now) (get_of_get hentry) rfl rfl rfl
  | claimOwner tenant id user => exact h.claimOwner tenant id user
  | sweepRow key now => exact h.sweepRow cfg key now
  | _ => exact h

theorem settled_empty : empty.Settled := fun _ _ => rfl

theorem Settled.findByFingerprint (h : t.Settled) (tenant : TenantId) (hash : FingerprintHash) :
    t.findByFingerprint tenant hash = newestFirst (t.values.filter (·.Carries tenant hash)) := by
  unfold DeviceTable.findByFingerprint
  rw [h tenant hash]
  cases hfound : newestFirst (t.values.filter (·.Carries tenant hash)) with
  | none => rfl
  | some best =>
    obtain ⟨hmem, hcarries⟩ := List.mem_filter.mp (mem_of_newestFirst hfound)
    obtain ⟨htenant, hhash⟩ := of_decide_eq_true hcarries
    have hget : t.get (tenant, best.id) = some best := htenant ▸ mem_values.mp hmem
    show (t.get (tenant, best.id)).filter (·.fingerprintHash = hash) = some best
    rw [hget, Option.filter_some, decide_eq_true hhash]
    rfl

end DeviceTable

inductive DeviceEvent where
  | ensure (tenant : TenantId) (user : Option UserId) (fingerprint : FingerprintHash)
      (newId : DeviceId)
  | promote (tenant : TenantId) (id : DeviceId)
  | revoke (tenant : TenantId) (id : DeviceId)
  | sweep (tenant : TenantId)

def DeviceEvent.run (granularity : Int) (now : Instant) : DeviceEvent → DeviceProg Unit
  | ensure tenant user fingerprint newId => (fun _ => ()) <$>
    ensureDevice granularity tenant user fingerprint now newId
  | promote tenant id => (fun _ => ()) <$> promoteOnAuthn tenant id now
  | revoke tenant id => (fun _ => ()) <$> DeviceLifecycle.revoke tenant id now
  | sweep tenant => (fun _ => ()) <$> DeviceLifecycle.sweep tenant now

namespace DeviceTable

def afterEvents (cfg : SweepConfig) (granularity : Int) (history : List (Instant × DeviceEvent)) :
    DeviceTable :=
  history.foldl (fun t event => ((event.2.run granularity event.1).eval (DeviceCall.handle cfg) t).2)
    empty

theorem settled_afterEvents (cfg : SweepConfig) (granularity : Int)
    (history : List (Instant × DeviceEvent)) : (afterEvents cfg granularity history).Settled := by
  have hfold : ∀ t : DeviceTable, t.Settled → (history.foldl (fun t event =>
      ((event.2.run granularity event.1).eval (DeviceCall.handle cfg) t).2) t).Settled := by
    induction history with
    | nil => exact fun _ ht => ht
    | cons event history ih =>
      intro t ht
      exact ih _ (Prog.eval_invariant _ (fun e _ h => h.handle cfg e) _ ht)
  exact hfold empty settled_empty

/-! ## One request -/

def Sighted (granularity : Int) (now : Instant) (key : DeviceKey) (t : DeviceTable) : Prop :=
  ∃ d, t.get key = some d ∧ now - d.lastSeenAt ≤ granularity + second

/-- Neither lookup finds a device that the caller may use: the first of the user's own rows is
revoked, and the first row with the fingerprint is revoked or another's. -/
def Hidden (tenant : TenantId) (user : Option UserId) (hash : FingerprintHash) (t : DeviceTable) :
    Prop :=
  (∀ u d, user = some u → t.First (fun d => d.Carries tenant hash ∧ d.userId = some u) d →
    ¬d.Live) ∧
  ∀ d, t.First (·.Carries tenant hash) d → isUsableBy d user = false

variable {cfg : SweepConfig} {granularity : Int} {t : DeviceTable} {tenant : TenantId}
  {user : Option UserId} {hash : FingerprintHash} {now : Instant} {newId : DeviceId}

theorem call_eval {α : Type} {e : DeviceCall} {a : e.Answer} {t' : DeviceTable}
    (h : e.handle cfg t = (a, t')) (f : e.Answer → DeviceProg α) :
    (call e >>= f).eval (DeviceCall.handle cfg) t =
      (f a).eval (DeviceCall.handle cfg) t' := by
  rw [Prog.eval_bind, call, Prog.eval_perform, h]

theorem sub_le_of_recent {now seen granularity : Int} (hg : 0 ≤ granularity)
    (h : now ≤ seen ∨ now - seen < granularity) : now - seen ≤ granularity + second := by
  have hsecond : (0 : Int) < second := by decide
  omega

theorem sub_le_of_wholeSecond {now seen granularity : Int} (hg : 0 ≤ granularity)
    (h : wholeSecond now ≤ seen) : now - seen ≤ granularity + second := by
  have hle : now / 1000000000 * 1000000000 ≤ seen := h
  show now - seen ≤ granularity + 1000000000
  omega

theorem serve_eval {α : Type} {device : DeviceRow} {found : α} {level : DeviceTrustLevel}
    {otherwise : DeviceProg (Except NotFound α)} {t' : DeviceTable}
    (hnote : (noteSighting granularity tenant device now).eval
      (DeviceCall.handle cfg) t = (.ok level, t')) (hlevel : level ≠ .revoked) :
    (serve granularity tenant device now found otherwise).eval
      (DeviceCall.handle cfg) t = (.ok found, t') := by
  unfold serve
  rw [Prog.eval_bind, hnote]
  show (if level ≠ .revoked then pure (.ok found) else otherwise :
    DeviceProg (Except NotFound α)).eval _ _ = _
  rw [if_pos hlevel]
  rfl

theorem serve_sighted {α : Type} {device row : DeviceRow} {found : α}
    {otherwise : DeviceProg (Except NotFound α)} (hg : 0 ≤ granularity)
    (hrow : t.get (tenant, device.id) = some row) (hseen : row.lastSeenAt = device.lastSeenAt)
    (hlevel : row.Live) (hlive : device.Live) :
    ∃ t', (serve granularity tenant device now found otherwise).eval
        (DeviceCall.handle cfg) t = (.ok found, t') ∧
      t'.Sighted granularity now (tenant, device.id) := by
  by_cases hrecent : now ≤ device.lastSeenAt ∨ now - device.lastSeenAt < granularity
  · have hnote : (noteSighting granularity tenant device now).eval
        (DeviceCall.handle cfg) t = (.ok device.trustLevel, t) := by
      rw [noteSighting, if_pos hrecent]
      rfl
    exact ⟨t, serve_eval hnote hlive, row, hrow, hseen ▸ sub_le_of_recent hg hrecent⟩
  · have hnote : (noteSighting granularity tenant device now).eval
        (DeviceCall.handle cfg) t = t.recordSighting tenant device.id now := by
      rw [noteSighting, if_neg hrecent]
      rfl
    rcases recordSighting_cases t tenant device.id now with
      ⟨hnone, -⟩ | ⟨entry, hentry, ⟨-, -, heq⟩ | ⟨hnot, heq⟩⟩
    · rw [hrow] at hnone
      cases hnone
    · obtain rfl := Option.some.inj (hrow.symm.trans hentry)
      have hkey : (tenant, device.id) = ({ row with lastSeenAt := wholeSecond now } : DeviceRow).key :=
        (key_of_get hrow).symm
      refine ⟨_, serve_eval (hnote.trans heq) hlevel, { row with lastSeenAt := wholeSecond now }, ?_,
        sub_le_of_wholeSecond hg le_rfl⟩
      rw [get_settleFingerprint, get_put, if_pos hkey]
    · obtain rfl := Option.some.inj (hrow.symm.trans hentry)
      have hle : wholeSecond now ≤ row.lastSeenAt := not_lt.mp fun hlt => hnot ⟨hlevel, hlt⟩
      exact ⟨t, serve_eval (hnote.trans heq) hlevel, row, hrow, sub_le_of_wholeSecond hg hle⟩

theorem createDevice_eval (cfg : SweepConfig) (hnew : t.get (tenant, newId) = none) :
    (∃ c, t.First (·.SharesCreateKey tenant hash user) c ∧
      (createDevice tenant user hash now newId).eval (DeviceCall.handle cfg) t =
        (.ok c.id, t)) ∨
    (∀ c ∈ t.values, ¬c.SharesCreateKey tenant hash user) ∧
      ∃ t', (createDevice tenant user hash now newId).eval
          (DeviceCall.handle cfg) t = (.ok newId, t') ∧
        t'.get (tenant, newId) =
          some (forSave (newDevice tenant user hash [] now newId) now) := by
  have heval (answered : DeviceRow × DeviceTable)
      (heq : t.createOrFind (newDevice tenant user hash [] now newId) now =
        answered) :
      (createDevice tenant user hash now newId).eval (DeviceCall.handle cfg) t =
        (.ok answered.1.id, answered.2) := by
    unfold createDevice
    rw [call_eval (e := .createOrFind _ now) heq]
    split
    · rfl
    · next hsame =>
      rw [not_not.mp hsame]
      rfl
  rcases createOrFind_cases t (newDevice tenant user hash [] now newId) now with
    ⟨c, hfound, heq⟩ | ⟨hnone, heq⟩
  · exact .inl ⟨c, first_of_newestFirst hfound, heval _ heq⟩
  · have hfresh : t.get (forSave (newDevice tenant user hash [] now newId) now).key =
        none := hnew
    refine .inr ⟨hnone, _, heval _ heq, ?_⟩
    rw [get_write, hfresh]
    exact if_pos rfl

theorem reuseExisting_of_hidden (granularity : Int) (hsettled : t.Settled)
    (h : ∀ d, t.First (·.Carries tenant hash) d → isUsableBy d user = false) :
    (reuseExisting granularity tenant user hash now newId).eval
        (DeviceCall.handle cfg) t =
      (createDevice tenant user hash now newId).eval (DeviceCall.handle cfg) t := by
  unfold reuseExisting
  rw [call_eval (e := .findByFingerprint tenant hash)
    (congrArg (·, t) (hsettled.findByFingerprint tenant hash))]
  cases hfound : newestFirst (t.values.filter (·.Carries tenant hash)) with
  | none => rfl
  | some existing =>
    dsimp only
    rw [if_neg (by rw [h existing (first_of_newestFirst hfound)]; nofun)]

theorem ensureDevice_of_hidden (hsettled : t.Settled) (h : t.Hidden tenant user hash) :
    (ensureDevice granularity tenant user hash now newId).eval
        (DeviceCall.handle cfg) t =
      (createDevice tenant user hash now newId).eval (DeviceCall.handle cfg) t := by
  cases user with
  | none => exact reuseExisting_of_hidden granularity hsettled h.2
  | some owner =>
    refine Eq.trans ?_ (reuseExisting_of_hidden granularity hsettled h.2)
    unfold ensureDevice
    dsimp only
    rw [call_eval (e := .findByFingerprintForUser tenant owner hash) rfl]
    cases hfound : t.findByFingerprintForUser tenant owner hash with
    | none => rfl
    | some own =>
      have hrevoked := h.1 owner own rfl (first_of_newestFirst hfound)
      dsimp only
      rw [if_neg fun husable => hrevoked (isUsableBy_iff.mp husable).1]

theorem claimOwner_eq {d : DeviceRow} {claimant : UserId} (hget : t.get (tenant, d.id) = some d)
    (howner : d.userId = none) (hlive : d.Live) :
    t.claimOwner tenant d.id claimant = (.claimed, t.put { d with userId := some claimant }) := by
  have hne : d.trustLevel ≠ .revoked := hlive
  unfold DeviceTable.claimOwner
  simp [hget, howner, hne]

theorem reuseExisting_sighted {d : DeviceRow} (hg : 0 ≤ granularity)
    (hfound : t.findByFingerprint tenant hash = some d) (husable : isUsableBy d user = true) :
    ∃ id t', (reuseExisting granularity tenant user hash now newId).eval
        (DeviceCall.handle cfg) t = (.ok id, t') ∧
      t'.Sighted granularity now (tenant, id) := by
  obtain ⟨hget, htenant, -⟩ := findByFingerprint_some hfound
  obtain ⟨hlive, -⟩ := isUsableBy_iff.mp husable
  have hrow : t.get (tenant, d.id) = some d := htenant ▸ hget
  refine ⟨d.id, ?_⟩
  unfold reuseExisting
  rw [call_eval (e := .findByFingerprint tenant hash) (congrArg (·, t) hfound)]
  dsimp only
  rw [if_pos husable]
  split
  · next claimant howner =>
    rw [call_eval (e := .claimOwner tenant d.id claimant) (claimOwner_eq hrow howner hlive)]
    have hkey : (tenant, d.id) = ({ d with userId := some claimant } : DeviceRow).key :=
      Prod.ext htenant.symm rfl
    have hclaimed : (t.put { d with userId := some claimant }).get (tenant, d.id) =
        some { d with userId := some claimant } := by
      rw [get_put, if_pos hkey]
    exact serve_sighted hg hclaimed rfl hlive hlive
  · exact serve_sighted hg hrow rfl hlive hlive

theorem ensureDevice_sighted (cfg : SweepConfig) (hg : 0 ≤ granularity) (hsettled : t.Settled)
    (h : ¬t.Hidden tenant user hash) :
    ∃ id t', (ensureDevice granularity tenant user hash now newId).eval
        (DeviceCall.handle cfg) t = (.ok id, t') ∧
      t'.Sighted granularity now (tenant, id) := by
  have hreuse (hnot : ¬∀ d, t.First (·.Carries tenant hash) d → isUsableBy d user = false) :
      ∃ id t', (reuseExisting granularity tenant user hash now newId).eval
          (DeviceCall.handle cfg) t = (.ok id, t') ∧
        t'.Sighted granularity now (tenant, id) := by
    push Not at hnot
    obtain ⟨d, hfirst, husable⟩ := hnot
    have hfound : t.findByFingerprint tenant hash = some d := by
      rw [hsettled.findByFingerprint]
      exact (newestFirst_eq_some_iff fun _ hd => hd.1).mpr hfirst
    exact reuseExisting_sighted hg hfound (by simpa using husable)
  cases user with
  | none => exact hreuse fun hnone => h ⟨(fun _ _ hu => nomatch hu), hnone⟩
  | some owner =>
    unfold ensureDevice
    dsimp only
    rw [call_eval (e := .findByFingerprintForUser tenant owner hash) rfl]
    cases hfound : t.findByFingerprintForUser tenant owner hash with
    | none =>
      refine hreuse fun hnone => h ⟨fun u d hu hfirst => ?_, hnone⟩
      obtain rfl := Option.some.inj hu
      have hsome := (newestFirst_eq_some_iff fun _ hd => hd.1.1).mpr hfirst
      rw [show newestFirst _ = none from hfound] at hsome
      cases hsome
    | some own =>
      obtain ⟨hget, ⟨htenant, -⟩, howner⟩ := findByFingerprintForUser_some hfound
      dsimp only
      by_cases husable : isUsableBy own (some owner) = true
      · rw [if_pos husable]
        have hlive := (isUsableBy_iff.mp husable).1
        exact ⟨own.id, serve_sighted hg (htenant ▸ hget) rfl hlive hlive⟩
      · rw [if_neg husable]
        refine hreuse fun hnone => h ⟨fun u d hu hfirst hlive => husable ?_, hnone⟩
        obtain rfl := Option.some.inj hu
        have hsome := (newestFirst_eq_some_iff fun _ hd => hd.1.1).mpr hfirst
        obtain rfl : own = d := Option.some.inj (hfound.symm.trans hsome)
        refine isUsableBy_iff.mpr ⟨hlive, fun owner' u' hown hu' => ?_⟩
        exact Option.some.inj (hown.symm.trans (howner.trans hu'))

end DeviceTable

/-- After any history, the device that a request returns was seen no longer ago than the granularity
and a second, exactly when a lookup finds a device that the caller may use, or the first live row of
the caller's own key was seen so lately itself. -/
theorem returned_device_is_sighted_iff {cfg : SweepConfig} {granularity : Int}
    (hg : 0 ≤ granularity) (history : List (Instant × DeviceEvent)) (tenant : TenantId)
    (user : Option UserId) (hash : FingerprintHash) (now : Instant) {newId : DeviceId}
    (hnew : (afterEvents cfg granularity history).get (tenant, newId) = none) :
    ∃ id t', (ensureDevice granularity tenant user hash now newId).eval
        (DeviceCall.handle cfg) (afterEvents cfg granularity history) = (.ok id, t') ∧
      (t'.Sighted granularity now (tenant, id) ↔
        ¬(afterEvents cfg granularity history).Hidden tenant user hash ∨
        ∀ c, (afterEvents cfg granularity history).First (·.SharesCreateKey tenant hash user) c →
          now - c.lastSeenAt ≤ granularity + second) := by
  have hsettled := settled_afterEvents cfg granularity history
  by_cases hhidden : (afterEvents cfg granularity history).Hidden tenant user hash
  · rw [ensureDevice_of_hidden hsettled hhidden]
    rcases createDevice_eval cfg hnew with ⟨c, hfirst, heval⟩ | ⟨hnone, t', heval, hrow⟩
    · have hget : (afterEvents cfg granularity history).get (tenant, c.id) = some c :=
        hfirst.2.1.2.1.1 ▸ mem_values.mp hfirst.1
      refine ⟨c.id, _, heval, ?_⟩
      constructor
      · rintro ⟨d, hd, hseen⟩
        obtain rfl := Option.some.inj (hget.symm.trans hd)
        refine .inr fun c' hfirst' => ?_
        have hsome := (newestFirst_eq_some_iff fun _ hd => hd.2.1.1).mpr hfirst
        have hsome' := (newestFirst_eq_some_iff fun _ hd => hd.2.1.1).mpr hfirst'
        rw [← Option.some.inj (hsome.symm.trans hsome')]
        exact hseen
      · rintro (hnot | hseen)
        · exact absurd hhidden hnot
        · exact ⟨c, hget, hseen c hfirst⟩
    · refine ⟨newId, t', heval, fun _ => .inr fun c hfirst => ?_, fun _ => ⟨_, hrow, ?_⟩⟩
      · exact absurd hfirst.2.1 (hnone c hfirst.1)
      · exact sub_le_of_wholeSecond hg le_rfl
  · obtain ⟨id, t', heval, hsighted⟩ := ensureDevice_sighted cfg hg hsettled hhidden
    exact ⟨id, t', heval, fun _ => .inl hhidden, fun _ => hsighted⟩

namespace Shadowed

def cfg : SweepConfig := ⟨90 * 86400 * second, 30 * 86400 * second, 7 * 86400 * second⟩

def fingerprint : FingerprintHash := ⟨40⟩

/-- Two users and a guest behind one address: the guest gets a device while the newest one, of the
second user, is revoked; then the first user is seen again, and its device revoked too. -/
def history : List (Instant × DeviceEvent) :=
  [(0, .ensure ⟨1⟩ (some ⟨7⟩) fingerprint ⟨10⟩),
    (10 * second, .ensure ⟨1⟩ (some ⟨8⟩) fingerprint ⟨11⟩),
    (20 * second, .revoke ⟨1⟩ ⟨11⟩),
    (30 * second, .ensure ⟨1⟩ none fingerprint ⟨12⟩),
    (1000 * second, .ensure ⟨1⟩ (some ⟨7⟩) fingerprint ⟨13⟩),
    (1010 * second, .revoke ⟨1⟩ ⟨10⟩)]

def returned (now : Instant) : Except NotFound DeviceId × DeviceTable :=
  (ensureDevice (300 * second) ⟨1⟩ none fingerprint now ⟨14⟩).eval
    (DeviceCall.handle cfg) (afterEvents cfg (300 * second) history)

end Shadowed

open Shadowed in
/-- A guest that comes back within the granularity is served a device seen lately. -/
theorem returned_device_is_sighted_soon : ∃ id t',
    (ensureDevice (300 * second) ⟨1⟩ none fingerprint (60 * second) ⟨14⟩).eval
      (DeviceCall.handle cfg) (afterEvents cfg (300 * second) (history.take 4)) = (.ok id, t') ∧
    t'.Sighted (300 * second) (60 * second) (⟨1⟩, id) := by
  have hnew : (afterEvents cfg (300 * second) (history.take 4)).get (⟨1⟩, ⟨14⟩) = none := by
    decide +kernel
  have hrecent : ∀ c ∈ (afterEvents cfg (300 * second) (history.take 4)).values,
      c.SharesCreateKey ⟨1⟩ fingerprint none →
        60 * second - c.lastSeenAt ≤ 300 * second + second := by decide +kernel
  obtain ⟨id, t', heval, hiff⟩ := returned_device_is_sighted_iff (by decide) (history.take 4) ⟨1⟩
    none fingerprint (60 * second) hnew
  exact ⟨id, t', heval, hiff.mpr (.inr fun c hfirst => hrecent c hfirst.1 hfirst.2.1)⟩

open Shadowed in
/-- A guest that comes back after an hour is served the device of its first visit, unsighted. -/
theorem returned_device_unsighted :
    (history.map (·.1)).Pairwise (· ≤ ·) ∧
    (returned (5000 * second)).1 = .ok ⟨12⟩ ∧
    ¬(returned (5000 * second)).2.Sighted (300 * second) (5000 * second) (⟨1⟩, ⟨12⟩) := by
  refine ⟨by decide, by decide +kernel, ?_⟩
  rintro ⟨d, hd, hseen⟩
  have hrow : ((returned (5000 * second)).2.get (⟨1⟩, ⟨12⟩)).map DeviceRow.lastSeenAt =
      some (30 * second) := by decide +kernel
  rw [hd] at hrow
  rw [show d.lastSeenAt = 30 * second from Option.some.inj hrow] at hseen
  exact absurd hseen (by decide)

end Axess
