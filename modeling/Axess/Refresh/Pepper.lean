import Axess.Refresh.Chain

/-!
# One client and a change of pepper

Without rotation a client keeps its token. When the pepper has changed, a refresh moves the token's
row: the row under the old hash is revoked as rotated, and one under the new hash takes its place.
A refresh looks under the current pepper first and stops at the first row it finds, so a row that a
move left behind is found again when its pepper is the current one once more. This module says when
that happens to a client that is alone with its token, over any sequence of refreshes.
-/

namespace Axess

open Calls

variable {V : Type}

structure Client where
  userId : UserId
  plaintext : String
  deviceInfo : Option String

structure Visit where
  refresh : Refresh
  config : RefreshTokenConfig
  draw : TokenDraw
  now : Instant

namespace Client

variable (digest : TokenDigest) (client : Client)

def hash (pepper : Option Pepper) : String := digest.hashToken client.plaintext pepper

def served : Sem RefreshCall RefreshCall.Answer (Ledger Unit) := fun c s a s' =>
  Ledger.Took () c s a s' ∧
    match c, a with
    | .statusCheck _, a => a = true
    | .loadDevice .., a =>
      ∃ device : Device, a = .ok (some device) ∧ device.revoked = false ∧
        device.userId.any (· != client.userId) = false
    | _, _ => True

/-- The row is the live one of the client's token. No other live row is stored under a hash of the
token, and under each of its hashes there is at most one row. -/
structure Held (rows : TokenTable) (row : RefreshToken) : Prop where
  mem : row ∈ rows
  live : row.revoked = false
  owner : row.userId = client.userId
  bound : ∀ pepper, row.tokenHash = client.hash digest pepper →
    ∀ stored, row.deviceInfo = some stored → ∃ info, client.deviceInfo = some info ∧
      digest.matchesBinding stored info row.deviceId pepper = true
  onlyLive : ∀ r ∈ rows, r.revoked = false → ∀ pepper, r.tokenHash = client.hash digest pepper →
    r = row
  oneEach : ∀ r ∈ rows, ∀ r' ∈ rows, ∀ pepper, r.tokenHash = client.hash digest pepper →
    r'.tokenHash = client.hash digest pepper → r = r'

/-- The refresh is the client's own, under a valid configuration without rotation whose current or
previous pepper is the one the row is stored under, before the token expires. -/
structure Visits (visit : Visit) (row : RefreshToken) : Prop where
  plaintext : visit.refresh.plaintext = client.plaintext
  deviceInfo : visit.refresh.deviceInfo = client.deviceInfo
  tenant : visit.refresh.tenant.any (row.tenantId != ·) = false
  rotation : visit.config.rotation = false
  valid : visit.config.checkFor visit.refresh.deviceInfo.isSome = .ok ()
  pepper : row.tokenHash = client.hash digest visit.config.pepper ∨
    ∃ previous, visit.config.previousPepper = some previous ∧
      row.tokenHash = client.hash digest previous
  unexpired : tokenExpired row visit.config visit.now = false

/-- Two peppers that give the client's token one hash are one key: they give a device string one
binding as well. -/
def KeysApart : Prop :=
  ∀ p q, client.hash digest p = client.hash digest q →
    ∀ info device, digest.bind info device p = digest.bind info device q

/-- The row under the current pepper's hash, if there is one, is live; and if there is none, the
row a move would store has a time of expiry. -/
def Unburdened (visit : Visit) (rows : TokenTable) : Prop :=
  (∀ r ∈ rows, r.tokenHash = client.hash digest visit.config.pepper → r.revoked = false) ∧
  ((∀ r ∈ rows, r.tokenHash ≠ client.hash digest visit.config.pepper) →
    (checkedAddSigned visit.now visit.config.ttl).isSome = true)

variable {digest client} {rows : TokenTable} {row : RefreshToken} {visit : Visit}
  {s s' : Ledger Unit}

theorem ledger_eq {s s' : Ledger Unit} (hrows : s'.rows = s.rows)
    (hhistory : s'.history = s.history ++ []) : s' = s := by
  rw [List.append_nil] at hhistory
  cases s
  cases s'
  cases hrows
  cases hhistory
  rfl

theorem served_find {h : String} {a : Except StoreError (Option RefreshToken)}
    (hX : client.served (.findToken h) s a s') :
    s' = s ∧ ((a = .ok none ∧ ∀ r ∈ s.rows, r.tokenHash ≠ h) ∨
      ∃ r ∈ s.rows, r.tokenHash = h ∧ a = .ok (some r)) := by
  obtain ⟨⟨⟨at_, hrows, hfound⟩, hhistory⟩, _⟩ := hX
  exact ⟨ledger_eq hrows hhistory, hfound⟩

theorem served_rotate {id : RefreshTokenId} {t : RefreshToken}
    {a : Except StoreError RotationOutcome} (hX : client.served (.rotateToken id t) s a s')
    (hlive : s.rows.live id = true) :
    a = .ok .rotated ∧ s'.rows = s.rows.revokeWhere (·.id == id) .rotated t.issuedAt ++ [t] ∧
      s'.history = s.history ++ [((), .rotated id t)] := by
  obtain ⟨⟨⟨at_, hanswer⟩, hhistory⟩, _⟩ := hX
  obtain ⟨rfl, hrows⟩ := Prod.mk.inj hanswer
  rw [Ledger.events, if_pos hlive] at hhistory
  rw [TokenTable.rotate, if_pos hlive] at hrows ⊢
  exact ⟨rfl, hrows, hhistory⟩

/-- A visit finds the row under the current pepper's hash if there is one, and the live row
otherwise. -/
theorem locate_runs (hheld : client.Held digest s.rows row) (hvisit : client.Visits digest visit row)
    {a : Except StoreError (Option Located)}
    (hr : (locate digest visit.refresh.plaintext visit.config).Runs client.served s a s') :
    s' = s ∧
      ((∃ r ∈ s.rows, r.tokenHash = client.hash digest visit.config.pepper ∧
          a = .ok (some ⟨r, false⟩)) ∨
        ((∀ r ∈ s.rows, r.tokenHash ≠ client.hash digest visit.config.pepper) ∧
          (∃ previous, visit.config.previousPepper = some previous ∧
            row.tokenHash = client.hash digest previous) ∧ a = .ok (some ⟨row, true⟩))) := by
  rw [hvisit.plaintext] at hr
  obtain ⟨a₁, s₁, hX₁, hr⟩ := Prog.Runs.of_perform hr
  obtain ⟨rfl, ⟨rfl, hnone⟩ | ⟨r, hmem, hhash, rfl⟩⟩ := served_find hX₁
  · rcases hvisit.pepper with hcurrent | ⟨previous, hprevious, hhash⟩
    · exact absurd hcurrent (hnone row hheld.mem)
    · simp only [hprevious] at hr
      obtain ⟨a₂, s₂, hX₂, hr⟩ := Prog.Runs.of_perform hr
      obtain ⟨rfl, ⟨rfl, hmissing⟩ | ⟨r, hmem, hr', rfl⟩⟩ := served_find hX₂
      · exact absurd hhash (hmissing row hheld.mem)
      · obtain ⟨rfl, rfl⟩ := hr.of_ret
        have hsame := hheld.oneEach r hmem row hheld.mem previous hr' hhash
        exact ⟨rfl, .inr ⟨hnone, ⟨previous, hprevious, hhash⟩, by rw [hsame]; rfl⟩⟩
  · obtain ⟨rfl, rfl⟩ := hr.of_ret
    exact ⟨rfl, .inl ⟨r, hmem, hhash, rfl⟩⟩

theorem Held.verifyBinding (hheld : client.Held digest rows row) {pepper : Option Pepper}
    (hhash : row.tokenHash = client.hash digest pepper) (current : Option Pepper) :
    digest.verifyBinding row client.deviceInfo pepper current = .ok
      (row.deviceInfo.bind fun _ => client.deviceInfo.map (digest.bind · row.deviceId current)) := by
  unfold TokenDigest.verifyBinding
  cases hinfo : row.deviceInfo with
  | none => rfl
  | some stored =>
    obtain ⟨info, hpresented, hmatches⟩ := hheld.bound pepper hhash stored hinfo
    rw [hpresented]
    simp only [hmatches, if_true]
    rfl

theorem checkDevice_runs (hheld : client.Held digest s.rows row) {refresh : Refresh}
    {a : Except RefreshError Unit} (hr : (checkDevice refresh row).Runs client.served s a s') :
    a = .ok () ∧ s' = s := by
  unfold checkDevice at hr
  cases hdevice : (if refresh.deviceGate then row.deviceId else none : Option DeviceId) with
  | none =>
    rw [hdevice] at hr
    exact hr.of_ret
  | some device =>
    rw [hdevice] at hr
    obtain ⟨answer, s₁, ⟨⟨⟨at_, hrows⟩, hhistory⟩, loaded, rfl, hlive, howner⟩, hrest⟩ :=
      Prog.Runs.of_perform hr
    obtain rfl := ledger_eq hrows hhistory
    simp only [hlive, hheld.owner, howner, Bool.false_eq_true, if_false] at hrest
    exact hrest.of_ret

theorem proceed_runs (hheld : client.Held digest s.rows row) (hvisit : client.Visits digest visit row)
    {previous : Bool} (hhash : row.tokenHash =
      client.hash digest (Located.storedUnder ⟨row, previous⟩ visit.config))
    {a : RefreshResult V}
    (hr : (visit.refresh.proceed digest visit.config visit.draw visit.now ⟨row, previous⟩).Runs
      client.served s a s') :
    (visit.refresh.replace digest visit.config visit.draw visit.now ⟨row, previous⟩
      (row.deviceInfo.bind fun _ =>
        client.deviceInfo.map (digest.bind · row.deviceId visit.config.pepper))).Runs
      client.served s a s' := by
  unfold Refresh.proceed at hr
  simp only [hvisit.tenant, hheld.live, Bool.false_eq_true, if_false] at hr
  unfold Refresh.proceedLive at hr
  simp only [hvisit.unexpired, Bool.false_eq_true, if_false] at hr
  obtain ⟨active, s₁, ⟨⟨⟨at_, hrows⟩, hhistory⟩, rfl⟩, hactive⟩ := Prog.Runs.of_perform hr
  obtain rfl := ledger_eq hrows hhistory
  obtain ⟨checked, s₂, hdevice, hchecked⟩ := Prog.Runs.of_bind hactive
  obtain ⟨rfl, rfl⟩ := checkDevice_runs hheld hdevice
  simpa only [hvisit.deviceInfo, hheld.verifyBinding hhash] using hchecked

def movedRow (digest : TokenDigest) (client : Client) (visit : Visit) (row : RefreshToken) :
    RefreshToken where
  id := visit.draw.id
  userId := row.userId
  tenantId := row.tenantId
  tokenHash := client.hash digest visit.config.pepper
  issuedAt := visit.now
  expiresAt := row.expiresAt
  revoked := false
  deviceInfo := row.deviceInfo.bind fun _ =>
    client.deviceInfo.map (digest.bind · row.deviceId visit.config.pepper)
  familyId := some row.family
  deviceId := row.deviceId
  authnTime := some row.authenticatedAt
  revokedReason := none
  revokedAt := none

theorem replacementFor_previous (hvisit : client.Visits digest visit row) :
    replacementFor digest visit.refresh.plaintext visit.config visit.draw visit.now ⟨row, true⟩
        (row.deviceInfo.bind fun _ =>
          client.deviceInfo.map (digest.bind · row.deviceId visit.config.pepper)) =
      if (checkedAddSigned visit.now visit.config.ttl).isSome then
        .token client.plaintext (movedRow digest client visit row)
      else .panicked := by
  unfold replacementFor buildRefreshTokenFor
  rw [hvisit.rotation, hvisit.plaintext]
  cases checkedAddSigned visit.now visit.config.ttl <;> rfl

theorem matchesBinding_bind (digest : TokenDigest) (info : String) (device : Option DeviceId)
    {p q : Option Pepper} (hkeys : digest.bind info device p = digest.bind info device q) :
    digest.matchesBinding (digest.bind info device p) info device q = true := by
  have hstarts : (digest.bind info device p).startsWith TokenDigest.bindingPrefix = true := by
    rw [String.startsWith_string_iff, TokenDigest.bind, String.toList_append]
    exact List.prefix_append _ _
  rw [TokenDigest.matchesBinding, if_pos hstarts, hkeys, TokenDigest.same, beq_self_eq_true]

theorem mem_revokeWhere {p : RefreshToken → Bool} {reason : RevocationReason} {at_ : Instant}
    {r : RefreshToken} (hr : r ∈ rows.revokeWhere p reason at_) :
    ∃ a ∈ rows, r = (if p a then a.revoke reason at_ else a) ∧ r.tokenHash = a.tokenHash := by
  obtain ⟨a, ha, rfl⟩ := List.mem_map.mp hr
  refine ⟨a, ha, rfl, ?_⟩
  split
  · exact RefreshToken.core_congr RefreshToken.tokenHash (fun _ => rfl) RefreshToken.core_revoke
  · rfl

theorem Held.move (hheld : client.Held digest rows row) (hkeys : client.KeysApart digest)
    (hfree : ∀ r ∈ rows, r.tokenHash ≠ client.hash digest visit.config.pepper)
    {previous : Option Pepper} (hhash : row.tokenHash = client.hash digest previous)
    (at_ : Instant) :
    client.Held digest
      (rows.revokeWhere (·.id == row.id) .rotated at_ ++ [movedRow digest client visit row])
      (movedRow digest client visit row) where
  mem := List.mem_append_right _ List.mem_cons_self
  live := rfl
  owner := hheld.owner
  bound := by
    intro pepper hpepper stored hstored
    obtain ⟨old, hold, hnew⟩ := Option.bind_eq_some_iff.mp hstored
    obtain ⟨info, hinfo, _⟩ := hheld.bound previous hhash old hold
    rw [hinfo] at hnew
    cases hnew
    exact ⟨info, hinfo, matchesBinding_bind digest info row.deviceId (hkeys _ _ hpepper info _)⟩
  onlyLive := by
    intro r hr hlive pepper hpepper
    rcases List.mem_append.mp hr with hold | hnew
    · obtain ⟨a, ha, hra, hsame⟩ := mem_revokeWhere hold
      -- the one live row there was is revoked now
      by_cases hid : (a.id == row.id) = true
      · rw [if_pos hid] at hra
        rw [hra, RefreshToken.revoked_revoke] at hlive
        cases hlive
      · rw [if_neg hid] at hra
        subst hra
        rw [hheld.onlyLive r ha hlive pepper hpepper, beq_self_eq_true] at hid
        exact absurd rfl hid
    · exact List.mem_singleton.mp hnew
  oneEach := by
    have hold {r : RefreshToken} (hr : r ∈ rows.revokeWhere (·.id == row.id) .rotated at_)
        {pepper : Option Pepper} (hpepper : r.tokenHash = client.hash digest pepper) :
        client.hash digest pepper ≠ client.hash digest visit.config.pepper := by
      obtain ⟨a, ha, -, hsame⟩ := mem_revokeWhere hr
      rw [← hpepper, hsame]
      exact hfree a ha
    intro r hr r' hr' pepper hpepper hpepper'
    rcases List.mem_append.mp hr with hr | hr <;> rcases List.mem_append.mp hr' with hr' | hr'
    · obtain ⟨a, ha, hra, hsame⟩ := mem_revokeWhere hr
      obtain ⟨a', ha', hra', hsame'⟩ := mem_revokeWhere hr'
      rw [hra, hra', hheld.oneEach a ha a' ha' pepper (hsame ▸ hpepper) (hsame' ▸ hpepper')]
    · rw [List.mem_singleton.mp hr'] at hpepper'
      exact absurd hpepper'.symm (hold hr hpepper)
    · rw [List.mem_singleton.mp hr] at hpepper
      exact absurd hpepper.symm (hold hr' hpepper')
    · rw [List.mem_singleton.mp hr, List.mem_singleton.mp hr']

theorem live_of_mem (hmem : row ∈ rows) (hlive : row.revoked = false) : rows.live row.id = true :=
  List.any_eq_true.mpr ⟨row, hmem, by rw [hlive, beq_self_eq_true]; rfl⟩

/-- The refresh is answered with a session, the client keeps a row, and nothing is revoked for
theft. -/
structure Welcomed (digest : TokenDigest) (client : Client) (s : Ledger Unit) (a : RefreshResult V)
    (s' : Ledger Unit) : Prop where
  session : ∃ session, a = .ok (session, none)
  held : ∃ row, client.Held digest s'.rows row
  history : ∀ u f, ((), .familyRevoked u f) ∈ s'.history → ((), .familyRevoked u f) ∈ s.history

theorem Refresh.find_runs (hvisit : client.Visits digest visit row)
    {a : Except RefreshError Located}
    (hr : (visit.refresh.find digest visit.config).Runs client.served s a s') :
    ∃ found, (locate digest visit.refresh.plaintext visit.config).Runs client.served s found s' ∧
      ∀ record, found = .ok (some record) → a = .ok record := by
  unfold Refresh.find at hr
  rw [hvisit.valid] at hr
  obtain ⟨found, s₁, hlocate, hrest⟩ := Prog.Runs.of_bind hr
  rcases found with e | _ | found
  all_goals
    obtain ⟨rfl, rfl⟩ := hrest.of_ret
    refine ⟨_, hlocate, fun record heq => ?_⟩
    cases heq
  rfl

theorem proceed_refused {visit : Visit} {r : RefreshToken} (hrevoked : r.revoked = true)
    {a : RefreshResult V}
    (hr : (visit.refresh.proceed digest visit.config visit.draw visit.now ⟨r, false⟩).Runs
      client.served s a s') : ∃ e, a = .error e := by
  unfold Refresh.proceed at hr
  simp only [hrevoked, if_true] at hr
  split at hr
  · exact ⟨_, hr.of_ret.1⟩
  · obtain ⟨e, s₁, _, hrest⟩ := Prog.Runs.of_bind hr
    exact ⟨e, hrest.of_ret.1⟩

/-- A visit that finds the live row under the previous pepper moves it, unless the new row would
have no time of expiry. -/
theorem move_runs (hheld : client.Held digest s.rows row) (hvisit : client.Visits digest visit row)
    (hkeys : client.KeysApart digest)
    (hfree : ∀ r ∈ s.rows, r.tokenHash ≠ client.hash digest visit.config.pepper)
    {previous : Option Pepper} (hprevious : visit.config.previousPepper = some previous)
    (hhash : row.tokenHash = client.hash digest previous) {a : RefreshResult V}
    (hr : (visit.refresh.proceed digest visit.config visit.draw visit.now ⟨row, true⟩).Runs
      client.served s a s') :
    if (checkedAddSigned visit.now visit.config.ttl).isSome then Welcomed digest client s a s'
    else ∃ e, a = .error e := by
  have hstored : row.tokenHash =
      client.hash digest (Located.storedUnder ⟨row, true⟩ visit.config) := by
    rw [Located.storedUnder, if_pos rfl, hprevious]
    exact hhash
  have hreplace := proceed_runs hheld hvisit hstored hr
  unfold Refresh.replace at hreplace
  rw [replacementFor_previous hvisit] at hreplace
  split
  · next hsome =>
    rw [if_pos hsome] at hreplace
    obtain ⟨rotated, s₁, hrotate, hrest⟩ := Prog.Runs.of_bind hreplace
    obtain ⟨outcome, s₂, hX, hrotated⟩ := Prog.Runs.of_perform hrotate
    obtain ⟨rfl, hrows, hhistory⟩ := served_rotate hX (live_of_mem hheld.mem hheld.live)
    obtain ⟨rfl, rfl⟩ := hrotated.of_ret
    rw [hvisit.rotation] at hrest
    obtain ⟨rfl, rfl⟩ := hrest.of_ret
    refine ⟨⟨_, rfl⟩, ⟨_, hrows ▸ hheld.move hkeys hfree hhash visit.now⟩, fun u f hin => ?_⟩
    rw [hhistory] at hin
    simpa using hin
  · next hnone =>
    rw [if_neg hnone] at hreplace
    exact ⟨_, hreplace.of_ret.1⟩

theorem visit_runs (hheld : client.Held digest s.rows row) (hvisit : client.Visits digest visit row)
    (hkeys : client.KeysApart digest) {a : RefreshResult V}
    (hr : (visit.refresh.run digest visit.config visit.draw visit.now).Runs client.served s a s') :
    (client.Unburdened digest visit s.rows ∧ Welcomed digest client s a s') ∨
      (¬client.Unburdened digest visit s.rows ∧ ∃ e, a = .error e) := by
  obtain ⟨located, s₁, hfind, hrest⟩ := Prog.Runs.of_bind hr
  obtain ⟨found, hlocate, hlocated⟩ := Refresh.find_runs hvisit hfind
  obtain ⟨rfl, ⟨r, hmem, hhash, rfl⟩ | ⟨hfree, ⟨previous, hprevious, hhash⟩, rfl⟩⟩ :=
    locate_runs hheld hvisit hlocate
  · obtain rfl := hlocated _ rfl
    cases hrevoked : r.revoked with
    | true =>
      refine .inr ⟨fun h => ?_, proceed_refused hrevoked hrest⟩
      exact absurd (h.1 r hmem hhash) (by rw [hrevoked]; decide)
    | false =>
      obtain rfl := hheld.onlyLive r hmem hrevoked _ hhash
      have hfound : r.tokenHash =
          client.hash digest (Located.storedUnder ⟨r, false⟩ visit.config) := hhash
      have hreplace := proceed_runs hheld hvisit hfound hrest
      unfold Refresh.replace replacementFor at hreplace
      simp only [hvisit.rotation, Bool.false_eq_true, if_false] at hreplace
      obtain ⟨rfl, rfl⟩ := hreplace.of_ret
      refine .inl ⟨⟨fun r' hmem' hhash' => ?_, fun hfree => absurd hhash (hfree r hmem)⟩,
        ⟨_, rfl⟩, ⟨r, hheld⟩, fun _ _ hin => hin⟩
      rw [hheld.oneEach r' hmem' r hmem _ hhash' hhash, hrevoked]
  · obtain rfl := hlocated _ rfl
    have hmove := move_runs hheld hvisit hkeys hfree hprevious hhash hrest
    split at hmove
    · next hsome =>
      exact .inl ⟨⟨fun r hmem heq => absurd heq (hfree r hmem), fun _ => hsome⟩, hmove⟩
    · next hnone => exact .inr ⟨fun h => hnone (h.2 hfree), hmove⟩

structure Visited (V : Type) where
  visit : Visit
  before : Ledger Unit
  result : RefreshResult V
  after : Ledger Unit

inductive Stay (digest : TokenDigest) (client : Client) : Ledger Unit → List (Visited V) → Prop where
  | nil (s : Ledger Unit) : Stay digest client s []
  | cons {visit : Visit} {s s' : Ledger Unit} {a : RefreshResult V} {rest : List (Visited V)} :
      (visit.refresh.run digest visit.config visit.draw visit.now).Runs client.served s a s' →
      Stay digest client s' rest → Stay digest client s (⟨visit, s, a, s'⟩ :: rest)

/-- The refresh is made by the client, on the row of its token that is live. -/
def Visited.Own (digest : TokenDigest) (client : Client) (x : Visited V) : Prop :=
  ∃ row ∈ x.before.rows, row.revoked = false ∧ client.Visits digest x.visit row

theorem Visits.hash_eq (hvisit : client.Visits digest visit row) :
    ∃ pepper, row.tokenHash = client.hash digest pepper := by
  rcases hvisit.pepper with hcurrent | ⟨previous, _, hhash⟩
  · exact ⟨_, hcurrent⟩
  · exact ⟨previous, hhash⟩

/-- **A client is taken for a thief only over a row that a move left behind.** For every sequence
of refreshes of one client that keeps its token: all of them succeed and no family is revoked
exactly if each finds the table unburdened: no revoked row is stored under the hash of its current
pepper, and a row it has to move can be given an expiry. -/
theorem welcome_iff_unburdened (hheld : client.Held digest s.rows row)
    (hkeys : client.KeysApart digest)
    (hhistory : ∀ u f, ((), .familyRevoked u f) ∉ s.history) {xs : List (Visited V)}
    (hstay : Stay digest client s xs) (hown : ∀ x ∈ xs, x.Own digest client) :
    (∀ x ∈ xs, (∃ r, x.result = .ok r) ∧ ∀ u f, ((), .familyRevoked u f) ∉ x.after.history) ↔
      ∀ x ∈ xs, client.Unburdened digest x.visit x.before.rows := by
  induction hstay generalizing row with
  | nil s => simp
  | @cons visit s s' a rest hrun _ ih =>
    obtain ⟨⟨row', hmem, hlive, hvisit⟩, hlater⟩ := List.forall_mem_cons.mp hown
    obtain ⟨pepper, hhash⟩ := hvisit.hash_eq
    obtain rfl := hheld.onlyLive row' hmem hlive pepper hhash
    rw [List.forall_mem_cons, List.forall_mem_cons]
    rcases visit_runs hheld hvisit hkeys hrun with ⟨hunburdened, hwelcomed⟩ | ⟨hburdened, e, rfl⟩
    · obtain ⟨session, rfl⟩ := hwelcomed.session
      obtain ⟨row', hheld'⟩ := hwelcomed.held
      have hhistory' : ∀ u f, ((), .familyRevoked u f) ∉ s'.history :=
        fun u f hin => hhistory u f (hwelcomed.history u f hin)
      rw [ih hheld' hhistory' hlater]
      simp only [hunburdened, true_and, hhistory', not_false_eq_true, implies_true, and_true]
      exact ⟨fun h => h.2, fun h => ⟨⟨_, rfl⟩, h⟩⟩
    · refine ⟨fun h => ?_, fun h => absurd h.1 hburdened⟩
      obtain ⟨r, hr⟩ := h.1.1
      cases hr

/-! ## How a stay begins, and a pepper that is rolled back -/

theorem literal_hash_injective (client : Client) : Function.Injective (client.hash .literal) := by
  intro p q h
  rcases p with _ | p <;> rcases q with _ | q
  · rfl
  · have hlen := congrArg List.length (latin1_injective h)
    simp only [List.length_append, List.length_singleton] at hlen
    omega
  · have hlen := congrArg List.length (latin1_injective h)
    simp only [List.length_append, List.length_singleton] at hlen
    omega
  · have hkey := List.append_cancel_right (latin1_injective h)
    rw [List.append_cancel_right hkey]

theorem literal_keysApart (client : Client) : client.KeysApart .literal := by
  intro p q h
  obtain rfl := literal_hash_injective client h
  exact fun _ _ => rfl

def serving : (c : RefreshCall) → Ledger Unit → c.Answer × Ledger Unit
  | .loadDevice .., s => (.ok (some ⟨false, none⟩), s)
  | c, s => Ledger.performing () () c s

theorem served_serving (client : Client) (c : RefreshCall) (s : Ledger Unit) :
    client.served c s (serving c s).1 (serving c s).2 := by
  have htook := fun c => (⟨⟨0, TokenTable.answers_perform 0 c s.rows⟩, rfl⟩ :
    Ledger.Took () c s (Ledger.performing () () c s).1 (Ledger.performing () () c s).2)
  cases c with
  | loadDevice t d =>
    have hhistory : s.history = s.history ++ [] := (List.append_nil _).symm
    exact ⟨⟨⟨0, rfl⟩, hhistory⟩, ⟨false, none⟩, rfl, rfl, rfl⟩
  | statusCheck u => exact ⟨htook _, rfl⟩
  | _ => exact ⟨htook _, trivial⟩

def visits (digest : TokenDigest) : List Visit → Ledger Unit → List (Visited V)
  | [], _ => []
  | v :: rest, s =>
    let r := (v.refresh.run digest v.config v.draw v.now).eval serving s
    ⟨v, s, r.1, r.2⟩ :: visits digest rest r.2

theorem stay_visits (digest : TokenDigest) (client : Client) (l : List Visit) (s : Ledger Unit) :
    Stay digest client s (visits digest l s : List (Visited V)) := by
  induction l generalizing s with
  | nil => exact .nil s
  | cons v rest ih =>
    exact .cons (Prog.runs_eval (fun e w => served_serving client e w) _ s) (ih _)

def rollbackClient : Client := ⟨⟨7⟩, "t", none⟩

def rollbackRow : RefreshToken where
  id := ⟨100⟩
  userId := ⟨7⟩
  tenantId := ⟨1⟩
  tokenHash := rollbackClient.hash .literal (some [1])
  issuedAt := 0
  expiresAt := 1000
  revoked := false
  deviceInfo := none
  familyId := some ⟨100⟩
  deviceId := none
  authnTime := none
  revokedReason := none
  revokedAt := none

/-- The pepper `current` with `previous` still accepted, without rotation. -/
def keptUnder (current previous : Pepper) : RefreshTokenConfig :=
  { RefreshTokenConfig.default with
    rotation := false, hashPepper := some current, previousHashPepper := some (.keyed previous) }

def forward : Visit := ⟨⟨"t", none, none, false⟩, keptUnder [2] [1], ⟨"", ⟨101⟩⟩, 5⟩

def back : Visit := ⟨⟨"t", none, none, false⟩, keptUnder [1] [2], ⟨"", ⟨102⟩⟩, 10⟩

theorem rollbackClient_held : rollbackClient.Held .literal [rollbackRow] rollbackRow where
  mem := List.mem_cons_self
  live := rfl
  owner := rfl
  bound := fun _ _ _ h => nomatch h
  onlyLive := fun _ hr _ _ _ => List.mem_singleton.mp hr
  oneEach := fun _ hr _ hr' _ _ _ => (List.mem_singleton.mp hr).trans (List.mem_singleton.mp hr').symm

theorem forward_visits : rollbackClient.Visits .literal forward rollbackRow where
  plaintext := rfl
  deviceInfo := rfl
  tenant := rfl
  rotation := rfl
  valid := rfl
  pepper := .inr ⟨some [1], rfl, rfl⟩
  unexpired := rfl

theorem forward_rows :
    (((forward.refresh.run .literal forward.config forward.draw forward.now :
      RefreshProg (RefreshResult Unit)).eval serving ⟨[rollbackRow], []⟩).2).rows =
      [rollbackRow.revoke .rotated 5, movedRow .literal rollbackClient forward rollbackRow] := by
  decide +kernel

theorem back_visits : rollbackClient.Visits .literal back
    (movedRow .literal rollbackClient forward rollbackRow) where
  plaintext := rfl
  deviceInfo := rfl
  tenant := rfl
  rotation := rfl
  valid := rfl
  pepper := .inr ⟨some [2], rfl, rfl⟩
  unexpired := rfl

theorem own_after_forward (v : Visit)
    (hvisit : rollbackClient.Visits .literal v (movedRow .literal rollbackClient forward rollbackRow)) :
    ∀ x ∈ (visits .literal [forward, v] ⟨[rollbackRow], []⟩ : List (Visited Unit)),
      x.Own .literal rollbackClient := by
  simp only [visits, List.forall_mem_cons]
  refine ⟨⟨rollbackRow, List.mem_cons_self, rfl, forward_visits⟩,
    ⟨movedRow .literal rollbackClient forward rollbackRow, ?_, rfl, hvisit⟩, fun _ h => nomatch h⟩
  rw [forward_rows]
  exact List.mem_cons_of_mem _ List.mem_cons_self

theorem forward_again : rollbackClient.Visits .literal forward
    (movedRow .literal rollbackClient forward rollbackRow) :=
  { forward_visits with pepper := .inl rfl, unexpired := rfl }

theorem welcome_iff_unburdened_forward :
    rollbackClient.Held .literal [rollbackRow] rollbackRow ∧
    ∀ x ∈ (visits .literal [forward, forward] ⟨[rollbackRow], []⟩ : List (Visited Unit)),
      (∃ r, x.result = .ok r) ∧ ∀ u f, ((), .familyRevoked u f) ∉ x.after.history := by
  refine ⟨rollbackClient_held, ?_⟩
  have hhistory : ∀ u f, ((), StoreEvent.familyRevoked u f) ∉ ([] : List (Unit × StoreEvent)) :=
    fun _ _ => List.not_mem_nil
  refine (welcome_iff_unburdened rollbackClient_held (literal_keysApart _) hhistory
    (stay_visits _ _ _ _) (own_after_forward forward forward_again)).mpr ?_
  simp only [visits, List.forall_mem_cons]
  refine ⟨⟨?_, fun _ => rfl⟩, ⟨?_, fun _ => rfl⟩, fun _ h => nomatch h⟩
  · decide +kernel
  · rw [forward_rows]
    decide +kernel

/-- The client refreshes once after the pepper has been changed and once after the change has been
taken back, each time with a pepper accepted that its live row is stored under. The second refresh
finds the row the first one left behind. -/
theorem rollback_taken_for_theft :
    rollbackClient.Held .literal [rollbackRow] rollbackRow ∧ rollbackClient.KeysApart .literal ∧
    ∃ xs : List (Visited Unit), Stay .literal rollbackClient ⟨[rollbackRow], []⟩ xs ∧
      (∀ x ∈ xs, x.Own .literal rollbackClient) ∧
      ∃ x ∈ xs, x.result.isOk = false ∧ ((), .familyRevoked ⟨7⟩ ⟨100⟩) ∈ x.after.history :=
  ⟨rollbackClient_held, literal_keysApart _, visits .literal [forward, back] ⟨[rollbackRow], []⟩,
    stay_visits _ _ _ _, own_after_forward back back_visits, by decide +kernel⟩

end Client

end Axess
