import Axess.Refresh.Rotation

/-!
# The ledger of a run

Refreshes, issues and revocations interleaved on one store. What a call does to the table is said
once (`Ledger.Effect`); the invariant follows from that and from which records a task may ask to
be stored: the record of a refresh replaces the one that was found, and has the id the refresh
drew.
-/

namespace Axess

open Calls

variable {V ι : Type}

/-- The record without what a revocation writes. -/
def RefreshToken.core (t : RefreshToken) : RefreshToken :=
  { t with revoked := false, revokedReason := none, revokedAt := none }

def Revoking (f : RefreshToken → RefreshToken) : Prop :=
  ∀ t, f t = t ∨ ∃ reason at_, f t = t.revoke reason at_

namespace RefreshToken

variable {t : RefreshToken} {reason : RevocationReason} {at_ : Instant}

@[simp] theorem core_revoke : (t.revoke reason at_).core = t.core := by
  unfold revoke
  split <;> rfl

@[simp] theorem revoked_revoke : (t.revoke reason at_).revoked = true := by
  unfold revoke
  split
  · assumption
  · rfl

theorem core_congr {α : Type} (g : RefreshToken → α) (hg : ∀ t, g t.core = g t)
    {t' : RefreshToken} (h : t.core = t'.core) : g t = g t' := by
  rw [← hg t, h, hg]

theorem id_eq_of_core {t' : RefreshToken} (h : t.core = t'.core) : t.id = t'.id :=
  core_congr RefreshToken.id (fun _ => rfl) h

end RefreshToken

namespace Revoking

variable {f : RefreshToken → RefreshToken}

theorem core (hf : Revoking f) (t : RefreshToken) : (f t).core = t.core := by
  rcases hf t with h | ⟨reason, at_, h⟩
  · rw [h]
  · rw [h, RefreshToken.core_revoke]

theorem revoked (hf : Revoking f) {t : RefreshToken} (h : t.revoked = true) :
    (f t).revoked = true := by
  rcases hf t with heq | ⟨reason, at_, heq⟩
  · rwa [heq]
  · rw [heq, RefreshToken.revoked_revoke]

theorem id (hf : Revoking f) (t : RefreshToken) : (f t).id = t.id :=
  RefreshToken.id_eq_of_core (hf.core t)

theorem ite (p : RefreshToken → Bool) (reason : RevocationReason) (at_ : Instant) :
    Revoking fun t => if p t then t.revoke reason at_ else t := by
  intro t
  cases hp : p t with
  | true => exact .inr ⟨reason, at_, by simp [hp]⟩
  | false => exact .inl (by simp [hp])

theorem refl : Revoking fun t => t := fun _ => .inl rfl

end Revoking

namespace Ledger

inductive Effect (i : ι) (c : RefreshCall) (s s' : Ledger ι) : Prop where
  | sweep (f : RefreshToken → RefreshToken) (hf : Revoking f) (hrows : s'.rows = s.rows.map f)
      (hhistory : s'.history = s.history)
  | family (u : UserId) (fam : TokenFamilyId) (f : RefreshToken → RefreshToken)
      (hc : c = .revokeFamily u fam) (hf : Revoking f)
      (hdead : ∀ t, t.userId = u → t.familyId = some fam → (f t).revoked = true)
      (hrows : s'.rows = s.rows.map f) (hhistory : s'.history = s.history ++ [(i, .familyRevoked u fam)])
  | issue (t : RefreshToken) (max : Nat) (f : RefreshToken → RefreshToken)
      (hc : c = .issueCapped t max) (hf : Revoking f) (hrows : s'.rows = s.rows.map f ++ [t])
      (hhistory : s'.history = s.history ++ [(i, .issued t)])
  | rotate (r t : RefreshToken) (f : RefreshToken → RefreshToken) (hc : c = .rotateToken r.id t)
      (hr : r ∈ s.rows) (hlive : r.revoked = false) (hf : Revoking f)
      (hdead : ∀ t, t.id = r.id → (f t).revoked = true) (hrows : s'.rows = s.rows.map f ++ [t])
      (hhistory : s'.history = s.history ++ [(i, .rotated r.id t)])

variable {i : ι} {c : RefreshCall} {s s' : Ledger ι}

theorem Effect.same (hrows : s'.rows = s.rows) (hhistory : s'.history = s.history) :
    Effect i c s s' :=
  .sweep _ .refl (by rw [hrows, List.map_id']) hhistory

theorem Effect.where_ {p : RefreshToken → Bool} {reason : RevocationReason} {at_ : Instant}
    (hrows : s'.rows = s.rows.revokeWhere p reason at_) (hhistory : s'.history = s.history) :
    Effect i c s s' :=
  .sweep _ (.ite p reason at_) hrows hhistory

theorem took_effect {a : c.Answer} (h : Took i c s a s') : Effect i c s s' := by
  obtain ⟨⟨at_, hans⟩, hhistory⟩ := h
  cases c with
  | findToken h => exact .same hans.1 (by simpa [events] using hhistory)
  | statusCheck u => exact .same hans (by simpa [events] using hhistory)
  | loadDevice t d => exact .same hans (by simpa [events] using hhistory)
  | activeTokens u => exact .same (Prod.mk.inj hans).2 (by simpa [events] using hhistory)
  | revokeToken id => exact .where_ (Prod.mk.inj hans).2 (by simpa [events] using hhistory)
  | revokeUserTokens u => exact .where_ (Prod.mk.inj hans).2 (by simpa [events] using hhistory)
  | onTokenCompromise u f devices =>
    obtain ⟨p, hrows⟩ := hans
    exact .where_ hrows (by simpa [events] using hhistory)
  | revokeDeviceTokens t d =>
    rcases hans with hans | ⟨_, hrows⟩
    · exact .where_ (Prod.mk.inj hans).2 (by simpa [events] using hhistory)
    · exact .same hrows (by simpa [events] using hhistory)
  | revokeFamily u fam =>
    refine .family u fam _ rfl (.ite _ .compromise at_) ?_ (Prod.mk.inj hans).2 hhistory
    intro t hu hfam
    simp [hu, hfam]
  | issueCapped t max => exact .issue t max _ rfl (.ite _ .evicted at_) (Prod.mk.inj hans).2 hhistory
  | rotateToken p t =>
    have hrows := (Prod.mk.inj hans).2
    by_cases hlive : s.rows.live p = true
    · obtain ⟨r, hr, hid⟩ := List.any_eq_true.mp hlive
      rw [Bool.and_eq_true, beq_iff_eq, Bool.not_eq_true'] at hid
      obtain ⟨rfl, hrlive⟩ := hid
      rw [TokenTable.rotate, if_pos hlive] at hrows
      rw [events, if_pos hlive] at hhistory
      refine .rotate r t _ rfl hr hrlive (.ite _ .rotated t.issuedAt) ?_ hrows hhistory
      intro t' hid
      simp [hid]
    · rw [TokenTable.rotate, if_neg hlive] at hrows
      rw [events, if_neg hlive] at hhistory
      exact .same hrows (by simpa using hhistory)

theorem contract_effect {a : c.Answer} (h : contract i c s a s') : Effect i c s s' := by
  rcases h with h | ⟨_, rfl | ⟨_, h⟩⟩
  · exact took_effect h
  · exact .same rfl rfl
  · exact took_effect h

theorem contract_found {h : String} {r : RefreshToken}
    (hX : contract i (.findToken h) s (.ok (some r)) s') : r ∈ s.rows ∧ r.tokenHash = h := by
  rcases hX with ⟨⟨at_, _, hans⟩, _⟩ | ⟨hfault, _⟩
  · rcases hans with ⟨habs, _⟩ | ⟨r', hr', hh, heq⟩
    · cases habs
    · cases heq
      exact ⟨hr', hh⟩
  · cases hfault

end Ledger

inductive RefreshTask where
  | refresh (refresh : Refresh) (config : RefreshTokenConfig) (draw : TokenDraw) (now : Instant)
  | issue (req : IssueRequest) (config : RefreshTokenConfig) (draw : TokenDraw) (now : Instant)
  | revoke (plaintext : String) (tenant : Option TenantId) (config : RefreshTokenConfig)
  | revokeFamily (userId : UserId) (familyId : TokenFamilyId)
  | revokeUserTokens (userId : UserId)
  | revokeDeviceTokens (tenantId : TenantId) (deviceId : DeviceId)

inductive TaskResult (V : Type) where
  | refreshed (found : Option RefreshToken) (result : RefreshResult V)
  | issued (result : Except RefreshError (String × RefreshToken))
  | revoked

namespace RefreshTask

def prog (digest : TokenDigest) : RefreshTask → RefreshProg (TaskResult V)
  | refresh r config draw now => do
    let (found, result) ← r.runFound digest config draw now
    pure (.refreshed found result)
  | issue req config draw now => do
    let result ← issueRefreshToken digest req config draw now
    pure (.issued result)
  | revoke plaintext tenant config => do
    let _ ← revokeScoped digest plaintext tenant config
    pure .revoked
  | revokeFamily u f => do
    let _ ← (RefreshCall.revokeFamily u f).make
    pure .revoked
  | revokeUserTokens u => do
    let _ ← (RefreshCall.revokeUserTokens u).make
    pure .revoked
  | revokeDeviceTokens t d => do
    let _ ← (RefreshCall.revokeDeviceTokens t d).make
    pure .revoked

def draws : RefreshTask → Option RefreshTokenId
  | refresh _ _ draw _ => some draw.id
  | issue _ _ draw _ => some draw.id
  | _ => none

end RefreshTask

/-- What the token that replaces `r` has to do with it. -/
structure Replaces (config : RefreshTokenConfig) (now : Instant) (r t : RefreshToken) : Prop where
  userId : t.userId = r.userId
  familyId : t.familyId = some r.family
  authnTime : t.authnTime = some r.authenticatedAt
  moved : config.rotation = false → t.expiresAt = r.expiresAt
  capped : config.rotation = true → ∀ stop, config.lifetimeEnd r.authenticatedAt = some stop →
    t.expiresAt ≤ stop

/-- What the token of an issue carries. -/
structure IssuedAt (config : RefreshTokenConfig) (now : Instant) (t : RefreshToken) : Prop where
  issuedAt : t.issuedAt = now
  authnTime : t.authnTime = none
  capped : ∀ stop, config.lifetimeEnd now = some stop → t.expiresAt ≤ stop

variable {config : RefreshTokenConfig} {now : Instant} {t : RefreshToken}

theorem Replaces.of_core {r r' : RefreshToken} (h : Replaces config now r t)
    (hcore : r.core = r'.core) : Replaces config now r' t := by
  have huser := RefreshToken.core_congr RefreshToken.userId (fun _ => rfl) hcore
  have hfamily := RefreshToken.core_congr RefreshToken.family (fun _ => rfl) hcore
  have hauthn := RefreshToken.core_congr RefreshToken.authenticatedAt (fun _ => rfl) hcore
  have hexp := RefreshToken.core_congr RefreshToken.expiresAt (fun _ => rfl) hcore
  exact ⟨huser ▸ h.userId, hfamily ▸ h.familyId, hauthn ▸ h.authnTime, hexp ▸ h.moved,
    hauthn ▸ h.capped⟩

theorem expiresAt_le_of_build {digest : TokenDigest} {plaintext : String} {req : IssueRequest}
    {id : RefreshTokenId} {authnTime : Option Instant}
    (h : buildRefreshTokenFor digest plaintext req config id now authnTime = some t)
    {stop : Instant} (hstop : config.lifetimeEnd (authnTime.getD now) = some stop) :
    t.expiresAt ≤ stop := by
  obtain ⟨slidingEnd, _, rfl⟩ := Option.map_eq_some_iff.mp h
  simp only [hstop]
  exact min_le_right _ _

theorem replacementFor_spec {digest : TokenDigest} {plaintext pl : String} {draw : TokenDraw}
    {found : Located} {info : Option String}
    (h : replacementFor digest plaintext config draw now found info = .token pl t) :
    t.id = draw.id ∧ Replaces config now found.record t := by
  unfold replacementFor at h
  cases hrotation : config.rotation with
  | true =>
    rw [if_pos hrotation] at h
    split at h
    · cases h
    · next fresh hbuild =>
      cases h
      have hcap : ∀ stop, config.lifetimeEnd found.record.authenticatedAt = some stop →
          t.expiresAt ≤ stop := fun _ => expiresAt_le_of_build hbuild
      obtain ⟨slidingEnd, _, rfl⟩ := Option.map_eq_some_iff.mp hbuild
      refine ⟨rfl, ⟨rfl, rfl, rfl, fun hoff => ?_, fun _ stop hstop => hcap stop hstop⟩⟩
      rw [hrotation] at hoff
      cases hoff
  | false =>
    rw [if_neg (by simp [hrotation])] at h
    split at h
    · split at h
      · cases h
      · next moved hbuild =>
        cases h
        obtain ⟨slidingEnd, _, rfl⟩ := Option.map_eq_some_iff.mp hbuild
        refine ⟨rfl, ⟨rfl, rfl, rfl, fun _ => rfl, fun hon => ?_⟩⟩
        rw [hrotation] at hon
        cases hon
    · cases h

/-! ## What a member of the run may do -/

namespace Ledger

def ids (s : Ledger ι) : List RefreshTokenId := s.rows.map (·.id)

variable (task : ι → RefreshTask)

def MayRotate (i : ι) (r t : RefreshToken) : Prop :=
  ∃ refresh config draw now, task i = .refresh refresh config draw now ∧ t.id = draw.id ∧
    Replaces config now r t

def MayIssue (i : ι) (t : RefreshToken) : Prop :=
  ∃ req config draw now, task i = .issue req config draw now ∧ t.id = draw.id ∧
    IssuedAt config now t

/-- A record is stored under an id that is new, and replaces a row if it is a replacement. -/
def Permits (i : ι) (s : Ledger ι) : RefreshCall → Prop
  | .issueCapped t _ => t.id ∉ s.ids ∧ MayIssue task i t
  | .rotateToken p t => t.id ∉ s.ids ∧ ∃ r ∈ s.rows, r.id = p ∧ MayRotate task i r t
  | _ => True

def Guarantee (i : ι) (s s' : Ledger ι) : Prop := ∃ c, Permits task i s c ∧ Effect i c s s'

def parents (history : List (ι × StoreEvent)) : List RefreshTokenId :=
  history.filterMap fun e =>
    match e.2 with
    | .rotated p _ => some p
    | _ => none

structure ChainInv (s : Ledger ι) : Prop where
  ids : s.ids.Nodup
  once : (parents s.history).Nodup
  parent : ∀ i p t, (i, .rotated p t) ∈ s.history →
    ∃ r ∈ s.rows, r.id = p ∧ r.revoked = true ∧ MayRotate task i r t
  child : ∀ i p t, (i, .rotated p t) ∈ s.history → ∃ r ∈ s.rows, r.core = t.core
  issued : ∀ i t, (i, .issued t) ∈ s.history → MayIssue task i t ∧ ∃ r ∈ s.rows, r.core = t.core

variable {task} {i : ι} {c : RefreshCall} {s s' : Ledger ι}

theorem Effect.rows (h : Effect i c s s') : ∃ f, Revoking f ∧ ∃ more, s'.rows = s.rows.map f ++ more := by
  cases h with
  | sweep f hf hrows => exact ⟨f, hf, [], by rw [hrows, List.append_nil]⟩
  | family u fam f _ hf _ hrows => exact ⟨f, hf, [], by rw [hrows, List.append_nil]⟩
  | issue t max f _ hf hrows => exact ⟨f, hf, [t], hrows⟩
  | rotate r t f _ _ _ hf _ hrows => exact ⟨f, hf, [t], hrows⟩

theorem Effect.kept (h : Effect i c s s') {r : RefreshToken} (hr : r ∈ s.rows) :
    ∃ r' ∈ s'.rows, r'.core = r.core ∧ (r.revoked = true → r'.revoked = true) := by
  obtain ⟨f, hf, more, hrows⟩ := h.rows
  refine ⟨f r, ?_, hf.core r, hf.revoked⟩
  rw [hrows]
  exact List.mem_append_left _ (List.mem_map_of_mem hr)

theorem ids_map {f : RefreshToken → RefreshToken} (hf : Revoking f) (rows : TokenTable) :
    (rows.map f).map (·.id) = rows.map (·.id) := by
  rw [List.map_map]
  exact List.map_congr_left fun t _ => hf.id t

theorem ChainInv.unique (hs : ChainInv task s) {r r' : RefreshToken} (hr : r ∈ s.rows)
    (hr' : r' ∈ s.rows) (h : r.id = r'.id) : r = r' :=
  List.inj_on_of_nodup_map hs.ids hr hr' h

theorem ChainInv.past (hs : ChainInv task s) (s' : Ledger ι)
    (hkept : ∀ r ∈ s.rows, ∃ r' ∈ s'.rows, r'.core = r.core ∧ (r.revoked = true → r'.revoked = true)) :
    (∀ i p t, (i, .rotated p t) ∈ s.history →
      ∃ r ∈ s'.rows, r.id = p ∧ r.revoked = true ∧ MayRotate task i r t) ∧
    (∀ i p t, (i, .rotated p t) ∈ s.history → ∃ r ∈ s'.rows, r.core = t.core) ∧
    (∀ i t, (i, .issued t) ∈ s.history → MayIssue task i t ∧ ∃ r ∈ s'.rows, r.core = t.core) := by
  refine ⟨fun i p t h => ?_, fun i p t h => ?_, fun i t h => ?_⟩
  · obtain ⟨r, hr, hid, hrev, refresh, config, draw, now, htask, hdraw, hrep⟩ := hs.parent i p t h
    obtain ⟨r', hr', hcore, hrev'⟩ := hkept r hr
    exact ⟨r', hr', (RefreshToken.id_eq_of_core hcore).trans hid, hrev' hrev, refresh, config, draw,
      now, htask, hdraw, hrep.of_core hcore.symm⟩
  · obtain ⟨r, hr, hcore⟩ := hs.child i p t h
    obtain ⟨r', hr', hcore', _⟩ := hkept r hr
    exact ⟨r', hr', hcore'.trans hcore⟩
  · obtain ⟨hissue, r, hr, hcore⟩ := hs.issued i t h
    obtain ⟨r', hr', hcore', _⟩ := hkept r hr
    exact ⟨hissue, r', hr', hcore'.trans hcore⟩

theorem ChainInv.sweep (hs : ChainInv task s) {f : RefreshToken → RefreshToken} (hf : Revoking f)
    (hrows : s'.rows = s.rows.map f) (hhistory : s'.history = s.history ∨
      ∃ u fam, s'.history = s.history ++ [(i, .familyRevoked u fam)]) : ChainInv task s' := by
  obtain ⟨hparent, hchild, hissued⟩ := hs.past s' fun r hr =>
    ⟨f r, hrows ▸ List.mem_map_of_mem hr, hf.core r, hf.revoked⟩
  have hids : s'.ids = s.ids := by rw [Ledger.ids, hrows, ids_map hf, Ledger.ids]
  have hin : ∀ j e, (j, e) ∈ s'.history → (j, e) ∈ s.history ∨ ∃ u fam, e = .familyRevoked u fam := by
    intro j e h
    rcases hhistory with heq | ⟨u, fam, heq⟩
    · exact .inl (heq ▸ h)
    · rw [heq, List.mem_append, List.mem_singleton] at h
      rcases h with h | h
      · exact .inl h
      · exact .inr ⟨u, fam, (Prod.mk.inj h).2⟩
  refine ⟨hids ▸ hs.ids, ?_, fun j p t h => ?_, fun j p t h => ?_, fun j t h => ?_⟩
  · rcases hhistory with heq | ⟨u, fam, heq⟩
    · exact heq ▸ hs.once
    · rw [heq, parents, List.filterMap_append]
      simpa [parents] using hs.once
  · rcases hin j _ h with h | ⟨u, fam, h⟩
    · exact hparent j p t h
    · cases h
  · rcases hin j _ h with h | ⟨u, fam, h⟩
    · exact hchild j p t h
    · cases h
  · rcases hin j _ h with h | ⟨u, fam, h⟩
    · exact hissued j t h
    · cases h

theorem ids_insert {f : RefreshToken → RefreshToken} (hf : Revoking f) {t : RefreshToken}
    (hrows : s'.rows = s.rows.map f ++ [t]) : s'.ids = s.ids ++ [t.id] := by
  rw [Ledger.ids, hrows, List.map_append, ids_map hf]
  rfl

theorem nodup_insert (hs : s.ids.Nodup) {t : RefreshToken} (hnew : t.id ∉ s.ids) :
    (s.ids ++ [t.id]).Nodup :=
  hs.append (List.nodup_singleton _) (List.disjoint_singleton.mpr hnew)

theorem ChainInv.issue (hs : ChainInv task s) {f : RefreshToken → RefreshToken} (hf : Revoking f)
    {t : RefreshToken} (hnew : t.id ∉ s.ids) (hissue : MayIssue task i t)
    (hrows : s'.rows = s.rows.map f ++ [t])
    (hhistory : s'.history = s.history ++ [(i, .issued t)]) : ChainInv task s' := by
  obtain ⟨hparent, hchild, hissued⟩ := hs.past s' fun r hr =>
    ⟨f r, hrows ▸ List.mem_append_left _ (List.mem_map_of_mem hr), hf.core r, hf.revoked⟩
  have hin : ∀ j e, (j, e) ∈ s'.history → (j, e) ∈ s.history ∨ (j, e) = (i, .issued t) := by
    intro j e h
    rwa [hhistory, List.mem_append, List.mem_singleton] at h
  refine ⟨ids_insert hf hrows ▸ nodup_insert hs.ids hnew, ?_, fun j p r h => ?_, fun j p r h => ?_,
    fun j r h => ?_⟩
  · rw [hhistory, parents, List.filterMap_append]
    simpa [parents] using hs.once
  · exact hparent j p r ((hin j _ h).resolve_right (by simp))
  · exact hchild j p r ((hin j _ h).resolve_right (by simp))
  · rcases hin j _ h with h | h
    · exact hissued j r h
    · cases h
      exact ⟨hissue, t, hrows ▸ List.mem_append_right _ (List.mem_singleton.mpr rfl), rfl⟩

theorem ChainInv.rotate (hs : ChainInv task s) {f : RefreshToken → RefreshToken} (hf : Revoking f)
    {r t : RefreshToken} (hnew : t.id ∉ s.ids) (hr : r ∈ s.rows) (hlive : r.revoked = false)
    (hrotate : MayRotate task i r t) (hdead : ∀ t, t.id = r.id → (f t).revoked = true)
    (hrows : s'.rows = s.rows.map f ++ [t])
    (hhistory : s'.history = s.history ++ [(i, .rotated r.id t)]) : ChainInv task s' := by
  have hmem : f r ∈ s'.rows := hrows ▸ List.mem_append_left _ (List.mem_map_of_mem hr)
  obtain ⟨hparent, hchild, hissued⟩ := hs.past s' fun r hr =>
    ⟨f r, hrows ▸ List.mem_append_left _ (List.mem_map_of_mem hr), hf.core r, hf.revoked⟩
  have hin : ∀ j e, (j, e) ∈ s'.history → (j, e) ∈ s.history ∨ (j, e) = (i, .rotated r.id t) := by
    intro j e h
    rwa [hhistory, List.mem_append, List.mem_singleton] at h
  refine ⟨ids_insert hf hrows ▸ nodup_insert hs.ids hnew, ?_, fun j p r' h => ?_,
    fun j p r' h => ?_, fun j r' h => ?_⟩
  · -- a parent of an earlier rotation is revoked, and this one was live
    have hout : r.id ∉ parents s.history := by
      intro h
      obtain ⟨⟨j, e⟩, hje, hpe⟩ := List.mem_filterMap.mp h
      cases e with
      | issued => cases hpe
      | familyRevoked => cases hpe
      | rotated p t' =>
        cases hpe
        obtain ⟨r', hr', hid, hrev, _⟩ := hs.parent j _ t' hje
        rw [hs.unique hr' hr hid, hlive] at hrev
        cases hrev
    rw [hhistory, parents, List.filterMap_append]
    exact hs.once.append (List.nodup_singleton _) (List.disjoint_singleton.mpr hout)
  · rcases hin j _ h with h | h
    · exact hparent j p r' h
    · cases h
      obtain ⟨refresh, config, draw, now, htask, hdraw, hrep⟩ := hrotate
      exact ⟨f r, hmem, hf.id r, hdead r rfl, refresh, config, draw, now, htask, hdraw,
        hrep.of_core (hf.core r).symm⟩
  · rcases hin j _ h with h | h
    · exact hchild j p r' h
    · cases h
      exact ⟨t, hrows ▸ List.mem_append_right _ (List.mem_singleton.mpr rfl), rfl⟩
  · exact hissued j r' ((hin j _ h).resolve_right (by simp))

theorem ChainInv.step (hs : ChainInv task s) (h : Guarantee task i s s') : ChainInv task s' := by
  obtain ⟨c, hperm, heff⟩ := h
  cases heff with
  | sweep f hf hrows hhistory => exact hs.sweep (i := i) hf hrows (.inl hhistory)
  | family u fam f _ hf _ hrows hhistory => exact hs.sweep hf hrows (.inr ⟨u, fam, hhistory⟩)
  | issue t max f hc hf hrows hhistory =>
    subst hc
    exact hs.issue hf hperm.1 hperm.2 hrows hhistory
  | rotate r t f hc hr hlive hf hdead hrows hhistory =>
    subst hc
    obtain ⟨hnew, r', hr', hid, hrotate⟩ := hperm
    rw [hs.unique hr' hr hid] at hrotate
    exact hs.rotate hf hnew hr hlive hrotate hdead hrows hhistory

/-- Tokens that are revoked for good: no rotation leads out of the set. -/
structure Sealed (dead : Set RefreshTokenId) (s : Ledger ι) : Prop where
  revoked : ∀ d ∈ dead, ∃ r ∈ s.rows, r.id = d ∧ r.revoked = true
  closed : ∀ i p t, (i, .rotated p t) ∈ s.history → p ∈ dead → t.id ∈ dead

def Known (r : RefreshToken) (s : Ledger ι) : Prop := ∃ r' ∈ s.rows, r'.core = r.core

variable (task) in
def Unused (i : ι) (s : Ledger ι) : Prop := ∀ d, (task i).draws = some d → d ∉ s.ids

theorem Known.step {r : RefreshToken} (hr : Known r s) (h : Guarantee task i s s') : Known r s' := by
  obtain ⟨r', hr', hcore⟩ := hr
  obtain ⟨c, _, heff⟩ := h
  obtain ⟨r'', hr'', hcore', _⟩ := heff.kept hr'
  exact ⟨r'', hr'', hcore'.trans hcore⟩

theorem Sealed.step {dead : Set RefreshTokenId} (hd : Sealed dead s) (hs : ChainInv task s)
    (h : Guarantee task i s s') : Sealed dead s' := by
  obtain ⟨c, _, heff⟩ := h
  refine ⟨fun d hin => ?_, fun j p t hin hp => ?_⟩
  · obtain ⟨r, hr, hid, hrev⟩ := hd.revoked d hin
    obtain ⟨r', hr', hcore, hrev'⟩ := heff.kept hr
    exact ⟨r', hr', (RefreshToken.id_eq_of_core hcore).trans hid, hrev' hrev⟩
  · cases heff with
    | sweep _ _ _ hhistory => exact hd.closed j p t (hhistory ▸ hin) hp
    | family u fam _ _ _ _ _ hhistory =>
      rw [hhistory, List.mem_append, List.mem_singleton] at hin
      exact hd.closed j p t (hin.resolve_right (by simp)) hp
    | issue r _ _ _ _ _ hhistory =>
      rw [hhistory, List.mem_append, List.mem_singleton] at hin
      exact hd.closed j p t (hin.resolve_right (by simp)) hp
    | rotate r fresh _ _ hr hlive _ _ _ hhistory =>
      rw [hhistory, List.mem_append, List.mem_singleton] at hin
      rcases hin with hin | heq
      · exact hd.closed j p t hin hp
      · -- a rotation needs a parent that is live
        cases heq
        obtain ⟨r', hr', hid, hrev⟩ := hd.revoked _ hp
        rw [hs.unique hr' hr hid, hlive] at hrev
        cases hrev

theorem Guarantee.ids_subset (h : Guarantee task i s s') {d : RefreshTokenId} (hd : d ∈ s'.ids) :
    d ∈ s.ids ∨ (task i).draws = some d := by
  obtain ⟨c, hperm, heff⟩ := h
  cases heff with
  | sweep f hf hrows =>
    rw [Ledger.ids, hrows, ids_map hf] at hd
    exact .inl hd
  | family _ _ f _ hf _ hrows =>
    rw [Ledger.ids, hrows, ids_map hf] at hd
    exact .inl hd
  | issue t _ f hc hf hrows =>
    subst hc
    rw [ids_insert hf hrows, List.mem_append, List.mem_singleton] at hd
    obtain ⟨_, _, _, draw, _, htask, hdraw, _⟩ := hperm
    exact hd.imp_right fun heq => by rw [htask, heq, hdraw]; rfl
  | rotate r t f hc _ _ hf _ hrows =>
    subst hc
    rw [ids_insert hf hrows, List.mem_append, List.mem_singleton] at hd
    obtain ⟨_, _, _, _, _, _, draw, _, htask, hdraw, _⟩ := hperm
    exact hd.imp_right fun heq => by rw [htask, heq, hdraw]; rfl

section Rely

def DistinctDraws (task : ι → RefreshTask) : Prop :=
  ∀ i j d, (task i).draws = some d → (task j).draws = some d → i = j

variable (task) in
def Keeps (J : Ledger ι → Prop) : Prop :=
  ∀ ⦃i s s'⦄, ChainInv task s → Guarantee task i s s' → J s → J s'

theorem keeps_sealed (dead : Set RefreshTokenId) : Keeps task (Sealed dead) :=
  fun _ _ _ hs h hd => hd.step hs h

theorem keeps_known (r : RefreshToken) : Keeps task (Known r) := fun _ _ _ _ h hr => hr.step h

theorem Keeps.and {J K : Ledger ι → Prop} (hJ : Keeps task J) (hK : Keeps task K) :
    Keeps task fun s => J s ∧ K s :=
  fun _ _ _ hs h hJK => ⟨hJ hs h hJK.1, hK hs h hJK.2⟩

variable (task) in
def Sound (J : Ledger ι → Prop) (s : Ledger ι) : Prop := ChainInv task s ∧ J s

variable {J : Ledger ι → Prop}

theorem Sound.step (hJ : Keeps task J) (hs : Sound task J s) (h : Guarantee task i s s') :
    Sound task J s' :=
  ⟨hs.1.step h, hJ hs.1 h hs.2⟩

theorem sound_stable (hJ : Keeps task J) :
    Stable (Pool.others (Guarantee task) i) (Sound task J) :=
  fun _ _ hs ⟨_, _, h⟩ => hs.step hJ h

theorem known_stable (r : RefreshToken) :
    Stable (Pool.others (Guarantee task) i) (Known r : Ledger ι → Prop) :=
  fun _ _ hs ⟨_, _, h⟩ => hs.step h

theorem unused_stable (hdraws : DistinctDraws task) :
    Stable (Pool.others (Guarantee task) i) (Unused task i) := by
  rintro s s' hs ⟨j, hj, h⟩ d hd hin
  rcases h.ids_subset hin with hin | heq
  · exact hs d hd hin
  · exact hj (hdraws j i d heq hd)

end Rely

end Ledger

end Axess
