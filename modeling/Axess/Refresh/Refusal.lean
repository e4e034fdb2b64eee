import Axess.Refresh.Rotation

/-!
# What a refused refresh leaves behind

A refresh makes its calls one by one while other callers of the store make theirs. A run is the
list of its calls, each with the table it found and the table it left: between two of them the
table may become any other one.

Every check of a refresh only reads, and `rotate_token` stores nothing when it finds the parent
revoked. So a refusal that is not a reuse has changed nothing, and a family is revoked for the
reuse of the token that was presented, and for nothing else.
-/

namespace Axess

open Calls

variable {V : Type}

/-- One call of a run, with the table the other callers had left and the table after it. -/
structure TableStep where
  before : TokenTable
  call : RefreshCall
  after : TokenTable

/-- A hash belongs to one token, and that token to one tenant. -/
def TokenTable.Keyed (owner : String → TenantId) (rows : TokenTable) : Prop :=
  ∀ r ∈ rows, r.tenantId = owner r.tokenHash

/-- The store among other callers: a call takes effect, or it fails; one that fails may have taken
effect all the same. -/
def Disturbed (owner : String → TenantId) :
    Sem RefreshCall RefreshCall.Answer (List TableStep) := fun c log a log' =>
  ∃ before after, before.Keyed owner ∧ log' = log ++ [⟨before, c, after⟩] ∧
    ((∃ at_, TokenTable.Answers at_ c before a after) ∨
      TokenTable.fault c = some a ∧
        (after = before ∨ ∃ at_ b, TokenTable.Answers at_ c before b after))

/-- The refusals that are not a reuse. -/
def RefreshError.refuses : RefreshError → Bool
  | .notFound => true
  | .expired => true
  | .accountInactive => true
  | .deviceRevoked => true
  | .deviceMismatch => true
  | .concurrentRefresh => true
  | .invalidConfig _ => true
  | _ => false

def RefreshResult.refuses : RefreshResult V → Bool
  | .error e => e.refuses
  | .ok _ => false

def RefreshCall.isRevokeFamily : RefreshCall → Bool
  | .revokeFamily .. => true
  | _ => false

def Refresh.Presented (digest : TokenDigest) (config : RefreshTokenConfig) (refresh : Refresh)
    (r : RefreshToken) : Prop :=
  r.tokenHash = digest.hashToken refresh.plaintext config.pepper ∨
    ∃ previous, config.previousPepper = some previous ∧
      r.tokenHash = digest.hashToken refresh.plaintext previous

/-- A stored token that was rotated out, or revoked for no stated reason, and is presented outside
the grace of its revocation. -/
structure RefreshToken.Reused (r : RefreshToken) (config : RefreshTokenConfig) (now : Instant) :
    Prop where
  revoked : r.revoked = true
  reason : r.revokedReason = none ∨ r.revokedReason = some .rotated
  late : ∀ at_, r.revokedAt = some at_ → config.reuseGrace ≤ (now - at_).natAbs

section Frame

variable (digest : TokenDigest) (config : RefreshTokenConfig) (now : Instant) (refresh : Refresh)

/-- What the revocation of a family is for: the token that was presented, as the store held it, of
the tenant of the request. -/
def Refresh.Avenges (rows : TokenTable) (u : UserId) (f : TokenFamilyId) : Prop :=
  ∃ r ∈ rows, refresh.Presented digest config r ∧ r.Reused config now ∧
    (∀ t, refresh.tenant = some t → r.tenantId = t) ∧ u = r.userId ∧ f = r.family

/-- The calls of a run: a refusal changed no table, and a family is revoked at most once, for a
reuse that an earlier call of the run has read. -/
structure Refresh.Lawful (refused : Bool) (log : List TableStep) : Prop where
  unchanged : refused = true → ∀ step ∈ log, step.after = step.before
  avenges : ∀ step ∈ log, ∀ u f, step.call = .revokeFamily u f →
    ∃ read ∈ log, refresh.Avenges digest config now read.before u f
  once : log.countP (·.call.isRevokeFamily) ≤ 1

structure Reading (log : List TableStep) : Prop where
  unchanged : ∀ step ∈ log, step.after = step.before
  none : ∀ step ∈ log, step.call.isRevokeFamily = false

def RefreshCall.reads : RefreshCall → Bool
  | .findToken _ => true
  | .activeTokens _ => true
  | .statusCheck _ => true
  | .loadDevice .. => true
  | _ => false

variable {owner : String → TenantId} {log log' : List TableStep}

theorem Reading.nil : Reading [] := ⟨by simp, by simp⟩

theorem Reading.snoc {step : TableStep} (h : Reading log) (hsame : step.after = step.before)
    (hcall : step.call.isRevokeFamily = false) : Reading (log ++ [step]) := by
  constructor
  · intro s hs
    rw [List.mem_append, List.mem_singleton] at hs
    rcases hs with hs | rfl
    · exact h.unchanged s hs
    · exact hsame
  · intro s hs
    rw [List.mem_append, List.mem_singleton] at hs
    rcases hs with hs | rfl
    · exact h.none s hs
    · exact hcall

theorem Reading.read {c : RefreshCall} {a : c.Answer} (h : Reading log) (hc : c.reads = true)
    (hX : Disturbed owner c log a log') : Reading log' := by
  obtain ⟨before, after, -, rfl, hanswer⟩ := hX
  have hsame (b : c.Answer) (at_ : Instant) (hb : TokenTable.Answers at_ c before b after) :
      after = before := by
    cases c with
    | findToken hash => exact hb.1
    | activeTokens u => exact congrArg Prod.snd hb
    | statusCheck u => exact hb
    | loadDevice t d => exact hb
    | _ => cases hc
  have hcall : c.isRevokeFamily = false := by
    cases c with
    | revokeFamily => cases hc
    | _ => rfl
  refine h.snoc ?_ hcall
  rcases hanswer with ⟨at_, hb⟩ | ⟨-, heq | ⟨at_, b, hb⟩⟩
  · exact hsame a at_ hb
  · exact heq
  · exact hsame b at_ hb

def Read (r : RefreshToken) (log : List TableStep) : Prop := ∃ step ∈ log, r ∈ step.before

theorem read_of_found {h : String} {r : RefreshToken}
    (hX : Disturbed owner (.findToken h) log (.ok (some r)) log') :
    Read r log' ∧ r.tokenHash = h ∧ r.tenantId = owner h := by
  obtain ⟨before, after, hkeyed, rfl, hanswer⟩ := hX
  rcases hanswer with ⟨at_, -, ⟨hnone, -⟩ | ⟨r', hr', hhash, hok⟩⟩ | ⟨hfault, -⟩
  · cases hnone
  · cases hok
    exact ⟨⟨_, List.mem_append_right _ (List.mem_singleton_self _), hr'⟩, hhash,
      hhash ▸ hkeyed r hr'⟩
  · cases hfault

theorem Read.after {r : RefreshToken} {c : RefreshCall} {a : c.Answer} (h : Read r log)
    (hX : Disturbed owner c log a log') : Read r log' := by
  obtain ⟨s, hs, hr⟩ := h
  obtain ⟨_, _, -, rfl, -⟩ := hX
  exact ⟨s, List.mem_append_left _ hs, hr⟩

variable {digest config now refresh}

theorem Reading.countP_revokeFamily (h : Reading log) :
    log.countP (·.call.isRevokeFamily) = 0 :=
  List.countP_eq_zero.mpr fun step hstep => by simp [h.none step hstep]

theorem Reading.no_revocation {step : TableStep} {u : UserId} {f : TokenFamilyId}
    (h : Reading log) (hstep : step ∈ log) : step.call ≠ .revokeFamily u f := by
  intro hcall
  have hno := h.none step hstep
  rw [hcall] at hno
  cases hno

theorem Reading.lawful (h : Reading log) (refused : Bool) :
    refresh.Lawful digest config now refused log where
  unchanged _ := h.unchanged
  avenges _ hstep _ _ hcall := absurd hcall (h.no_revocation hstep)
  once := by
    rw [h.countP_revokeFamily]
    exact Nat.zero_le 1

theorem Reading.lawful_revocation {seen : TableStep} {u : UserId} {f : TokenFamilyId}
    {before after : TokenTable} (h : Reading log) (hseen : seen ∈ log)
    (havenged : refresh.Avenges digest config now seen.before u f) :
    refresh.Lawful digest config now false (log ++ [⟨before, .revokeFamily u f, after⟩]) := by
  refine ⟨nofun, fun s hs u' f' hcall => ⟨seen, List.mem_append_left _ hseen, ?_⟩, ?_⟩
  · rw [List.mem_append, List.mem_singleton] at hs
    rcases hs with hs | rfl
    · exact absurd hcall (h.no_revocation hs)
    · cases hcall
      exact havenged
  · rw [List.countP_append, h.countP_revokeFamily]
    exact Nat.le_refl 1

theorem Refresh.Lawful.snoc {refused : Bool} {step : TableStep}
    (h : refresh.Lawful digest config now refused log) (hcall : step.call.isRevokeFamily = false) :
    refresh.Lawful digest config now false (log ++ [step]) := by
  refine ⟨nofun, fun s hs u f heq => ?_, ?_⟩
  · rw [List.mem_append, List.mem_singleton] at hs
    rcases hs with hs | rfl
    · obtain ⟨read, hread, havenged⟩ := h.avenges s hs u f heq
      exact ⟨read, List.mem_append_left _ hread, havenged⟩
    · rw [heq] at hcall
      cases hcall
  · rw [List.countP_append, List.countP_singleton, hcall]
    exact h.once

variable {record : RefreshToken}

theorem reuse_revocation_ends {seen : TableStep} (h : Reading log) (hseen : seen ∈ log)
    (havenged : refresh.Avenges digest config now seen.before record.userId record.family) :
    (do
      let devices ← collectFamilyDeviceTargets record.family record
      let _ ← (RefreshCall.revokeFamily record.userId record.family).make
      (RefreshCall.onTokenCompromise record.userId record.family devices).make
      pure RefreshError.revoked : RefreshProg RefreshError).Ends (Disturbed owner)
      (fun e log' => refresh.Lawful digest config now e.refuses log') log := by
  refine Prog.Ends.bind (Q := fun _ log' => Reading log' ∧ seen ∈ log') ?_
    fun devices log₁ hlog₁ => ?_
  · -- the devices of the family are only listed
    refine Prog.Ends.perform_bind fun active log₁ hX => ?_
    have hin : seen ∈ log₁ := by
      obtain ⟨_, _, -, rfl, -⟩ := hX
      exact List.mem_append_left _ hseen
    cases active <;> exact .ret ⟨h.read rfl hX, hin⟩
  · refine Prog.Ends.perform_bind fun revoked log₂ hX => ?_
    refine Prog.Ends.perform_bind fun hook log₃ hX' => ?_
    obtain ⟨before, after, -, rfl, -⟩ := hX
    obtain ⟨before', after', -, rfl, -⟩ := hX'
    exact .ret ((hlog₁.1.lawful_revocation hlog₁.2 havenged).snoc rfl)

theorem handleRevokedReuse_ends (h : Reading log) (hread : Read record log)
    (hpresented : refresh.Presented digest config record)
    (htenant : ∀ t, refresh.tenant = some t → record.tenantId = t)
    (hrevoked : record.revoked = true) :
    (handleRevokedReuse record config now).Ends (Disturbed owner)
      (fun e log' => refresh.Lawful digest config now e.refuses log') log := by
  obtain ⟨seen, hseen, hrow⟩ := hread
  unfold handleRevokedReuse
  split
  · exact .ret (h.lawful _)
  · exact .ret (h.lawful _)
  · exact .ret (h.lawful _)
  · exact .ret (h.lawful _)
  · next reason hexplicit hevicted hcompromise hdevice =>
    have hreason : record.revokedReason = none ∨ record.revokedReason = some .rotated := by
      cases hr : record.revokedReason with
      | none => exact .inl rfl
      | some reason =>
        cases reason with
        | rotated => exact .inr rfl
        | explicit => exact absurd hr hexplicit
        | evicted => exact absurd hr hevicted
        | compromise => exact absurd hr hcompromise
        | device => exact absurd hr hdevice
    split
    · exact .ret (h.lawful _)
    · next hgrace =>
      refine reuse_revocation_ends h hseen
        ⟨record, hrow, hpresented, ⟨hrevoked, hreason, fun at_ hat => ?_⟩, htenant, rfl, rfl⟩
      rw [hat] at hgrace
      simpa using hgrace

/-! ## The whole refresh -/

/-- A record an earlier call found under a hash of the plaintext. -/
structure Found (owner : String → TenantId) (digest : TokenDigest) (config : RefreshTokenConfig)
    (refresh : Refresh) (log : List TableStep) (r : RefreshToken) : Prop where
  read : Read r log
  presented : refresh.Presented digest config r
  tenant : r.tenantId = owner r.tokenHash

theorem Found.after {c : RefreshCall} {a : c.Answer}
    (h : Found owner digest config refresh log record) (hX : Disturbed owner c log a log') :
    Found owner digest config refresh log' record := ⟨h.read.after hX, h.presented, h.tenant⟩

theorem find_ends (h : Reading log) :
    (refresh.find digest config).Ends (Disturbed owner)
      (fun r log' => Reading log' ∧ ∀ found, r = .ok found →
        Found owner digest config refresh log' found.record) log := by
  unfold Refresh.find
  split
  · exact .ret ⟨h, fun found hr => by cases hr⟩
  · refine Prog.Ends.bind (Q := fun r log' => Reading log' ∧ ∀ found, r = .ok (some found) →
      Found owner digest config refresh log' found.record) ?_ fun r log₁ hlog₁ => ?_
    · -- under the current pepper, then under the previous one
      refine Prog.Ends.perform_bind fun answer log₁ hX => ?_
      have hreading := h.read rfl hX
      rcases answer with e | _ | record
      · exact .ret ⟨hreading, fun found hr => by cases hr⟩
      · dsimp only
        split
        · exact .ret ⟨hreading, fun found hr => by cases hr⟩
        · next previous hprevious =>
          refine Prog.Ends.perform_bind fun answer log₂ hX' => ?_
          rcases answer with e | _ | record
          · exact .ret ⟨hreading.read rfl hX', fun found hr => by cases hr⟩
          · exact .ret ⟨hreading.read rfl hX', fun found hr => by cases hr⟩
          · refine .ret ⟨hreading.read rfl hX', fun found hr => ?_⟩
            cases hr
            obtain ⟨hread, hhash, htenant⟩ := read_of_found hX'
            exact ⟨hread, .inr ⟨previous, hprevious, hhash⟩, hhash ▸ htenant⟩
      · refine .ret ⟨hreading, fun found hr => ?_⟩
        cases hr
        obtain ⟨hread, hhash, htenant⟩ := read_of_found hX
        exact ⟨hread, .inl hhash, hhash ▸ htenant⟩
    · obtain ⟨hreading, hfound⟩ := hlog₁
      rcases r with e | _ | found
      · exact .ret ⟨hreading, fun found hr => by cases hr⟩
      · exact .ret ⟨hreading, fun found hr => by cases hr⟩
      · refine .ret ⟨hreading, fun found' hr => ?_⟩
        cases hr
        exact hfound found rfl

theorem lostRotation_ends (h : Reading log) (hfound : Found owner digest config refresh log record)
    (htenant : ∀ t, refresh.tenant = some t → record.tenantId = t) :
    (lostRotation config now record).Ends (Disturbed owner)
      (fun r log' => ∃ e, r = .error e ∧ refresh.Lawful digest config now e.refuses log') log := by
  refine Prog.Ends.perform_bind fun answer log₁ hX => ?_
  have hreading := h.read rfl hX
  rcases answer with e | _ | current
  · exact .ret ⟨.store, rfl, hreading.lawful _⟩
  · exact .ret ⟨.notFound, rfl, hreading.lawful _⟩
  · show Prog.Ends _ _ (if !current.revoked then _ else _) _
    split
    · exact .ret ⟨.concurrentRefresh, rfl, hreading.lawful _⟩
    · next hrevoked =>
      -- what is found under the hash of the record is the token that was presented
      obtain ⟨hread, hhash, howner⟩ := read_of_found hX
      have hpresented : refresh.Presented digest config current := by
        unfold Refresh.Presented
        rw [hhash]
        exact hfound.presented
      refine Prog.Ends.bind (handleRevokedReuse_ends hreading hread hpresented (fun t ht => ?_)
        (by simpa using hrevoked)) fun e log₂ hlog₂ => .ret ⟨e, rfl, hlog₂⟩
      rw [howner, ← hfound.tenant]
      exact htenant t ht

theorem rotate_ends {fresh : RefreshToken} (h : Reading log)
    (hfound : Found owner digest config refresh log record)
    (htenant : ∀ t, refresh.tenant = some t → record.tenantId = t) :
    (rotate config now record fresh).Ends (Disturbed owner)
      (fun r log' => (∃ e, r = .error e ∧ refresh.Lawful digest config now e.refuses log') ∨
        r = .ok () ∧ refresh.Lawful digest config now false log') log := by
  refine Prog.Ends.perform_bind fun answer log₁ hX => ?_
  -- whatever the rotation did, it revoked no family
  have hlawful : refresh.Lawful digest config now false log₁ := by
    obtain ⟨before, after, -, rfl, -⟩ := hX
    exact (h.lawful false).snoc rfl
  rcases answer with e | _ | _
  · exact .ret (.inl ⟨.store, rfl, hlawful⟩)
  · exact .ret (.inr ⟨rfl, hlawful⟩)
  · -- the parent was revoked already: nothing was stored
    have hfound₁ := hfound.after hX
    have hreading : Reading log₁ := by
      obtain ⟨before, after, -, rfl, hanswer⟩ := hX
      refine h.snoc ?_ rfl
      rcases hanswer with ⟨at_, heq⟩ | ⟨hfault, -⟩
      · have hrows : Except.ok (before.rotate record.id fresh).1 = _ := (congrArg Prod.fst heq).symm
        have hafter : after = (before.rotate record.id fresh).2 := congrArg Prod.snd heq
        rw [hafter]
        unfold TokenTable.rotate at hrows ⊢
        split at hrows
        · cases hrows
        · next hdead => simp [hdead]
      · cases hfault
    show Prog.Ends _ _ (if config.rotation then _ else _) _
    split
    · exact (lostRotation_ends hreading hfound₁ htenant).conseq fun _ _ hr => .inl hr
    · refine Prog.Ends.perform_bind fun answer log₂ hX' => ?_
      have hreading₂ := hreading.read rfl hX'
      have hfound₂ := hfound₁.after hX'
      rcases answer with e | _ | current
      · exact .ret (.inl ⟨.store, rfl, hreading₂.lawful _⟩)
      · exact (lostRotation_ends hreading₂ hfound₂ htenant).conseq fun _ _ hr => .inl hr
      · show Prog.Ends _ _ (if !current.revoked then _ else _) _
        split
        · exact .ret (.inr ⟨rfl, hreading₂.lawful _⟩)
        · exact (lostRotation_ends hreading₂ hfound₂ htenant).conseq fun _ _ hr => .inl hr

theorem replace_ends {draw : TokenDraw} {found : Located} (h : Reading log)
    (hfound : Found owner digest config refresh log found.record)
    (htenant : ∀ t, refresh.tenant = some t → found.record.tenantId = t)
    (childDeviceInfo : Option String) :
    (refresh.replace digest config draw now found childDeviceInfo :
      RefreshProg (RefreshResult V)).Ends (Disturbed owner)
      (fun r log' => refresh.Lawful digest config now (RefreshResult.refuses r) log') log := by
  unfold Refresh.replace
  split
  · exact .ret (h.lawful _)
  · exact .ret (h.lawful _)
  · refine Prog.Ends.bind (rotate_ends h hfound htenant) fun r log₁ hr => ?_
    rcases hr with ⟨e, rfl, hlawful⟩ | ⟨rfl, hlawful⟩
    · exact .ret hlawful
    · exact .ret hlawful

theorem checkDevice_ends (h : Reading log) (hread : Read record log) :
    (checkDevice refresh record).Ends (Disturbed owner)
      (fun _ log' => Reading log' ∧ Read record log') log := by
  unfold checkDevice
  split
  · exact .ret ⟨h, hread⟩
  · refine Prog.Ends.perform_bind fun answer log₁ hX => ?_
    have hlog₁ : Reading log₁ ∧ Read record log₁ := ⟨h.read rfl hX, hread.after hX⟩
    rcases answer with e | _ | loaded
    · exact .ret hlog₁
    · exact .ret hlog₁
    · show Prog.Ends _ _ (if loaded.revoked then _ else if _ then _ else _) _
      split
      · exact .ret hlog₁
      · split <;> exact .ret hlog₁

theorem proceedLive_ends {draw : TokenDraw} {found : Located} (h : Reading log)
    (hfound : Found owner digest config refresh log found.record)
    (htenant : ∀ t, refresh.tenant = some t → found.record.tenantId = t) :
    (refresh.proceedLive digest config draw now found : RefreshProg (RefreshResult V)).Ends
      (Disturbed owner)
      (fun r log' => refresh.Lawful digest config now (RefreshResult.refuses r) log') log := by
  unfold Refresh.proceedLive
  split
  · exact .ret (h.lawful _)
  · refine Prog.Ends.perform_bind fun active log₁ hX => ?_
    have hreading := h.read rfl hX
    cases active with
    | false => exact .ret (hreading.lawful _)
    | true =>
      refine Prog.Ends.bind (checkDevice_ends hreading (hfound.read.after hX)) fun checked log₂ hlog₂ => ?_
      cases checked with
      | error e => exact .ret (hlog₂.1.lawful _)
      | ok _ =>
        dsimp only
        split
        · exact .ret (hlog₂.1.lawful _)
        · exact replace_ends hlog₂.1 ⟨hlog₂.2, hfound.presented, hfound.tenant⟩ htenant _

variable (digest config now refresh)

/-- A refresh that is refused for another reason than a reuse has changed no table; a family is
revoked at most once, for a token that was presented, of the request's tenant, rotated out and
outside the grace. -/
theorem refresh_run_lawful {owner : String → TenantId} (draw : TokenDraw)
    {result : RefreshResult V} {log : List TableStep}
    (hrun : (refresh.run digest config draw now).Runs (Disturbed owner) [] result log) :
    refresh.Lawful digest config now (RefreshResult.refuses result) log := by
  have hends : (refresh.run digest config draw now).Ends (Disturbed owner)
      (fun (r : RefreshResult V) log' => refresh.Lawful digest config now r.refuses log') [] := ?_
  · exact hends result log hrun
  refine Prog.Ends.bind (Q := fun r log' => Reading log' ∧ ∀ found, r = .ok found →
    Found owner digest config refresh log' found.record) (find_ends Reading.nil)
    fun r log₁ hlog₁ => ?_
  obtain ⟨hreading, hfound⟩ := hlog₁
  cases r with
  | error e => exact .ret (hreading.lawful _)
  | ok found =>
    show Prog.Ends _ _ (if refresh.tenant.any (found.record.tenantId != ·) then _ else _) _
    split
    · exact .ret (hreading.lawful _)
    · next htenant =>
      have htenant' : ∀ t, refresh.tenant = some t → found.record.tenantId = t := by
        intro t ht
        rw [ht] at htenant
        simpa using htenant
      have hf := hfound found rfl
      split
      · next hrevoked =>
        exact Prog.Ends.bind (handleRevokedReuse_ends hreading hf.read hf.presented htenant' hrevoked)
          fun e log₂ hlog₂ => .ret hlog₂
      · exact proceedLive_ends hreading hf htenant'

namespace Refusal

def answer (rows : TokenTable) (c : RefreshCall) (log : List TableStep) :
    c.Answer × List TableStep :=
  ((TokenTable.perform 0 c rows).1, log ++ [⟨rows, c, (TokenTable.perform 0 c rows).2⟩])

def plainDigest : TokenDigest := ⟨fun _ _ => "digest", fun _ => "digest", fun _ => "device"⟩

def rotatedOut : RefreshToken where
  id := ⟨1⟩
  userId := ⟨7⟩
  tenantId := ⟨3⟩
  tokenHash := "digest"
  issuedAt := 0
  expiresAt := 100
  revoked := true
  deviceInfo := none
  familyId := some ⟨9⟩
  deviceId := none
  authnTime := none
  revokedReason := some .rotated
  revokedAt := some 5

def replayed : Refresh := ⟨"token", some ⟨3⟩, none, false⟩

end Refusal

open Refusal in
/-- The rotated token presented once more at time 50: its family is revoked, once. -/
theorem refresh_run_lawful_reuse :
    let run := (replayed.run plainDigest .default ⟨"fresh", ⟨2⟩⟩ 50 :
      RefreshProg (RefreshResult Nat)).eval (answer [rotatedOut]) []
    run.2.map (·.call) = [.findToken "digest", .activeTokens ⟨7⟩, .revokeFamily ⟨7⟩ ⟨9⟩,
        .onTokenCompromise ⟨7⟩ ⟨9⟩ []] ∧
      replayed.Lawful plainDigest .default 50 (RefreshResult.refuses run.1) run.2 := by
  refine ⟨by decide +kernel, ?_⟩
  have hX : ∀ c log, Disturbed (fun _ => ⟨3⟩) c log (answer [rotatedOut] c log).1
      (answer [rotatedOut] c log).2 := fun c log =>
    ⟨[rotatedOut], _, by simp [TokenTable.Keyed, rotatedOut], rfl,
      .inl ⟨0, TokenTable.answers_perform 0 c [rotatedOut]⟩⟩
  exact refresh_run_lawful plainDigest .default 50 replayed ⟨"fresh", ⟨2⟩⟩ (Prog.runs_eval hX _ [])

end Frame

end Axess
