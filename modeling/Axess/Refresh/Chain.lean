import Axess.Refresh.Ledger

/-!
# Rotation chains

Every task keeps the invariant of the ledger among any others. Parents of rotations are revoked
and stay so, hence a token is rotated at most once, and of a chain only the last token can be
live.
-/

namespace Axess

open Calls Relation

variable {V ι : Type}

namespace Ledger

variable {task : ι → RefreshTask} {i : ι} {c : RefreshCall} {s s' : Ledger ι}

def Quiet : RefreshCall → Prop
  | .issueCapped .. => False
  | .rotateToken .. => False
  | _ => True

theorem quiet_guarantee {a : c.Answer} (hc : Quiet c) (hX : contract i c s a s') :
    Guarantee task i s s' ∧ s'.ids = s.ids := by
  have heff := contract_effect hX
  refine ⟨⟨c, ?_, heff⟩, ?_⟩
  · cases c <;> first | exact trivial | exact hc.elim
  · cases heff with
    | sweep f hf hrows => rw [Ledger.ids, hrows, ids_map hf, Ledger.ids]
    | family _ _ f _ hf _ hrows => rw [Ledger.ids, hrows, ids_map hf, Ledger.ids]
    | issue _ _ _ heq => subst heq; exact hc.elim
    | rotate _ _ _ heq => subst heq; exact hc.elim

theorem collectFamilyDeviceTargets_quiet (family : TokenFamilyId) (seen : RefreshToken) :
    (collectFamilyDeviceTargets family seen).Only Quiet :=
  ⟨trivial, fun answer => by cases answer <;> trivial⟩

theorem handleRevokedReuse_quiet (record : RefreshToken) (config : RefreshTokenConfig)
    (now : Instant) : (handleRevokedReuse record config now).Only Quiet := by
  unfold handleRevokedReuse
  split
  · trivial
  · trivial
  · trivial
  · trivial
  · split
    · trivial
    · exact (collectFamilyDeviceTargets_quiet _ _).bind fun _ =>
        ⟨trivial, fun _ => ⟨trivial, fun _ => trivial⟩⟩

theorem lostRotation_quiet (config : RefreshTokenConfig) (now : Instant) (record : RefreshToken) :
    (lostRotation config now record).Only Quiet := by
  refine ⟨trivial, fun answer => ?_⟩
  rcases answer with e | _ | current
  · trivial
  · trivial
  · show Prog.Only Quiet (if !current.revoked then _ else _)
    split
    · trivial
    · exact (handleRevokedReuse_quiet current config now).bind fun _ => trivial

theorem checkDevice_quiet (refresh : Refresh) (record : RefreshToken) :
    (checkDevice refresh record).Only Quiet := by
  unfold checkDevice
  split
  · trivial
  · refine ⟨trivial, fun answer => ?_⟩
    rcases answer with message | _ | device
    · trivial
    · trivial
    · show Prog.Only Quiet (if device.revoked then _ else _)
      split
      · trivial
      · split <;> trivial

/-! ## A refresh among other tasks -/

variable {digest : TokenDigest} {config : RefreshTokenConfig} {draw : TokenDraw} {now : Instant}
  {refresh : Refresh} {dead : Set RefreshTokenId}

structure Accepts (config : RefreshTokenConfig) (now : Instant) (record : RefreshToken)
    (session : SessionData V) : Prop where
  live : record.revoked = false
  unexpired : tokenExpired record config now = false
  session : session = sessionFor record

theorem replace_accepts (found : Located) (info : Option String) :
    (refresh.replace digest config draw now found info : RefreshProg (RefreshResult V)).Within
      (fun _ => True) fun result => ∀ session out, result = .ok (session, out) →
        session = sessionFor found.record := by
  unfold Refresh.replace
  split
  · intro session out h
    cases h
    rfl
  · intro session out h
    cases h
  · refine Prog.Within.bind (Prog.only_true _) fun rotated _ => ?_
    cases rotated with
    | error e =>
      intro session out h
      cases h
    | ok =>
      intro session out h
      cases h
      rfl

theorem accepts_error (found : Located) (e : RefreshError) :
    (pure (.error e) : RefreshProg (RefreshResult V)).Within (fun _ => True)
      fun result => ∀ session out, result = .ok (session, out) →
        Accepts config now found.record session := by
  intro session out h
  cases h

theorem proceedLive_accepts (found : Located) (hlive : found.record.revoked = false) :
    (refresh.proceedLive digest config draw now found : RefreshProg (RefreshResult V)).Within
      (fun _ => True) fun result => ∀ session out, result = .ok (session, out) →
        Accepts config now found.record session := by
  unfold Refresh.proceedLive
  cases hexpired : tokenExpired found.record config now with
  | true => exact accepts_error found _
  | false =>
    rw [if_neg (by decide)]
    refine ⟨trivial, fun active => ?_⟩
    cases active with
    | false => exact accepts_error found _
    | true =>
      show Prog.Within _ _ (checkDevice refresh found.record >>= _)
      refine Prog.Within.bind (Prog.only_true _) fun checked _ => ?_
      cases checked with
      | error e => exact accepts_error found _
      | ok =>
        cases digest.verifyBinding found.record refresh.deviceInfo (found.storedUnder config)
            config.pepper with
        | error e => exact accepts_error found _
        | ok info =>
          exact (replace_accepts found info).mono (fun _ _ => trivial)
            fun result h session out heq => ⟨hlive, hexpired, h session out heq⟩

theorem proceed_accepts (found : Located) :
    (refresh.proceed digest config draw now found : RefreshProg (RefreshResult V)).Within
      (fun _ => True) fun result => ∀ session out, result = .ok (session, out) →
        Accepts config now found.record session := by
  unfold Refresh.proceed
  split
  · exact accepts_error found _
  · cases hrevoked : found.record.revoked with
    | true =>
      exact Prog.Within.bind (Prog.only_true (handleRevokedReuse found.record config now))
        fun e _ => accepts_error found e
    | false => exact proceedLive_accepts found hrevoked

section Member

variable (hdraws : DistinctDraws task) {J : Ledger ι → Prop} (hJ : Keeps task J)

include hJ in
theorem quiet_safe {α : Type} {p : RefreshProg α} (hp : p.Only Quiet) (hs : Sound task J s) :
    p.SafeAmong contract (Guarantee task) i
      (fun _ => Sound task J) s := by
  refine (Prog.Within.safe hp (sound_stable hJ) (fun e w a w' hq hX hw => ?_) hs).conseq
    fun _ _ h => h.2
  obtain ⟨hG, _⟩ : Guarantee task i w w' ∧ _ := quiet_guarantee hq hX
  exact ⟨hG, hw.step hJ hG⟩

def Ready (task : ι → RefreshTask) (J : Ledger ι → Prop) (i : ι) (s : Ledger ι) : Prop :=
  Sound task J s ∧ Unused task i s

include hdraws hJ in
theorem ready_stable :
    Stable (Pool.others (Guarantee task) i) (Ready task J i) :=
  (sound_stable hJ).and (unused_stable hdraws)

include hJ in
theorem Ready.quiet {a : c.Answer} (hs : Ready task J i s) (hX : contract i c s a s')
    (hc : Quiet c) : Guarantee task i s s' ∧ Ready task J i s' := by
  obtain ⟨hG, hids⟩ : Guarantee task i s s' ∧ _ := quiet_guarantee hc hX
  refine ⟨hG, hs.1.step hJ hG, fun d hd hin => hs.2 d hd ?_⟩
  rwa [hids] at hin

include hdraws hJ in
theorem rotate_safe (record fresh : RefreshToken) (htask : MayRotate task i record fresh)
    (hs : Ready task J i s) (hknown : Known record s) :
    (rotate config now record fresh).SafeAmong contract (Guarantee task) i
      (fun _ => Sound task J) s := by
  refine Prog.Safe.call _ ((ready_stable hdraws hJ).and (known_stable record)) ⟨hs, hknown⟩ ?_
  rintro s a s' ⟨hs, r, hr, hcore⟩ hX
  have hG : Guarantee task i s s' := by
    obtain ⟨refresh, config, draw, now, htask, hdraw, hrep⟩ := htask
    refine ⟨.rotateToken record.id fresh, ⟨?_, r, hr, RefreshToken.id_eq_of_core hcore, refresh, config, draw, now, htask,
      hdraw, hrep.of_core hcore.symm⟩, contract_effect hX⟩
    exact hs.2 _ (by rw [htask, hdraw]; rfl)
  have hs' := hs.1.step hJ hG
  refine ⟨hG, ?_⟩
  rcases a with e | _ | _
  · exact Prog.Safe.ret _ (sound_stable hJ) hs' fun _ h => h
  · exact Prog.Safe.ret _ (sound_stable hJ) hs' fun _ h => h
  · show Prog.Safe _ _ _ _ (if config.rotation then _ else _) s'
    split
    · exact quiet_safe hJ (lostRotation_quiet config now record) hs'
    · refine quiet_safe hJ ⟨trivial, fun answer => ?_⟩ hs'
      rcases answer with e | _ | current
      · trivial
      · exact lostRotation_quiet config now record
      · show Prog.Only Quiet (if !current.revoked then _ else _)
        split
        · trivial
        · exact lostRotation_quiet config now record

variable (htask : task i = .refresh refresh config draw now)

include hdraws hJ htask in
theorem replace_safe (found : Located) (info : Option String) (hs : Ready task J i s)
    (hknown : Known found.record s) :
    (refresh.replace digest config draw now found info : RefreshProg (RefreshResult V)).Safe
      (contract i) (Pool.others (Guarantee task) i) (Guarantee task i)
      (fun _ => Sound task J) s := by
  unfold Refresh.replace
  split
  · exact Prog.Safe.ret _ (sound_stable hJ) hs.1 fun _ h => h
  · exact Prog.Safe.ret _ (sound_stable hJ) hs.1 fun _ h => h
  · next plaintext fresh hfresh =>
    obtain ⟨hid, hrep⟩ := replacementFor_spec hfresh
    refine (rotate_safe hdraws hJ found.record fresh ⟨refresh, config, draw, now, htask, hid, hrep⟩ hs
      hknown).bind fun rotated s hs => ?_
    cases rotated <;> exact Prog.Safe.ret _ (sound_stable hJ) hs fun _ h => h

include hdraws hJ htask in
theorem proceedLive_safe (found : Located) (hs : Ready task J i s)
    (hknown : Known found.record s) :
    (refresh.proceedLive digest config draw now found : RefreshProg (RefreshResult V)).Safe
      (contract i) (Pool.others (Guarantee task) i) (Guarantee task i)
      (fun _ => Sound task J) s := by
  have hstable := (ready_stable (J := J) (i := i) hdraws hJ).and (known_stable found.record)
  unfold Refresh.proceedLive
  split
  · exact Prog.Safe.ret _ (sound_stable hJ) hs.1 fun _ h => h
  · refine Prog.Safe.call _ hstable ⟨hs, hknown⟩ fun s active s' hs hX => ?_
    obtain ⟨hG, hs'⟩ := hs.1.quiet hJ hX trivial
    refine ⟨hG, ?_⟩
    have hknown' := hs.2.step hG
    cases active with
    | false => exact Prog.Safe.ret _ (sound_stable hJ) hs'.1 fun _ h => h
    | true =>
      show Prog.Safe _ _ _ _ (checkDevice refresh found.record >>= _) s'
      refine (Prog.Within.safe (checkDevice_quiet refresh found.record) hstable ?_
        ⟨hs', hknown'⟩).bind fun checked s hs => ?_
      · intro e w a w' hq hX hw
        obtain ⟨hG, hw'⟩ := hw.1.quiet hJ hX hq
        exact ⟨hG, hw', hw.2.step hG⟩
      · cases checked with
        | error e => exact Prog.Safe.ret _ (sound_stable hJ) hs.2.1.1 fun _ h => h
        | ok =>
          cases digest.verifyBinding found.record refresh.deviceInfo (found.storedUnder config)
              config.pepper with
          | error e => exact Prog.Safe.ret _ (sound_stable hJ) hs.2.1.1 fun _ h => h
          | ok info => exact replace_safe hdraws hJ htask found info hs.2.1 hs.2.2

include hdraws hJ htask in
theorem proceed_safe (found : Located) (hs : Ready task J i s)
    (hknown : Known found.record s) :
    (refresh.proceed digest config draw now found : RefreshProg (RefreshResult V)).Safe
      (contract i) (Pool.others (Guarantee task) i) (Guarantee task i)
      (fun _ => Sound task J) s := by
  unfold Refresh.proceed
  split
  · exact Prog.Safe.ret _ (sound_stable hJ) hs.1 fun _ h => h
  · split
    · exact quiet_safe hJ ((handleRevokedReuse_quiet found.record config now).bind fun _ => trivial) hs.1
    · exact proceedLive_safe hdraws hJ htask found hs hknown

def FoundRow (task : ι → RefreshTask) (dead : Set RefreshTokenId) (i : ι) (r : RefreshToken)
    (s : Ledger ι) : Prop :=
  Ready task (Sealed dead) i s ∧ Known r s ∧ (r.id ∈ dead → r.revoked = true)

include hdraws in
theorem foundRow_stable (r : RefreshToken) :
    Stable (Pool.others (Guarantee task) i) (FoundRow task dead i r) :=
  (ready_stable hdraws (keeps_sealed dead)).and ((known_stable r).and fun _ _ h _ => h)

theorem Ready.found {h : String} {r : RefreshToken} (hs : Ready task (Sealed dead) i s)
    (hX : contract i (.findToken h) s (.ok (some r)) s') : FoundRow task dead i r s' := by
  obtain ⟨hG, hs'⟩ := hs.quiet (keeps_sealed dead) hX trivial
  have hr := (contract_found hX).1
  refine ⟨hs', Known.step ⟨r, hr, rfl⟩ hG, fun hdead => ?_⟩
  obtain ⟨r', hr', hid, hrev⟩ := hs.1.2.revoked r.id hdead
  rwa [hs.1.1.unique hr' hr hid] at hrev

include hdraws in
theorem locate_safe (plaintext : String) (hs : Ready task (Sealed dead) i s) :
    (locate digest plaintext config).SafeAmong contract (Guarantee task) i
      (fun result s => Ready task (Sealed dead) i s ∧
        ∀ found, result = .ok (some found) → FoundRow task dead i found.record s) s := by
  have hmiss {e : Except StoreError (Option Located)} {s : Ledger ι} (hs : Ready task (Sealed dead) i s)
      (hnone : ∀ found, e ≠ .ok (some found)) :
      (pure e : RefreshProg _).SafeAmong contract (Guarantee task) i
        (fun result s => Ready task (Sealed dead) i s ∧
          ∀ found, result = .ok (some found) → FoundRow task dead i found.record s) s :=
    Prog.Safe.ret _ (ready_stable hdraws (keeps_sealed dead)) hs fun _ h => ⟨h, fun found heq => absurd heq (hnone found)⟩
  have hhit (found : Located) {s : Ledger ι} (hs : FoundRow task dead i found.record s) :
      (pure (.ok (some found)) : RefreshProg (Except StoreError (Option Located))).SafeAmong
        contract (Guarantee task) i (fun result s => Ready task (Sealed dead) i s ∧
          ∀ found, result = .ok (some found) → FoundRow task dead i found.record s) s :=
    Prog.Safe.ret _ (foundRow_stable hdraws found.record) hs fun _ h => ⟨h.1, fun _ heq => by
      cases heq
      exact h⟩
  refine Prog.Safe.call _ (ready_stable hdraws (keeps_sealed dead)) hs fun s a s' hs hX => ?_
  obtain ⟨hG, hs'⟩ := hs.quiet (keeps_sealed dead) hX trivial
  refine ⟨hG, ?_⟩
  rcases a with e | _ | record
  · exact hmiss hs' (by simp)
  · cases config.previousPepper with
    | none => exact hmiss hs' (by simp)
    | some previous =>
      refine Prog.Safe.call _ (ready_stable hdraws (keeps_sealed dead)) hs' fun s a s' hs hX => ?_
      obtain ⟨hG, hs'⟩ := hs.quiet (keeps_sealed dead) hX trivial
      refine ⟨hG, ?_⟩
      rcases a with e | _ | record
      · exact hmiss hs' (by simp)
      · exact hmiss hs' (by simp)
      · exact hhit ⟨record, true⟩ (hs.found hX)
  · exact hhit ⟨record, false⟩ (hs.found hX)

include hdraws in
theorem find_safe (hs : Ready task (Sealed dead) i s) :
    (refresh.find digest config).SafeAmong contract (Guarantee task) i
      (fun result s => Ready task (Sealed dead) i s ∧
        ∀ found, result = .ok found → FoundRow task dead i found.record s) s := by
  have hstable := ready_stable (i := i) hdraws (keeps_sealed dead)
  unfold Refresh.find
  split
  · exact Prog.Safe.ret _ hstable hs fun _ h => ⟨h, by simp⟩
  · refine (locate_safe hdraws refresh.plaintext hs).bind fun result s hs => ?_
    rcases result with e | _ | found
    · exact Prog.Safe.ret _ hstable hs.1 fun _ h => ⟨h, by simp⟩
    · exact Prog.Safe.ret _ hstable hs.1 fun _ h => ⟨h, by simp⟩
    · refine Prog.Safe.ret _ (foundRow_stable hdraws found.record) (hs.2 found rfl)
        fun _ h => ⟨h.1, fun found' heq => ?_⟩
      cases heq
      exact h

def RefreshPost (task : ι → RefreshTask) (dead : Set RefreshTokenId) (config : RefreshTokenConfig)
    (now : Instant) (r : Option RefreshToken × RefreshResult V) (s : Ledger ι) : Prop :=
  Sound task (Sealed dead) s ∧ ∀ record session out, r = (some record, .ok (session, out)) →
    Known record s ∧ record.id ∉ dead ∧ Accepts config now record session

include hdraws htask in
theorem runFound_safe (hs : Ready task (Sealed dead) i s) :
    (refresh.runFound digest config draw now : RefreshProg (_ × RefreshResult V)).SafeAmong
      contract (Guarantee task) i (RefreshPost task dead config now) s := by
  unfold Refresh.runFound
  refine (find_safe hdraws hs).bind fun result s hs => ?_
  cases result with
  | error e =>
    exact Prog.Safe.ret _ (sound_stable (keeps_sealed dead)) hs.1.1 fun _ h => ⟨h, by simp⟩
  | ok found =>
    obtain ⟨hready, hknown, hdead⟩ := hs.2 found rfl
    have hJ : Keeps task fun s => Sealed dead s ∧ Known found.record s :=
      (keeps_sealed dead).and (keeps_known found.record)
    have hproceed : (refresh.proceed digest config draw now found :
        RefreshProg (RefreshResult V)).SafeAmong contract (Guarantee task) i
          (fun _ => Sound task _) s :=
      proceed_safe hdraws hJ htask found ⟨⟨hready.1.1, hready.1.2, hknown⟩, hready.2⟩ hknown
    refine Prog.Safe.map ((hproceed.within (proceed_accepts found)).conseq fun result s h => ⟨⟨h.2.1, h.2.2.1⟩, ?_⟩)
    rintro record session out heq
    obtain ⟨heq, rfl⟩ := Prod.mk.inj heq
    cases heq
    have haccepts := h.1 session out rfl
    refine ⟨h.2.2.2, fun hin => ?_, haccepts⟩
    have hlive := haccepts.live
    rw [hdead hin] at hlive
    cases hlive

include hdraws in
theorem issue_safe {req : IssueRequest} (htask : task i = .issue req config draw now)
    (hs : Ready task J i s) (hJ : Keeps task J) :
    (issueRefreshToken digest req config draw now).SafeAmong contract (Guarantee task) i
      (fun _ => Sound task J) s := by
  unfold issueRefreshToken
  split
  · exact Prog.Safe.ret _ (sound_stable hJ) hs.1 fun _ h => h
  · dsimp only
    split
    · exact Prog.Safe.ret _ (sound_stable hJ) hs.1 fun _ h => h
    · next record hbuild =>
      refine Prog.Safe.call _ (ready_stable hdraws hJ) hs fun s a s' hs hX => ?_
      have hcap : ∀ stop, config.lifetimeEnd now = some stop → record.expiresAt ≤ stop :=
        fun _ => expiresAt_le_of_build hbuild
      obtain ⟨slidingEnd, _, hrecord⟩ := Option.map_eq_some_iff.mp hbuild
      have hid : record.id = draw.id := by rw [← hrecord]
      have hissued : IssuedAt config now record := by
        refine ⟨?_, ?_, fun stop hstop => hcap stop hstop⟩ <;> rw [← hrecord]
      have hG : Guarantee task i s s' := by
        refine ⟨.issueCapped record config.maxPerUser, ⟨?_, req, config, draw, now, htask, hid,
          hissued⟩, contract_effect hX⟩
        exact hs.2 _ (by rw [htask, hid]; rfl)
      refine ⟨hG, ?_⟩
      cases a <;> exact Prog.Safe.ret _ (sound_stable hJ) (hs.1.step hJ hG) fun _ h => h

theorem locate_quiet (plaintext : String) : (locate digest plaintext config).Only Quiet := by
  refine ⟨trivial, fun answer => ?_⟩
  rcases answer with e | _ | record
  · trivial
  · cases config.previousPepper with
    | none => trivial
    | some previous =>
      refine ⟨trivial, fun answer => ?_⟩
      rcases answer with e | found <;> trivial
  · trivial

theorem revokeScoped_quiet (plaintext : String) (tenant : Option TenantId) :
    (revokeScoped digest plaintext tenant config).Only Quiet := by
  unfold revokeScoped
  split
  · trivial
  · refine (locate_quiet plaintext).bind fun result => ?_
    rcases result with e | _ | found
    · trivial
    · trivial
    · show Prog.Only Quiet (if _ then _ else _)
      split
      · trivial
      · refine ⟨trivial, fun answer => ?_⟩
        cases answer <;> trivial

def TaskPost (task : ι → RefreshTask) (dead : Set RefreshTokenId) (i : ι) (r : TaskResult V)
    (s : Ledger ι) : Prop :=
  Sound task (Sealed dead) s ∧ ∀ refresh config draw now record session out,
    task i = .refresh refresh config draw now → r = .refreshed (some record) (.ok (session, out)) →
      Known record s ∧ record.id ∉ dead ∧ Accepts config now record session

include hdraws in
theorem task_safe (hs : Ready task (Sealed dead) i s) :
    ((task i).prog digest : RefreshProg (TaskResult V)).SafeAmong contract (Guarantee task) i
      (TaskPost task dead i) s := by
  have hJ : Keeps task (Sealed dead) := keeps_sealed dead
  have hquiet {p : RefreshProg (TaskResult V)} (hp : p.Only Quiet)
      (hno : ∀ refresh config draw now, task i ≠ .refresh refresh config draw now) :
      p.SafeAmong contract (Guarantee task) i
        (TaskPost task dead i) s :=
    (quiet_safe hJ hp hs.1).conseq fun _ _ h =>
      ⟨h, fun refresh config draw now _ _ _ heq => absurd heq (hno refresh config draw now)⟩
  cases htask : task i with
  | refresh refresh config draw now =>
    refine Prog.Safe.map (Prog.Safe.conseq (runFound_safe hdraws htask hs) fun r s h => ?_)
    refine ⟨h.1, fun refresh' config' draw' now' record session out htask' heq => ?_⟩
    rw [htask] at htask'
    cases htask'
    refine h.2 record session out ?_
    obtain ⟨found, result⟩ := r
    cases heq
    rfl
  | issue req config draw now =>
    refine Prog.Safe.map ((issue_safe hdraws htask hs hJ).conseq fun r s h => ⟨h, ?_⟩)
    intro refresh config draw now record session out htask'
    rw [htask] at htask'
    cases htask'
  | revoke plaintext tenant config =>
    exact hquiet ((revokeScoped_quiet plaintext tenant).bind fun _ => trivial) (by simp [htask])
  | revokeFamily u f => exact hquiet ⟨trivial, fun _ => trivial⟩ (by simp [htask])
  | revokeUserTokens u => exact hquiet ⟨trivial, fun _ => trivial⟩ (by simp [htask])
  | revokeDeviceTokens t d => exact hquiet ⟨trivial, fun _ => trivial⟩ (by simp [htask])

end Member

/-! ## Whole runs -/

def Rotated (history : List (ι × StoreEvent)) (p c : RefreshTokenId) : Prop :=
  ∃ i t, (i, .rotated p t) ∈ history ∧ t.id = c

/-- The tokens of the chain that begins with `root`. -/
def Descends (history : List (ι × StoreEvent)) : RefreshTokenId → RefreshTokenId → Prop :=
  ReflTransGen (Rotated history)

theorem eq_of_nodup_filterMap {α β : Type} {f : α → Option β} {l : List α}
    (h : (l.filterMap f).Nodup) {a b : α} {c : β} (ha : a ∈ l) (hb : b ∈ l) (hfa : f a = some c)
    (hfb : f b = some c) : a = b := by
  induction l with
  | nil => cases ha
  | cons x l ih =>
    have hmem : ∀ y ∈ l, f y = some c → c ∈ l.filterMap f :=
      fun y hy hfy => List.mem_filterMap.mpr ⟨y, hy, hfy⟩
    rw [List.filterMap_cons] at h
    rcases List.mem_cons.mp ha with rfl | ha' <;> rcases List.mem_cons.mp hb with rfl | hb'
    · rfl
    · rw [hfa] at h
      exact absurd (hmem b hb' hfb) (List.nodup_cons.mp h).1
    · rw [hfb] at h
      exact absurd (hmem a ha' hfa) (List.nodup_cons.mp h).1
    · cases hx : f x with
      | none => exact ih (by rwa [hx] at h) ha' hb'
      | some y => exact ih (List.nodup_cons.mp (by rwa [hx] at h)).2 ha' hb'

theorem ChainInv.rotated_unique (hs : ChainInv task s) : Relator.RightUnique (Rotated s.history) := by
  rintro p c c' ⟨i, t, hin, rfl⟩ ⟨i', t', hin', rfl⟩
  have heq := eq_of_nodup_filterMap (c := p) hs.once hin hin' rfl rfl
  cases heq
  rfl

theorem ChainInv.live_unique (hs : ChainInv task s) {root x y : RefreshTokenId}
    (hx : Descends s.history root x) (hy : Descends s.history root y)
    (hlx : s.rows.live x = true) (hly : s.rows.live y = true) : x = y := by
  have hleaf : ∀ p c, Rotated s.history p c → s.rows.live p ≠ true := by
    rintro p c ⟨i, t, hin, _⟩ hlive
    obtain ⟨r, hr, hid, hrev, _⟩ := hs.parent i p t hin
    obtain ⟨r', hr', hlive⟩ := List.any_eq_true.mp hlive
    rw [Bool.and_eq_true, beq_iff_eq, Bool.not_eq_true'] at hlive
    rw [hs.unique hr' hr (hlive.1.trans hid.symm), hrev] at hlive
    cases hlive.2
  rcases hx.total_of_right_unique hs.rotated_unique hy with hxy | hyx
  · rcases hxy.cases_head with heq | ⟨c, hc, _⟩
    · exact heq
    · exact absurd hlx (hleaf x c hc)
  · rcases hyx.cases_head with heq | ⟨c, hc, _⟩
    · exact heq.symm
    · exact absurd hly (hleaf y c hc)

def members (rows : TokenTable) (u : UserId) (f : TokenFamilyId) : Set RefreshTokenId :=
  {d | ∃ r ∈ rows, r.id = d ∧ r.userId = u ∧ r.familyId = some f}

theorem sealed_members (hs : ChainInv task s') {u : UserId} {f : TokenFamilyId}
    (hX : contract i (.revokeFamily u f) s (.ok ()) s') : Sealed (members s'.rows u f) s' := by
  have htook : Took i (.revokeFamily u f) s (.ok ()) s' := by
    rcases hX with h | ⟨hfault, _⟩
    · exact h
    · cases hfault
  obtain ⟨⟨at_, hans⟩, _⟩ := htook
  have hrows : s'.rows = _ := (Prod.mk.inj hans).2
  refine ⟨?_, ?_⟩
  · rintro d ⟨r, hr, hid, hu, hf⟩
    refine ⟨r, hr, hid, ?_⟩
    rw [hrows] at hr
    obtain ⟨r', _, rfl⟩ := List.mem_map.mp hr
    have hcore := (Revoking.ite (fun r => r.userId == u && r.familyId == some f) .compromise at_).core r'
    have hu' : r'.userId = u := (RefreshToken.core_congr RefreshToken.userId (fun _ => rfl) hcore).symm.trans hu
    have hf' : r'.familyId = some f :=
      (RefreshToken.core_congr RefreshToken.familyId (fun _ => rfl) hcore).symm.trans hf
    simp [hu', hf']
  · rintro j p t hin ⟨r, hr, hid, hu, hf⟩
    -- a replacement has the user and the family of what it replaces
    obtain ⟨r', hr', hid', _, _, _, _, _, _, _, hrep⟩ := hs.parent j p t hin
    obtain ⟨c, hc, hcore⟩ := hs.child j p t hin
    rw [hs.unique hr' hr (hid'.trans hid.symm)] at hrep
    refine ⟨c, hc, RefreshToken.id_eq_of_core hcore, ?_, ?_⟩
    · rw [RefreshToken.core_congr RefreshToken.userId (fun _ => rfl) hcore, hrep.userId, hu]
    · rw [RefreshToken.core_congr RefreshToken.familyId (fun _ => rfl) hcore, hrep.familyId,
        RefreshToken.family, hf]
      rfl

theorem Sealed.descends (hd : Sealed dead s) {x y : RefreshTokenId} (hx : x ∈ dead)
    (hxy : Descends s.history x y) : y ∈ dead := by
  induction hxy with
  | refl => exact hx
  | tail _ hstep ih =>
    obtain ⟨i, t, hin, rfl⟩ := hstep
    exact hd.closed i _ t hin ih

section Runs

variable [DecidableEq ι] (digest : TokenDigest) (task : ι → RefreshTask) (rows : TokenTable)

def start : Pool ι RefreshCall RefreshCall.Answer (TaskResult V) (Ledger ι) :=
  ⟨fun i => (task i).prog digest, ⟨rows, []⟩⟩

variable {task rows} (hids : (rows.map (·.id)).Nodup) (hdraws : DistinctDraws task)
  (hunused : ∀ i d, (task i).draws = some d → d ∉ rows.map (·.id))

omit [DecidableEq ι] in
include hids in
theorem chainInv_start : ChainInv task (⟨rows, []⟩ : Ledger ι) :=
  ⟨hids, List.nodup_nil, fun _ _ _ h => absurd h List.not_mem_nil,
    fun _ _ _ h => absurd h List.not_mem_nil, fun _ _ h => absurd h List.not_mem_nil⟩

omit [DecidableEq ι] in
include hids hdraws hunused in
theorem start_safe : Pool.AllSafe contract (Guarantee task) (TaskPost task ∅)
    (start digest task rows : Pool ι _ _ (TaskResult V) _) :=
  fun i => task_safe hdraws ⟨⟨chainInv_start hids, ⟨fun _ h => h.elim, fun _ _ _ _ h => h.elim⟩⟩,
    hunused i⟩

variable {digest}

include hids hdraws hunused in
theorem reaches_chainInv {s : Pool ι RefreshCall RefreshCall.Answer (TaskResult V) (Ledger ι)}
    (hr : Pool.Reaches contract (start digest task rows) s) : ChainInv task s.state :=
  hr.invariant (start_safe digest hids hdraws hunused) (fun _ _ _ h hs => hs.step h)
    (chainInv_start hids)

include hids hdraws hunused in
/-- From a state in which a set of tokens is revoked for good, a refresh that has yet to begin
accepts none of them. -/
theorem sealed_not_accepted
    {s s' : Pool ι RefreshCall RefreshCall.Answer (TaskResult V) (Ledger ι)}
    (hr : Pool.Reaches contract (start digest task rows) s) (hd : Sealed dead s.state)
    {i : ι} {refresh : Refresh} {config : RefreshTokenConfig} {draw : TokenDraw} {now : Instant}
    (htask : task i = .refresh refresh config draw now)
    (hidle : s.prog i = (task i).prog digest) (hr' : Pool.Reaches contract s s')
    {record : RefreshToken} {result : RefreshResult V}
    (hret : s'.prog i = .ret (.refreshed (some record) result)) (hin : record.id ∈ dead) :
    ∃ e, result = .error e := by
  have hsafe := start_safe (V := V) digest hids hdraws hunused
  have hunused' : Unused task i s.state :=
    hr.idle hsafe (unused_stable hdraws) (hunused i) hidle
  -- from here on the other tasks are as before, and this one is safe with the set in mind
  have hsafe' : Pool.AllSafe contract (Guarantee task)
      (fun j => if j = i then TaskPost task dead j else TaskPost task ∅ j) s := by
    intro j
    by_cases hj : j = i
    · subst hj
      beta_reduce
      rw [hidle, if_pos rfl]
      exact task_safe hdraws ⟨⟨reaches_chainInv hids hdraws hunused hr, hd⟩, hunused'⟩
    · beta_reduce
      rw [if_neg hj]
      exact hr.safe hsafe j
  have hpost := hr'.post hsafe' hret
  beta_reduce at hpost
  rw [if_pos rfl] at hpost
  cases result with
  | error e => exact ⟨e, rfl⟩
  | ok accepted =>
    obtain ⟨session, out⟩ := accepted
    exact absurd hin (hpost.2 refresh config draw now record session out htask rfl).2.1

variable (V digest task rows) in
/-- Once a revocation of a family has completed, with `w` the store then, a refresh that begins
later accepts no token that is covered. -/
def StaysClosed (covered : UserId → TokenFamilyId → Ledger ι → Ledger ι → RefreshToken → Prop) :
    Prop :=
  ∀ (s₀ s₁ s₂ : Pool ι RefreshCall RefreshCall.Answer (TaskResult V) (Ledger ι)) (j : ι)
    (u : UserId) (f : TokenFamilyId) (k : Except StoreError Unit → RefreshProg (TaskResult V))
    (w : Ledger ι),
    Pool.Reaches contract (start digest task rows) s₀ →
    s₀.prog j = .call (.revokeFamily u f) k →
    contract j (.revokeFamily u f) s₀.state (.ok ()) w →
    Pool.Reaches contract ⟨Function.update s₀.prog j (k (.ok ())), w⟩ s₁ →
    Pool.Reaches contract s₁ s₂ →
    ∀ (i : ι) (refresh : Refresh) (config : RefreshTokenConfig) (draw : TokenDraw) (now : Instant),
      task i = .refresh refresh config draw now → s₁.prog i = (task i).prog digest →
      ∀ (record : RefreshToken) (result : RefreshResult V),
        s₂.prog i = .ret (.refreshed (some record) result) →
        covered u f w s₂.state record → ∃ e, result = .error e

include hids hdraws hunused in
/-- **Rotation never forks a chain.** Whatever refreshes, issues and revocations run on the store
at the same time and whichever of their calls fail: no token is the parent of two rotations, of a
chain at most one token is live, and once a revocation of a family has completed, a refresh that
begins later accepts no token of the family as it was then, and none rotated from one. -/
theorem rotation_never_forks :
    (∀ s : Pool ι RefreshCall RefreshCall.Answer (TaskResult V) (Ledger ι),
      Pool.Reaches contract (start digest task rows) s →
        (parents s.state.history).Nodup ∧
        ∀ root x y, Descends s.state.history root x → Descends s.state.history root y →
          s.state.rows.live x = true → s.state.rows.live y = true → x = y) ∧
    StaysClosed V digest task rows fun u f w s record =>
      ∃ d ∈ members w.rows u f, Descends s.history d record.id := by
  refine ⟨fun s hr => ?_, ?_⟩
  · have hs := reaches_chainInv hids hdraws hunused hr
    exact ⟨hs.once, fun root x y hx hy => hs.live_unique hx hy⟩
  · intro s₀ s₁ s₂ j u f k w hr₀ hprog hX hr₁ hr₂ i refresh config draw now htask hidle record
      result hret hmember
    have hstep : Pool.Step contract s₀ ⟨Function.update s₀.prog j (k (.ok ())), w⟩ :=
      .call j hprog hX
    have hr' : Pool.Reaches contract (start digest task rows)
        ⟨Function.update s₀.prog j (k (.ok ())), w⟩ := hr₀.tail hstep
    have hr : Pool.Reaches contract (start digest task rows) s₁ := hr'.trans hr₁
    -- the family is sealed when the revocation completes, and stays so
    have hsound : Sound task (Sealed (members w.rows u f)) w := by
      have hw := reaches_chainInv hids hdraws hunused hr'
      exact ⟨hw, sealed_members hw hX⟩
    have hsafe := start_safe (V := V) digest hids hdraws hunused
    have hsound₁ : Sound task (Sealed (members w.rows u f)) s₁.state :=
      hr₁.invariant (hr'.safe hsafe) (fun _ _ _ h hs => hs.step (keeps_sealed _) h) hsound
    have hsound₂ : Sound task (Sealed (members w.rows u f)) s₂.state :=
      hr₂.invariant (hr.safe hsafe) (fun _ _ _ h hs => hs.step (keeps_sealed _) h) hsound₁
    obtain ⟨d, hd, hdescends⟩ := hmember
    exact sealed_not_accepted hids hdraws hunused hr hsound₁.2 htask hidle hr₂ hret
      (hsound₂.2.descends hd hdescends)

def performing : Pool.Answerer ι Unit RefreshCall RefreshCall.Answer (Ledger ι) :=
  fun i _ c s => ((TokenTable.perform 0 c s.rows).1,
    ⟨(TokenTable.perform 0 c s.rows).2, s.history ++ (events c s.rows).map (i, ·)⟩)

omit [DecidableEq ι] in
theorem contract_performing (i : ι) (u : Unit) (c : RefreshCall) (s : Ledger ι) :
    contract i c s (performing i u c s).1 (performing i u c s).2 :=
  .inl ⟨⟨0, TokenTable.answers_perform 0 c s.rows⟩, rfl⟩

end Runs

inductive FamilyParty where
  | login | revoker | reissue | client
  deriving DecidableEq

/-- A login issues a token, its family is revoked, a second issue names the family, and the client
presents what that gave it. -/
def reopening : FamilyParty → RefreshTask
  | .login => .issue ⟨⟨7⟩, ⟨1⟩, none, none, none⟩ .default ⟨"a", ⟨100⟩⟩ 0
  | .revoker => .revokeFamily ⟨7⟩ ⟨100⟩
  | .reissue => .issue ⟨⟨7⟩, ⟨1⟩, none, some ⟨100⟩, none⟩ .default ⟨"b", ⟨101⟩⟩ 5
  | .client => .refresh ⟨"b", none, none, false⟩ .default ⟨"c", ⟨102⟩⟩ 10

theorem reopening_draws : DistinctDraws reopening := by
  intro i j d hi hj
  cases i <;> cases j <;> first | rfl | exact absurd (hi.trans hj.symm) (by decide)

def reopeningRun (parties : List FamilyParty)
    (s : Pool FamilyParty RefreshCall RefreshCall.Answer (TaskResult Unit) (Ledger FamilyParty)) :
    Pool FamilyParty RefreshCall RefreshCall.Answer (TaskResult Unit) (Ledger FamilyParty) :=
  Pool.replay performing (parties.map (·, ())) s

theorem reaches_reopeningRun (parties : List FamilyParty)
    (s : Pool FamilyParty RefreshCall RefreshCall.Answer (TaskResult Unit) (Ledger FamilyParty)) :
    Pool.Reaches contract s (reopeningRun parties s) :=
  Pool.reaches_replay contract_performing _ s

theorem rotation_never_forks_reopening :
    (parents (reopeningRun [.login, .revoker, .reissue, .client, .client, .client]
      (start .literal reopening [])).state.history).Nodup := by
  have hids : (([] : TokenTable).map (·.id)).Nodup := List.nodup_nil
  exact ((rotation_never_forks hids reopening_draws (by simp)).1 _ (reaches_reopeningRun _ _)).1

def issuedOnce :
    Pool FamilyParty RefreshCall RefreshCall.Answer (TaskResult Unit) (Ledger FamilyParty) :=
  reopeningRun [.login] (start .literal reopening [])

def revokedOnce :
    Pool FamilyParty RefreshCall RefreshCall.Answer (TaskResult Unit) (Ledger FamilyParty) :=
  ⟨Function.update issuedOnce.prog .revoker (.ret .revoked),
    (performing .revoker () (.revokeFamily ⟨7⟩ ⟨100⟩) issuedOnce.state).2⟩

def TaskResult.acceptedRecord : TaskResult V → Option RefreshToken
  | .refreshed (some record) (.ok _) => some record
  | _ => none

theorem eq_ret_of_accepted {p : RefreshProg (TaskResult V)} {record : RefreshToken}
    (h : p.returned.bind TaskResult.acceptedRecord = some record) :
    ∃ out, p = .ret (.refreshed (some record) (.ok out)) := by
  obtain ⟨r, hr, haccepted⟩ := Option.bind_eq_some_iff.mp h
  rw [Prog.eq_ret_of_returned hr]
  rcases r with ⟨_ | found, _ | out⟩ | _ | _ <;> cases haccepted
  exact ⟨out, rfl⟩

/-- A token issued into the family after its revocation is accepted. -/
theorem issue_reopens_family :
    ¬StaysClosed Unit .literal reopening [] fun u f _ _ record =>
      record.userId = u ∧ record.familyId = some f := by
  intro h
  let s₁ := reopeningRun [.reissue] revokedOnce
  let s₂ := reopeningRun [.client, .client, .client] s₁
  have haccepted : ((s₂.prog .client).returned.bind TaskResult.acceptedRecord).map
      (fun record => (record.userId, record.familyId)) = some (⟨7⟩, some ⟨100⟩) := by
    decide +kernel
  obtain ⟨record, hrecord, hfamily⟩ := Option.map_eq_some_iff.mp haccepted
  obtain ⟨out, hret⟩ := eq_ret_of_accepted hrecord
  have hbefore : issuedOnce.prog .client = (reopening .client).prog .literal :=
    Pool.replay_prog_of_notMem _ _ _ (by decide)
  have hne : FamilyParty.client ≠ .revoker := by decide
  have hthen : revokedOnce.prog .client = (reopening .client).prog .literal :=
    (Function.update_of_ne hne (.ret .revoked) issuedOnce.prog).trans hbefore
  have hclient : s₁.prog .client = (reopening .client).prog .literal :=
    (Pool.replay_prog_of_notMem _ _ _ (by decide)).trans hthen
  have hrevoker : issuedOnce.prog .revoker = .call (.revokeFamily ⟨7⟩ ⟨100⟩) fun _ => .ret .revoked :=
    Pool.replay_prog_of_notMem _ _ _ (by decide)
  obtain ⟨e, he⟩ := h issuedOnce s₁ s₂ .revoker ⟨7⟩ ⟨100⟩ _ _ (reaches_reopeningRun _ _) hrevoker
    (contract_performing .revoker () _ issuedOnce.state) (reaches_reopeningRun _ _)
    (reaches_reopeningRun _ _) .client _ _ _ _ rfl hclient record _ hret (Prod.mk.inj hfamily)
  cases he

end Ledger

end Axess
