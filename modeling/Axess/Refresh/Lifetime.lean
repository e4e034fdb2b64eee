import Axess.Refresh.Chain

/-!
# Refreshing extends no authentication

A token issued at login authenticates as of its own issue; every token rotated from it, or moved
to another pepper, carries that time on. So does the end of the family: the time of the login plus
the lifetime the configuration gives a family. The bound is an induction over the chain.
-/

namespace Axess

open Calls

variable {V ι : Type} {lifetime : TimeDelta} {login stop : Instant}

theorem lifetimeEnd_eq {config : RefreshTokenConfig} (hlifetime : config.maxLifetime = some lifetime)
    (hstop : checkedAddSigned login lifetime = some stop) : config.lifetimeEnd login = some stop := by
  rw [RefreshTokenConfig.lifetimeEnd, hlifetime]
  exact hstop

structure OfLogin (login stop : Instant) (t : RefreshToken) : Prop where
  authenticatedAt : t.authenticatedAt = login
  expiresAt : t.expiresAt ≤ stop

theorem OfLogin.of_core {t t' : RefreshToken} (h : OfLogin login stop t) (hcore : t'.core = t.core) :
    OfLogin login stop t' :=
  ⟨(RefreshToken.core_congr RefreshToken.authenticatedAt (fun _ => rfl) hcore).trans
      h.authenticatedAt,
    (RefreshToken.core_congr RefreshToken.expiresAt (fun _ => rfl) hcore).le.trans h.expiresAt⟩

theorem IssuedAt.ofLogin {config : RefreshTokenConfig} {t : RefreshToken}
    (h : IssuedAt config login t) (hstop : config.lifetimeEnd login = some stop) :
    OfLogin login stop t := by
  refine ⟨?_, h.capped stop hstop⟩
  rw [RefreshToken.authenticatedAt, h.authnTime, h.issuedAt]
  rfl

theorem Replaces.ofLogin {config : RefreshTokenConfig} {now : Instant} {r t : RefreshToken}
    (h : Replaces config now r t) (hr : OfLogin login stop r)
    (hstop : config.lifetimeEnd login = some stop) : OfLogin login stop t := by
  refine ⟨?_, ?_⟩
  · rw [RefreshToken.authenticatedAt, h.authnTime, hr.authenticatedAt]
    rfl
  · cases hrotation : config.rotation with
    | true => exact h.capped hrotation stop (hr.authenticatedAt ▸ hstop)
    | false => exact (h.moved hrotation).le.trans hr.expiresAt

namespace Ledger

variable {task : ι → RefreshTask} {s : Ledger ι}

def Capped (task : ι → RefreshTask) (lifetime : TimeDelta) : Prop :=
  ∀ i refresh config draw now, task i = .refresh refresh config draw now →
    config.maxLifetime = some lifetime

def IssuedAtLogin (task : ι → RefreshTask) (lifetime : TimeDelta) (login : Instant)
    (s : Ledger ι) (root : RefreshTokenId) : Prop :=
  ∃ i req config draw t, task i = .issue req config draw login ∧
    config.maxLifetime = some lifetime ∧ (i, .issued t) ∈ s.history ∧ t.id = root

theorem ChainInv.ofLogin (hs : ChainInv task s) (hcapped : Capped task lifetime)
    (hstop : checkedAddSigned login lifetime = some stop) {root x : RefreshTokenId}
    (hroot : IssuedAtLogin task lifetime login s root) (hx : Descends s.history root x) :
    ∀ r ∈ s.rows, r.id = x → OfLogin login stop r := by
  induction hx with
  | refl =>
    intro r hr hid
    obtain ⟨i, req, config, draw, t, htask, hlifetime, hin, rfl⟩ := hroot
    obtain ⟨⟨req', config', draw', now', htask', _, hissued⟩, r', hr', hcore⟩ := hs.issued i t hin
    rw [htask] at htask'
    cases htask'
    rw [hs.unique hr hr' (hid.trans (RefreshToken.id_eq_of_core hcore).symm)]
    exact (hissued.ofLogin (lifetimeEnd_eq hlifetime hstop)).of_core hcore
  | tail _ hstep ih =>
    intro r hr hid
    obtain ⟨j, t, hin, rfl⟩ := hstep
    obtain ⟨p, hp, hpid, _, refresh, config, draw, now, htask, _, hrep⟩ := hs.parent j _ t hin
    obtain ⟨r', hr', hcore⟩ := hs.child j _ t hin
    rw [hs.unique hr hr' (hid.trans (RefreshToken.id_eq_of_core hcore).symm)]
    have hend := lifetimeEnd_eq (hcapped j refresh config draw now htask) hstop
    exact (hrep.ofLogin (ih p hp hpid) hend).of_core hcore

theorem Accepts.before {config : RefreshTokenConfig} {now : Instant} {record : RefreshToken}
    {session : SessionData V} (h : Accepts config now record session)
    (hlogin : OfLogin login stop record) (hend : config.lifetimeEnd login = some stop) :
    now < record.expiresAt ∧ now < stop := by
  have hunexpired := h.unexpired
  rw [tokenExpired, hlogin.authenticatedAt, hend, Bool.or_eq_false_iff] at hunexpired
  simpa using hunexpired

section Runs

variable [DecidableEq ι] {digest : TokenDigest} {rows : TokenTable}

/-- **Refreshing never extends an authentication.** In every run, for every chain of tokens that
began with an issue at `login`: each refresh that is answered with a session gives it the time of
the login, and happens before the end of the family and before the token presented expires; each
token a rotation stores expires by the end of the family, and one that is moved to another pepper
keeps its expiry. -/
theorem refresh_extends_no_authentication (hids : (rows.map (·.id)).Nodup)
    (hdraws : DistinctDraws task) (hunused : ∀ i d, (task i).draws = some d → d ∉ rows.map (·.id))
    (hcapped : Capped task lifetime) (hstop : checkedAddSigned login lifetime = some stop)
    {s : Pool ι RefreshCall RefreshCall.Answer (TaskResult V) (Ledger ι)}
    (hr : Pool.Reaches contract (start digest task rows) s) {root x : RefreshTokenId}
    (hroot : IssuedAtLogin task lifetime login s.state root)
    (hx : Descends s.state.history root x) {i : ι} {refresh : Refresh}
    {config : RefreshTokenConfig} {draw : TokenDraw} {now : Instant}
    (htask : task i = .refresh refresh config draw now) :
    (∀ record session out, s.prog i = .ret (.refreshed (some record) (.ok (session, out))) →
      record.id = x →
        (∃ u t, session.authState = .authenticated u t login [] none none) ∧
        now < login + lifetime ∧ now < record.expiresAt) ∧
    ∀ t, (i, .rotated x t) ∈ s.state.history →
      t.expiresAt ≤ login + lifetime ∧
      (config.rotation = false → ∀ r ∈ s.state.rows, r.id = x → t.expiresAt = r.expiresAt) := by
  have hs := reaches_chainInv hids hdraws hunused hr
  have hlogin := hs.ofLogin hcapped hstop hroot hx
  have hend := lifetimeEnd_eq (hcapped i refresh config draw now htask) hstop
  have hsum : login + lifetime = stop := (checkedAddSigned_eq_some.mp hstop).2
  rw [hsum]
  refine ⟨fun record session out hret hid => ?_, fun t hin => ?_⟩
  · obtain ⟨⟨r, hr', hcore⟩, _, haccepts⟩ :=
      (hr.post (start_safe digest hids hdraws hunused) hret).2 refresh config draw now record session
        out htask rfl
    have hrecord : OfLogin login stop record :=
      (hlogin r hr' ((RefreshToken.id_eq_of_core hcore).trans hid)).of_core hcore.symm
    obtain ⟨hexpires, hbefore⟩ := haccepts.before hrecord hend
    refine ⟨⟨record.userId, record.tenantId, ?_⟩, hbefore, hexpires⟩
    rw [haccepts.session, ← hrecord.authenticatedAt]
    rfl
  · obtain ⟨p, hp, hpid, _, refresh', config', draw', now', htask', _, hrep⟩ := hs.parent i x t hin
    rw [htask] at htask'
    cases htask'
    refine ⟨(hrep.ofLogin (hlogin p hp hpid) hend).expiresAt, fun hoff r hr' hid => ?_⟩
    rw [hrep.moved hoff, hs.unique hp hr' (hpid.trans hid.symm)]

end Runs

inductive ChainParty where
  | login | first | second
  deriving DecidableEq

def refreshedTwice : ChainParty → RefreshTask
  | .login => .issue ⟨⟨7⟩, ⟨1⟩, none, none, none⟩ .default ⟨"a", ⟨100⟩⟩ 0
  | .first => .refresh ⟨"a", none, none, false⟩ .default ⟨"b", ⟨101⟩⟩ 5
  | .second => .refresh ⟨"b", none, none, false⟩ .default ⟨"c", ⟨102⟩⟩ 10

theorem refreshedTwice_draws : DistinctDraws refreshedTwice := by
  intro i j d hi hj
  cases i <;> cases j <;> first | rfl | exact absurd (hi.trans hj.symm) (by decide)

theorem refreshedTwice_capped : Capped refreshedTwice 7776000000000000 := by
  intro i refresh config draw now htask
  cases i <;> cases htask <;> rfl

def refreshedTwiceRun :
    Pool ChainParty RefreshCall RefreshCall.Answer (TaskResult Unit) (Ledger ChainParty) :=
  Pool.replay performing ([.login, .first, .first, .first, .second, .second, .second].map (·, ()))
    (start .literal refreshedTwice [])

def stored : StoreEvent → Option RefreshTokenId × Option RefreshTokenId
  | .issued t => (none, some t.id)
  | .rotated p t => (some p, some t.id)
  | _ => (none, none)

theorem refreshedTwiceRun_descends : Descends refreshedTwiceRun.state.history ⟨100⟩ ⟨101⟩ := by
  have hrotated : refreshedTwiceRun.state.history.any fun e =>
      decide (stored e.2 = (some ⟨100⟩, some ⟨101⟩)) := by
    decide +kernel
  obtain ⟨⟨i, e⟩, hin, h⟩ := List.any_eq_true.mp hrotated
  cases e with
  | rotated p t =>
    obtain ⟨rfl, hid⟩ : p = ⟨100⟩ ∧ t.id = ⟨101⟩ := by simpa [stored] using h
    exact .single ⟨i, t, hin, hid⟩
  | _ => simp [stored] at h

theorem refreshedTwiceRun_issued :
    IssuedAtLogin refreshedTwice 7776000000000000 0 refreshedTwiceRun.state ⟨100⟩ := by
  have hissued : refreshedTwiceRun.state.history.any fun e =>
      decide (e.1 = .login ∧ stored e.2 = (none, some ⟨100⟩)) := by
    decide +kernel
  obtain ⟨⟨i, e⟩, hin, h⟩ := List.any_eq_true.mp hissued
  cases e with
  | issued t =>
    obtain ⟨rfl, hid⟩ : i = .login ∧ t.id = ⟨100⟩ := by simpa [stored] using h
    exact ⟨.login, _, _, _, t, rfl, rfl, hin, hid⟩
  | _ => simp [stored] at h

theorem refresh_extends_no_authentication_refreshedTwice :
    ∃ record session out,
      refreshedTwiceRun.prog .second = .ret (.refreshed (some record) (.ok (session, out))) ∧
      ∃ u t, session.authState = .authenticated u t 0 [] none none := by
  have haccepted : ((refreshedTwiceRun.prog .second).returned.bind TaskResult.acceptedRecord).map
      (·.id) = some ⟨101⟩ := by
    decide +kernel
  obtain ⟨record, hrecord, hid⟩ := Option.map_eq_some_iff.mp haccepted
  obtain ⟨⟨session, out⟩, hret⟩ := eq_ret_of_accepted hrecord
  have hids : (([] : TokenTable).map (·.id)).Nodup := List.nodup_nil
  have hstop : checkedAddSigned 0 7776000000000000 = some 7776000000000000 := rfl
  have h := refresh_extends_no_authentication hids refreshedTwice_draws (by simp)
    refreshedTwice_capped hstop (Pool.reaches_replay contract_performing _ _)
    refreshedTwiceRun_issued refreshedTwiceRun_descends (i := .second) rfl
  exact ⟨record, session, out, hret, (h.1 record session out hret hid).1⟩

end Ledger

end Axess
