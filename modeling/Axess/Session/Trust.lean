import Axess.Refresh.Token
import Axess.Session.Cookie

/-!
# A client's id is run under only when it is vouched for

What stands behind the id of a cookie before a handler runs under it: the signature, the row, the
age caps, the registry and the binding. A load that cannot vouch for all of it runs the request
as a guest under an id of its own.
-/

namespace Axess

open Calls

variable {V σ : Type}

/-- An instant that the calendar library holds. -/
structure InCalendar (t : Instant) : Prop where
  min_le : minUtc ≤ t
  le_max : t ≤ maxUtc

def WithinCap (policy : LoadPolicy) (cap : Option Duration) (since : Instant) : Prop :=
  ∀ d, cap = some d → policy.now - since ≤ d

/-- A cap that is too long for the calendar library is not looked at; no two instants of the
calendar are that far apart. -/
theorem withinCap_of_outlived_eq_false {policy : LoadPolicy} {cap : Option Duration}
    {since : Instant} (h : outlived policy cap since = false) (hnow : InCalendar policy.now)
    (hsince : InCalendar since) : WithinCap policy cap since := by
  rintro d rfl
  have hage : policy.now - since ≤ maxUtc - minUtc := sub_le_sub hnow.le_max hsince.min_le
  by_cases hd : d ≤ maxChronoDuration
  · simpa [outlived, fromStd, hd] using h
  · have hspan : maxUtc - minUtc ≤ (maxChronoDuration : Int) := by decide
    have hlong : (maxChronoDuration : Int) ≤ d := Int.ofNat_le.mpr (Nat.le_of_not_le hd)
    exact hage.trans (hspan.trans hlong)

/-- What the registry may answer for a session that is kept. -/
def LoadPolicy.Admits (policy : LoadPolicy) (answer : SessionLiveness) : Prop :=
  answer = .valid ∨ answer = .unknown ∧ policy.unknown = .accept

section Load

variable (h : (e : Call V) → σ → e.Answer × σ) (w : σ) (config : SessionConfig)
  (policy : LoadPolicy)

def Vouched (data : SessionData V) (id : SessionId) : Prop :=
  match data.authState with
  | .authenticated u _ authnTime _ impersonator _ =>
    (InCalendar policy.now → InCalendar authnTime →
      WithinCap policy config.maxAuthenticatedAge authnTime) ∧
    (∀ i, impersonator = some i → InCalendar policy.now → InCalendar i.since →
      WithinCap policy config.maxImpersonationAge i.since) ∧
    (policy.registry = true → policy.Admits (h (.registry (.liveness u id)) w).1)
  | _ => True

theorem vouched_of_keep {data : SessionData V} {id : SessionId}
    (hkeep : ((authenticatedSessionVerdict data config policy id).eval h w).1 = .keep) :
    Vouched h w config policy data id := by
  unfold authenticatedSessionVerdict at hkeep
  unfold Vouched
  split
  next u _ authnTime _ impersonator _ hstate =>
    rw [hstate] at hkeep
    -- the three checks in the order of the source: age, age as an impersonation, registry
    cases hage : outlived policy config.maxAuthenticatedAge authnTime with
    | true => simp [hage] at hkeep
    | false =>
      cases himp : impersonator.any
          (fun i => outlived policy config.maxImpersonationAge i.since) with
      | true => simp [hage, himp] at hkeep
      | false =>
        refine ⟨withinCap_of_outlived_eq_false hage, ?_, ?_⟩
        · rintro i rfl
          exact withinCap_of_outlived_eq_false (by simpa using himp)
        · intro hregistry
          simp only [hage, himp, hregistry, Bool.false_eq_true, if_false, Bool.not_true,
            Prog.eval_bind, Reg.liveness, await, Prog.eval_perform] at hkeep
          unfold LoadPolicy.Admits
          revert hkeep
          cases (h (.registry (.liveness u id)) w).1 <;> cases policy.unknown <;> simp
  next => trivial

@[simp] theorem SessionData.migrate_authState (data : SessionData V) :
    data.migrate.1.authState = data.authState := by
  unfold SessionData.migrate
  split
  · rfl
  · split <;> rfl

@[simp] theorem SessionData.migrate_fingerprint (data : SessionData V) :
    data.migrate.1.fingerprint = data.fingerprint := by
  unfold SessionData.migrate
  split
  · rfl
  · split <;> rfl

structure Backed (id : SessionId) (row : SessionData V) : Prop where
  returned : (h (.store (.load id)) w).1 = .ok (some row)
  vouched : Vouched h (h (.store (.load id)) w).2 config policy row id

theorem loadStoredSession_backed (id : SessionId) :
    let stored := ((loadStoredSession id config policy).eval h w).1
    (∃ row, Backed h w config policy id row ∧ stored = ⟨some id, row.migrate.1, some row, false⟩) ∨
      (stored.existingId = none ∧ stored.data = .default) := by
  intro stored
  have hstored : stored = ((loadStoredSession id config policy).eval h w).1 := rfl
  unfold loadStoredSession at hstored
  rw [Prog.eval_bind] at hstored
  rcases hload : (h (.store (.load id)) w).1 with _ | _ | row
  · right
    simp [Store.load, await, hload] at hstored
    simp [hstored, StoredSession.fresh]
  · right
    simp [Store.load, await, hload] at hstored
    simp [hstored, StoredSession.fresh]
  · simp only [Store.load, await, Prog.eval_perform, hload, Prog.eval_bind] at hstored
    cases hverdict : ((authenticatedSessionVerdict row.migrate.1 config policy id).eval h
        (h (.store (.load id)) w).2).1 with
    | keep =>
      left
      have hvouched := vouched_of_keep h _ config policy hverdict
      refine ⟨row, ⟨hload, ?_⟩, ?_⟩
      · unfold Vouched at hvouched ⊢
        rwa [SessionData.migrate_authState] at hvouched
      · simpa [hverdict] using hstored
    | ended =>
      right
      simp [hverdict] at hstored
      simp [hstored, StoredSession.fresh]
    | distrust =>
      right
      simp [hverdict] at hstored
      simp [hstored, StoredSession.fresh]

end Load

/-- The row is bound to no fingerprint, or to one of the request's. -/
def Fingerprints.Match (fingerprints : Fingerprints) (data : SessionData V) : Prop :=
  ∀ stored, data.fingerprint = some stored →
    fingerprints.current = some stored ∨ fingerprints.previous = some stored

theorem checkBinding_cases (data : SessionData V) (fingerprints : Fingerprints) :
    (checkBinding data fingerprints).invalidated = false ∧ fingerprints.Match data ∨
      (checkBinding data fingerprints).invalidated = true ∧
        (checkBinding data fingerprints).data = .default := by
  unfold checkBinding
  split
  next stored hstored =>
    split
    next hcurrent =>
      left
      refine ⟨rfl, fun f hf => .inl ?_⟩
      rw [hstored] at hf
      cases hf
      exact eq_of_beq hcurrent
    next =>
      split
      next previous current hprevious hcurrent =>
        split
        next heq =>
          left
          refine ⟨rfl, fun f hf => .inr ?_⟩
          rw [hstored] at hf
          cases hf
          rw [hprevious, eq_of_beq heq]
        next => exact .inr ⟨rfl, rfl⟩
      next => exact .inr ⟨rfl, rfl⟩
  next hnone =>
    have hmatch : fingerprints.Match data := fun f hf => by rw [hnone] at hf; cases hf
    split
    next =>
      split
      next => exact .inl ⟨rfl, hmatch⟩
      next => exact .inl ⟨rfl, hmatch⟩
    next => exact .inl ⟨rfl, hmatch⟩

theorem checkBinding_default (fingerprints : Fingerprints) :
    (checkBinding (.default : SessionData V) fingerprints).data = .default := by
  unfold checkBinding
  cases fingerprints.current <;> rfl

section

variable (hmac : HmacSha256) (ring : SigningKeyRing) (cookieName : String)
  (fields : List HeaderValue) (config : SessionConfig) (fingerprints : Fingerprints)
  (rng : Stream' SessionId) (policy : LoadPolicy) (h : (e : Call V) → σ → e.Answer × σ) (w : σ)

/-- The request runs under the id `i` its client sent, and everything behind it was verified. -/
structure RunsUnder (load : LoadOutcome V) (i : SessionId) : Prop where
  id : load.id = i
  signed : ∃ value, Presents fields cookieName maxCookieValueBytes value ∧
    ring.Verifies hmac value i
  row : ∃ row, load.loadedRow = some row ∧ Backed h w config policy i row ∧
    fingerprints.Match row

/-- The request runs as a guest under an id that was drawn for it. -/
structure RunsFresh (load : LoadOutcome V) : Prop where
  id : load.id = rng.head
  data : load.data = .default
  loadedRow : load.loadedRow = none

theorem loadOutcome_fresh (cookie : Option VerifiedCookie) (stored : StoredSession V)
    (hid : stored.existingId = none) (hdata : stored.data = .default) :
    (loadOutcome cookie fingerprints rng stored).1.existingId = none ∧
      RunsFresh rng (loadOutcome cookie fingerprints rng stored).1 := by
  have hexisting : (loadOutcome cookie fingerprints rng stored).1.existingId = none := by
    simp [loadOutcome, hid]
  refine ⟨hexisting, ?_, ?_, ?_⟩
  · simp [loadOutcome, hid]
  · simp [loadOutcome, hdata, checkBinding_default]
  · simp [loadOutcome, hid]

theorem loadOutcome_backed {cookie : VerifiedCookie} {row : SessionData V}
    (hsigned : ∃ value, Presents fields cookieName maxCookieValueBytes value ∧
      ring.Verifies hmac value cookie.id)
    (hbacked : Backed h w config policy cookie.id row) :
    let load := (loadOutcome (some cookie) fingerprints rng
      ⟨some cookie.id, row.migrate.1, some row, false⟩).1
    (∀ i, load.existingId = some i →
      RunsUnder hmac ring cookieName fields config fingerprints policy h w load i) ∧
    (load.existingId = none → RunsFresh rng load) := by
  intro load
  rcases checkBinding_cases row.migrate.1 fingerprints with ⟨hkept, hmatch⟩ | ⟨hreset, hdata⟩
  · have hexisting : load.existingId = some cookie.id := by simp [load, loadOutcome, hkept]
    refine ⟨fun i hi => ?_, fun hnone => ?_⟩
    · rw [hexisting, Option.some.injEq] at hi
      subst hi
      refine ⟨?_, hsigned, row, ?_, hbacked, ?_⟩
      · simp [load, loadOutcome, hkept]
      · simp [load, loadOutcome, hkept]
      · intro stored hstored
        exact hmatch stored (by rwa [SessionData.migrate_fingerprint])
    · rw [hexisting] at hnone
      cases hnone
  · have hexisting : load.existingId = none := by simp [load, loadOutcome, hreset]
    refine ⟨fun i hi => ?_, fun _ => ⟨?_, hdata, ?_⟩⟩
    · rw [hexisting] at hi
      cases hi
    · simp [load, loadOutcome, hreset]
    · simp [load, loadOutcome, hreset]

theorem SigningKeyRing.signed_of_verified {cookie : VerifiedCookie}
    (hcookie : ring.verified hmac cookieName fields = some cookie) :
    ∃ value, Presents fields cookieName maxCookieValueBytes value ∧
      ring.Verifies hmac value cookie.id := by
  obtain ⟨value, hvalue, hdecode⟩ := Option.bind_eq_some_iff.mp hcookie
  exact ⟨value, extractNamedCookie_eq_some_iff.mp hvalue,
    SigningKeyRing.verifies_of_decodeCookie hmac hdecode⟩

theorem loadSession_trusts_only_verified :
    let load := ((loadSession config (ring.verified hmac cookieName fields) fingerprints rng
      policy).eval h w).1.1
    (∀ i, load.existingId = some i →
      RunsUnder hmac ring cookieName fields config fingerprints policy h w load i) ∧
    (load.existingId = none → RunsFresh rng load) := by
  cases hcookie : ring.verified hmac cookieName fields with
  | none =>
    have hfresh := loadOutcome_fresh fingerprints rng none (StoredSession.fresh : StoredSession V)
      rfl rfl
    refine ⟨fun i hi => ?_, fun _ => hfresh.2⟩
    cases hfresh.1.symm.trans hi
  | some cookie =>
    have hsigned := SigningKeyRing.signed_of_verified hmac ring cookieName fields hcookie
    simp only [loadSession, Prog.eval_bind, Prog.pure_eq_ret, Prog.eval_ret]
    rcases loadStoredSession_backed h w config policy cookie.id with
      ⟨row, hbacked, hstored⟩ | ⟨hid, hdata⟩
    · rw [hstored]
      exact loadOutcome_backed hmac ring cookieName fields config fingerprints rng policy h w
        hsigned hbacked
    · have hfresh := loadOutcome_fresh fingerprints rng (some cookie) _ hid hdata
      refine ⟨fun i hi => ?_, fun _ => hfresh.2⟩
      cases hfresh.1.symm.trans hi

end

end Axess
