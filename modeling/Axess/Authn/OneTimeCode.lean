import Axess.Authn.Login
import Axess.Refresh.Token

/-!
# One-time codes

The stored factors whose codes are spent by using them, and what checking a code against one of
them comes to: time-based and counter-based codes (`totp.rs`, `hotp.rs`), emailed codes and
recovery codes (`email_otp.rs`, `recovery_code.rs`), with the service's own part of each check
(`authn/service/verification.rs`).

The keyed hashes, the password hash and the decoding of a secret are parameters. A code that is
spent leaves a mark in the row: `OtpConfig.spent` is what the row no longer accepts, and
`OtpConfig.check_spends` says that a pass accepts a code that was not spent and spends it.
-/

namespace Axess

inductive FactorSecret where
  | plain (text : String)
  | sealed (text : String)
  deriving DecidableEq, Repr

inductive OtpAlgorithm where
  | sha1 | sha256 | sha512
  deriving DecidableEq, Repr

structure TotpConfig where
  secret : FactorSecret
  digits : Nat
  periodSecs : Nat
  algorithm : OtpAlgorithm
  pastWindow : Nat
  futureWindow : Nat
  lastStep : Option Nat
  deriving DecidableEq, Repr

structure HotpConfig where
  secret : FactorSecret
  digits : Nat
  algorithm : OtpAlgorithm
  counter : Nat
  lookaheadWindow : Nat
  attemptCount : Nat
  maxAttempts : Nat
  lockedUntil : Option Instant
  lockouts : Nat
  deriving DecidableEq, Repr

structure EmailOtpConfig where
  email : String
  codeLength : Nat
  ttlSecs : Nat
  pendingHash : Option String
  pendingUntil : Option Instant
  attemptCount : Nat
  maxAttempts : Nat
  deriving DecidableEq, Repr

structure StoredRecoveryCode where
  hash : String
  usedAt : Option Instant
  deriving DecidableEq, Repr

structure RecoveryCodesConfig where
  codes : List StoredRecoveryCode
  underPreviousPepper : Bool
  deriving DecidableEq, Repr

inductive OtpConfig where
  | totp (cfg : TotpConfig)
  | hotp (cfg : HotpConfig)
  | emailOtp (cfg : EmailOtpConfig)
  | recoveryCodes (cfg : RecoveryCodesConfig)
  deriving DecidableEq, Repr

def OtpConfig.kind : OtpConfig → FactorKind
  | totp _ => .totp
  | hotp _ => .hotp
  | emailOtp _ => .emailOtp
  | recoveryCodes _ => .recoveryCode

structure OtpPrimitives where
  isWhitespace : Char → Bool
  decodeBase32 : String → Option (List UInt8)
  hotpValue : List UInt8 → Nat → Nat → OtpAlgorithm → Nat
  verifyPassword : String → String → Bool
  keyedMac : String → Option (List UInt8)
  recoveryMac : Pepper → String → List UInt8

structure RecoveryPeppers where
  current : Option Pepper
  previous : Option Pepper

inductive OtpOutcome where
  | fail
  | failWithUpdate (config : OtpConfig)
  | passWithUpdate (config : OtpConfig)
  deriving DecidableEq, Repr

def maxU8 : Nat := 2 ^ 8 - 1

def maxOtpCodeBytes : Nat := 64

def minOtpDigits : Nat := 6

def maxTotpDigits : Nat := 8

def maxHotpDigits : Nat := 10

def minOtpSecretBytes : Nat := 16

def maxTotpWindow : Nat := 2

def effectiveMaxAttempts (configured : Nat) : Nat := if configured = 0 then 5 else configured

def FactorSecret.plainText : FactorSecret → Option String
  | plain text => some text
  | sealed _ => none

section Checks

variable (lib : OtpPrimitives)

def OtpPrimitives.trim (text : String) : String :=
  String.ofList (((text.toList.dropWhile lib.isWhitespace).reverse.dropWhile
    lib.isWhitespace).reverse)

def decodeSecret (secret : String) : Option (List UInt8) :=
  (lib.decodeBase32 (lib.trim secret)).filter fun bytes => minOtpSecretBytes ≤ bytes.length

def zeroPadded (length value : Nat) : String :=
  "".pushn '0' (length - (toString value).length) ++ toString value

def totpMatches (secret : List UInt8) (code : String) (cfg : TotpConfig) (step : Nat) : Bool :=
  let seconds := min (step * cfg.periodSecs) maxU64
  zeroPadded cfg.digits (lib.hotpValue secret (seconds / cfg.periodSecs) cfg.digits cfg.algorithm) ==
    code

def totpSteps (cfg : TotpConfig) (current : Nat) : List Nat :=
  [current] ++
    ((List.range (min cfg.futureWindow maxTotpWindow)).map (current + 1 + ·)).filter (· ≤ maxU64) ++
    ((List.range (min cfg.pastWindow maxTotpWindow)).filter (· + 1 ≤ current)).map (current - 1 - ·)

def verifyTotp (secret code : String) (now : Instant) (cfg : TotpConfig) : Option Nat :=
  let code := lib.trim code
  if code.isEmpty then none
  else if cfg.digits < minOtpDigits ∨ maxTotpDigits < cfg.digits then none
  else if cfg.periodSecs = 0 then none
  else
    (decodeSecret lib secret).bind fun bytes =>
      let seconds := now / 1000000000
      if seconds < 0 then none
      else (totpSteps cfg (seconds.toNat / cfg.periodSecs)).find? (totpMatches lib bytes code cfg)

/-- A step at or before the last one accepted is a replay. -/
def verifyTotpFactor (code : String) (cfg : TotpConfig) (now : Instant) : OtpOutcome :=
  if maxOtpCodeBytes < code.utf8ByteSize then .fail
  else
    match cfg.secret.plainText.bind fun secret => verifyTotp lib secret code now cfg with
    | none => .fail
    | some step =>
      if cfg.lastStep.any (step ≤ ·) then .fail
      else .passWithUpdate (.totp { cfg with lastStep := some step })

namespace HotpConfig

variable (cfg : HotpConfig)

def isLockedAt (now : Instant) : Bool := cfg.lockedUntil.any (now < ·)

def lockDurationAfter (lockouts : Nat) : Duration :=
  min (60000000000 * 2 ^ min lockouts 31) 3600000000000

def lockAt (now : Instant) : HotpConfig :=
  { cfg with
    lockedUntil := some ((checkedAddSigned now (lockDurationAfter cfg.lockouts)).getD maxUtc)
    lockouts := min (cfg.lockouts + 1) maxU8
    attemptCount := 0 }

def clearLock : HotpConfig := { cfg with lockedUntil := none, lockouts := 0, attemptCount := 0 }

def applyFailure (now : Instant) : HotpConfig :=
  if cfg.isLockedAt now then cfg
  else
    let next := { cfg with attemptCount := min (cfg.attemptCount + 1) maxU8 }
    if effectiveMaxAttempts cfg.maxAttempts ≤ next.attemptCount then next.lockAt now else next

end HotpConfig

def suppliedValue (length : Nat) (code : String) : Option Nat :=
  if code.utf8ByteSize = length ∧ code.toList.all Char.isDigit then code.toNat? else none

def verifyHotp (secret code : String) (cfg : HotpConfig) : Option Nat :=
  if cfg.digits < minOtpDigits ∨ maxHotpDigits < cfg.digits then none
  else
    (decodeSecret lib secret).bind fun bytes =>
      (suppliedValue cfg.digits (lib.trim code)).bind fun supplied =>
        (((List.range (cfg.lookaheadWindow + 1)).map (cfg.counter + ·)).filter (· ≤ maxU64)).find?
          fun counter => lib.hotpValue bytes counter cfg.digits cfg.algorithm == supplied

def verifyHotpFactor (code : String) (cfg : HotpConfig) (now : Instant) : OtpOutcome :=
  if maxOtpCodeBytes < code.utf8ByteSize then .fail
  else if cfg.isLockedAt now then .fail
  else if effectiveMaxAttempts cfg.maxAttempts ≤ cfg.attemptCount then
    .failWithUpdate (.hotp (cfg.applyFailure now))
  else
    match cfg.secret.plainText with
    | none => .fail
    | some secret =>
      match verifyHotp lib secret code cfg with
      | none => .failWithUpdate (.hotp (cfg.applyFailure now))
      | some counter =>
        .passWithUpdate (.hotp { cfg with counter := min (counter + 1) maxU64 }.clearLock)

def EmailOtpConfig.applyFailure (cfg : EmailOtpConfig) : EmailOtpConfig :=
  if effectiveMaxAttempts cfg.maxAttempts ≤ cfg.attemptCount then
    { cfg with pendingHash := none, attemptCount := 0 }
  else { cfg with attemptCount := min (cfg.attemptCount + 1) maxU8 }

def verifyEmailOtpFactor (code : String) (cfg : EmailOtpConfig) (now : Instant) : OtpOutcome :=
  if maxOtpCodeBytes < code.utf8ByteSize then .fail
  else if !code.toList.all Char.isDigit then .fail
  else
    match cfg.pendingHash with
    | none => .fail
    | some hash =>
      if !cfg.pendingUntil.any (now ≤ ·) then .fail
      else if effectiveMaxAttempts cfg.maxAttempts ≤ cfg.attemptCount then
        .failWithUpdate (.emailOtp { cfg with pendingHash := none, attemptCount := 0 })
      else if !lib.verifyPassword code hash then
        .failWithUpdate (.emailOtp { cfg with attemptCount := min (cfg.attemptCount + 1) maxU8 })
      else
        .passWithUpdate
          (.emailOtp { cfg with pendingHash := none, pendingUntil := none, attemptCount := 0 })

def recoveryCodeLength : Nat := 10

def recoveryCodeAlphabet : List Char := "ABCDEFGHJKLMNPQRSTUVWXYZ23456789".toList

def normalizeRecoveryCode (raw : String) : String :=
  String.ofList ((raw.toList.filter fun c => !lib.isWhitespace c && c != '-').map Char.toUpper)

/-- How a stored code compares: under the current pepper, and under the previous one. A code stored
as a password hash compares as under the current. -/
def recoveryEqual (peppers : RecoveryPeppers) (candidate : String) (code : StoredRecoveryCode) :
    Bool × Bool :=
  match lib.keyedMac code.hash with
  | some stored =>
    (peppers.current.any (lib.recoveryMac · candidate == stored),
      peppers.previous.any (lib.recoveryMac · candidate == stored))
  | none => (lib.verifyPassword candidate code.hash, false)

def findMatch (peppers : RecoveryPeppers) (candidate : String) (cfg : RecoveryCodesConfig) :
    Option Nat :=
  cfg.codes.findIdx? fun code =>
    code.usedAt.isNone && ((recoveryEqual lib peppers candidate code).1 ||
      (recoveryEqual lib peppers candidate code).2)

def viaPrevious (peppers : RecoveryPeppers) (candidate : String) (cfg : RecoveryCodesConfig)
    (index : Nat) : Bool :=
  cfg.codes[index]?.any fun code =>
    (recoveryEqual lib peppers candidate code).2 && !(recoveryEqual lib peppers candidate code).1

def RecoveryCodesConfig.spend (cfg : RecoveryCodesConfig) (index : Nat) (now : Instant) :
    RecoveryCodesConfig :=
  { cfg with codes := cfg.codes.modify index fun code => { code with usedAt := some now } }

def matchedRecoveryCode (peppers : RecoveryPeppers) (submitted : String)
    (cfg : RecoveryCodesConfig) : Option Nat :=
  let candidate := normalizeRecoveryCode lib submitted
  if candidate.utf8ByteSize ≠ recoveryCodeLength ∨
      !candidate.toList.all recoveryCodeAlphabet.contains then none
  else findMatch lib peppers candidate cfg

def verifyRecoveryCodeFactor (peppers : RecoveryPeppers) (code : String)
    (cfg : RecoveryCodesConfig) (now : Instant) : OtpOutcome :=
  if maxOtpCodeBytes < code.utf8ByteSize then .fail
  else
    match matchedRecoveryCode lib peppers code cfg with
    | none => .fail
    | some index =>
      let spent := cfg.spend index now
      .passWithUpdate (.recoveryCodes { spent with
        underPreviousPepper := spent.underPreviousPepper ||
          viaPrevious lib peppers (normalizeRecoveryCode lib code) cfg index })

def OtpConfig.check (peppers : RecoveryPeppers) (credential : FactorCredential) (now : Instant) :
    OtpConfig → OtpOutcome
  | .totp cfg =>
    match credential with
    | .otpCode code => verifyTotpFactor lib code cfg now
    | _ => .fail
  | .hotp cfg =>
    match credential with
    | .otpCode code => verifyHotpFactor lib code cfg now
    | _ => .fail
  | .emailOtp cfg =>
    match credential with
    | .otpCode code => verifyEmailOtpFactor lib code cfg now
    | _ => .fail
  | .recoveryCodes cfg =>
    match credential with
    | .recoveryCode code => verifyRecoveryCodeFactor lib peppers code cfg now
    | _ => .fail

def OtpConfig.recount (now : Instant) : OtpConfig → OtpConfig
  | .hotp cfg => .hotp (cfg.applyFailure now)
  | .emailOtp cfg => .emailOtp cfg.applyFailure
  | config => config

/-- The code a credential is accepted as: a step, a counter, the hash of an emailed code, the place
of a recovery code in its set. -/
inductive SpentCode where
  | step (n : Nat)
  | counter (n : Nat)
  | emailed (hash : String)
  | recovery (index : Nat)
  deriving DecidableEq, Repr

def OtpConfig.matched (peppers : RecoveryPeppers) (credential : FactorCredential) (now : Instant) :
    OtpConfig → Option SpentCode
  | .totp cfg =>
    match credential with
    | .otpCode code =>
      (cfg.secret.plainText.bind fun secret => verifyTotp lib secret code now cfg).map .step
    | _ => none
  | .hotp cfg =>
    match credential with
    | .otpCode code =>
      (cfg.secret.plainText.bind fun secret => verifyHotp lib secret code cfg).map .counter
    | _ => none
  | .emailOtp cfg => cfg.pendingHash.map .emailed
  | .recoveryCodes cfg =>
    match credential with
    | .recoveryCode code => (matchedRecoveryCode lib peppers code cfg).map .recovery
    | _ => none

/-! ## What a row no longer accepts -/

def OtpConfig.Refuses : OtpConfig → SpentCode → Prop
  | .totp cfg, .step n => ∃ last, cfg.lastStep = some last ∧ n ≤ last
  | .hotp cfg, .counter n => n < cfg.counter
  | .emailOtp cfg, .emailed hash => cfg.pendingHash ≠ some hash
  | .recoveryCodes cfg, .recovery index => ∃ code, cfg.codes[index]? = some code ∧ code.usedAt ≠ none
  | _, _ => False

/-- The order codes are accepted in: steps and counters go up, no other code comes twice. -/
def SpentCode.Before : SpentCode → SpentCode → Prop
  | .step n, .step m => n < m
  | .counter n, .counter m => n < m
  | x, y => x ≠ y

theorem SpentCode.Before.ne {x y : SpentCode} (h : x.Before y) : x ≠ y := by
  rintro rfl
  cases x with
  | step n => exact Nat.lt_irrefl n h
  | counter n => exact Nat.lt_irrefl n h
  | emailed hash => exact h rfl
  | recovery index => exact h rfl

theorem OtpConfig.Refuses.before {config : OtpConfig} {x y : SpentCode} (hx : config.Refuses x)
    (hy : ¬config.Refuses y) : x.Before y := by
  have hne : x ≠ y := by
    rintro rfl
    exact hy hx
  cases x with
  | step n =>
    cases y with
    | step m =>
      cases config with
      | totp cfg =>
        obtain ⟨last, hlast, hn⟩ := hx
        refine lt_of_le_of_lt hn (not_le.mp fun hm => hy ⟨last, hlast, hm⟩)
      | hotp cfg => cases hx
      | emailOtp cfg => cases hx
      | recoveryCodes cfg => cases hx
    | counter m => exact hne
    | emailed hash => exact hne
    | recovery index => exact hne
  | counter n =>
    cases y with
    | counter m =>
      cases config with
      | hotp cfg => exact lt_of_lt_of_le hx (not_lt.mp hy)
      | totp cfg => cases hx
      | emailOtp cfg => cases hx
      | recoveryCodes cfg => cases hx
    | step m => exact hne
    | emailed hash => exact hne
    | recovery index => exact hne
  | emailed hash => exact hne
  | recovery index => exact hne

/-- A change of a row that brings no spent code back. -/
structure OtpConfig.Keeps (c c' : OtpConfig) : Prop where
  kind : c'.kind = c.kind
  refuses : ∀ x, c.Refuses x → c'.Refuses x

theorem OtpConfig.Keeps.refl (c : OtpConfig) : c.Keeps c := ⟨rfl, fun _ hx => hx⟩

variable {c c' : OtpConfig}

theorem OtpConfig.Keeps.trans {c'' : OtpConfig} (h : c.Keeps c') (h' : c'.Keeps c'') :
    c.Keeps c'' :=
  ⟨h'.kind.trans h.kind, fun x hx => h'.refuses x (h.refuses x hx)⟩

theorem HotpConfig.applyFailure_counter (cfg : HotpConfig) (now : Instant) :
    (cfg.applyFailure now).counter = cfg.counter := by
  unfold applyFailure
  split
  · rfl
  · simp only
    split <;> rfl

variable {cfg : HotpConfig}

theorem keeps_hotp {cfg' : HotpConfig} (h : cfg.counter ≤ cfg'.counter) :
    (OtpConfig.hotp cfg).Keeps (.hotp cfg') := by
  refine ⟨rfl, fun x hx => ?_⟩
  cases x with
  | counter n => exact lt_of_lt_of_le hx h
  | step n => cases hx
  | emailed hash => cases hx
  | recovery index => cases hx

theorem keeps_emailOtp {cfg cfg' : EmailOtpConfig}
    (h : cfg'.pendingHash = cfg.pendingHash ∨ cfg'.pendingHash = none) :
    (OtpConfig.emailOtp cfg).Keeps (.emailOtp cfg') := by
  refine ⟨rfl, fun x hx => ?_⟩
  cases x with
  | emailed hash =>
    show cfg'.pendingHash ≠ some hash
    rcases h with h | h
    · rw [h]
      exact hx
    · rw [h]
      exact nofun
  | step n => cases hx
  | counter n => cases hx
  | recovery index => cases hx

theorem OtpConfig.keeps_recount (now : Instant) (c : OtpConfig) : c.Keeps (c.recount now) := by
  cases c with
  | totp cfg => exact .refl _
  | recoveryCodes cfg => exact .refl _
  | hotp cfg => exact keeps_hotp (Nat.le_of_eq (cfg.applyFailure_counter now).symm)
  | emailOtp cfg =>
    refine keeps_emailOtp ?_
    unfold EmailOtpConfig.applyFailure
    split
    · exact .inr rfl
    · exact .inl rfl

def OtpConfig.BelowMax : OtpConfig → Prop
  | .hotp cfg => cfg.counter < maxU64
  | _ => True

structure OtpConfig.Spends (c c' : OtpConfig) (x : SpentCode) : Prop where
  keeps : c.Keeps c'
  unspent : ¬c.Refuses x
  spent : c'.BelowMax → c'.Refuses x

variable {code : String}

theorem verifyHotp_window {secret : String} {counter : Nat}
    (h : verifyHotp lib secret code cfg = some counter) :
    cfg.counter ≤ counter ∧ counter ≤ cfg.counter + cfg.lookaheadWindow ∧ counter ≤ maxU64 := by
  unfold verifyHotp at h
  split at h
  · cases h
  · simp only [Option.bind_eq_some_iff] at h
    obtain ⟨bytes, -, supplied, -, hfind⟩ := h
    have hin := List.mem_of_find?_eq_some hfind
    simp only [List.mem_filter, List.mem_map, List.mem_range] at hin
    obtain ⟨⟨offset, hoffset, rfl⟩, hmax⟩ := hin
    exact ⟨Nat.le_add_right _ _, by omega, by simpa using hmax⟩

variable {peppers : RecoveryPeppers}

theorem matchedRecoveryCode_unspent {submitted : String}
    {cfg : RecoveryCodesConfig} {index : Nat}
    (h : matchedRecoveryCode lib peppers submitted cfg = some index) :
    ∃ code, cfg.codes[index]? = some code ∧ code.usedAt = none := by
  unfold matchedRecoveryCode at h
  simp only at h
  split at h
  · cases h
  · unfold findMatch at h
    rw [List.findIdx?_eq_some_iff_getElem] at h
    obtain ⟨hlt, hmatch, -⟩ := h
    refine ⟨cfg.codes[index], List.getElem?_eq_getElem hlt, ?_⟩
    rw [Bool.and_eq_true] at hmatch
    exact Option.isNone_iff_eq_none.mp hmatch.1

theorem RecoveryCodesConfig.spend_codes (cfg : RecoveryCodesConfig) (index i : Nat)
    (now : Instant) :
    (cfg.spend index now).codes[i]? =
      if index = i then cfg.codes[i]?.map ({ · with usedAt := some now }) else cfg.codes[i]? := by
  simp only [spend, List.getElem?_modify]
  split
  · rfl
  · simp

theorem keeps_recoveryCodes {cfg cfg' : RecoveryCodesConfig} (index : Nat) (now : Instant)
    (h : cfg'.codes = (cfg.spend index now).codes) :
    (OtpConfig.recoveryCodes cfg).Keeps (.recoveryCodes cfg') := by
  refine ⟨rfl, fun x hx => ?_⟩
  cases x with
  | recovery i =>
    obtain ⟨code, hcode, hused⟩ := hx
    show ∃ code, cfg'.codes[i]? = some code ∧ code.usedAt ≠ none
    rw [h, cfg.spend_codes, hcode]
    split
    · exact ⟨_, rfl, by simp⟩
    · exact ⟨code, rfl, hused⟩
  | step n => cases hx
  | counter n => cases hx
  | emailed hash => cases hx

/-! ## What a check does to the row -/

variable {now : Instant}

theorem verifyTotpFactor_spends {cfg : TotpConfig}
    (h : verifyTotpFactor lib code cfg now = .passWithUpdate c') :
    ∃ step, (cfg.secret.plainText.bind fun secret => verifyTotp lib secret code now cfg) =
      some step ∧ (OtpConfig.totp cfg).Spends c' (.step step) := by
  unfold verifyTotpFactor at h
  split at h
  · cases h
  · split at h
    · cases h
    · next step hstep =>
      split at h
      · cases h
      · next hlast =>
        cases h
        refine ⟨step, hstep, ⟨rfl, fun x hx => ?_⟩, ?_, fun _ => ⟨step, rfl, le_rfl⟩⟩
        · cases x with
          | step n =>
            obtain ⟨last, hsome, hn⟩ := hx
            rw [hsome] at hlast
            have hlt : last < step := by simpa using hlast
            exact ⟨step, rfl, Nat.le_trans hn (Nat.le_of_lt hlt)⟩
          | counter n => cases hx
          | emailed hash => cases hx
          | recovery index => cases hx
        · rintro ⟨last, hsome, hle⟩
          rw [hsome] at hlast
          exact hlast (by simpa using hle)

theorem verifyHotpFactor_spends (h : verifyHotpFactor lib code cfg now = .passWithUpdate c') :
    ∃ counter, (cfg.secret.plainText.bind fun secret => verifyHotp lib secret code cfg) =
      some counter ∧ (OtpConfig.hotp cfg).Spends c' (.counter counter) := by
  unfold verifyHotpFactor at h
  split at h
  · cases h
  · split at h
    · cases h
    · split at h
      · cases h
      · split at h
        · cases h
        · next secret hsecret =>
          split at h
          · cases h
          · next counter hcounter =>
            cases h
            obtain ⟨hge, -, hle⟩ := verifyHotp_window lib hcounter
            refine ⟨counter, by rw [hsecret]; exact hcounter, keeps_hotp ?_, Nat.not_lt.mpr hge,
              fun hmax => ?_⟩
            · -- also where the new counter sticks at the largest number
              show cfg.counter ≤ min (counter + 1) maxU64
              omega
            · have hlt : min (counter + 1) maxU64 < maxU64 := hmax
              show counter < min (counter + 1) maxU64
              omega

theorem verifyEmailOtpFactor_keeps {cfg : EmailOtpConfig}
    (h : verifyEmailOtpFactor lib code cfg now = .failWithUpdate c') :
    (OtpConfig.emailOtp cfg).Keeps c' := by
  unfold verifyEmailOtpFactor at h
  split at h
  · cases h
  · split at h
    · cases h
    · split at h
      · cases h
      · split at h
        · cases h
        · split at h
          · cases h
            exact keeps_emailOtp (.inr rfl)
          · split at h
            · cases h
              exact keeps_emailOtp (.inl rfl)
            · cases h

theorem verifyEmailOtpFactor_spends {cfg : EmailOtpConfig}
    (h : verifyEmailOtpFactor lib code cfg now = .passWithUpdate c') :
    ∃ hash, cfg.pendingHash = some hash ∧ (OtpConfig.emailOtp cfg).Spends c' (.emailed hash) := by
  unfold verifyEmailOtpFactor at h
  split at h
  · cases h
  · split at h
    · cases h
    · split at h
      · cases h
      · next hash hhash =>
        split at h
        · cases h
        · split at h
          · cases h
          · split at h
            · cases h
            · cases h
              exact ⟨hash, hhash, keeps_emailOtp (.inr rfl), fun hrefused => hrefused hhash,
                fun _ => nofun⟩

theorem verifyRecoveryCodeFactor_spends {cfg : RecoveryCodesConfig}
    (h : verifyRecoveryCodeFactor lib peppers code cfg now = .passWithUpdate c') :
    ∃ index, matchedRecoveryCode lib peppers code cfg = some index ∧
      (OtpConfig.recoveryCodes cfg).Spends c' (.recovery index) := by
  unfold verifyRecoveryCodeFactor at h
  split at h
  · cases h
  · split at h
    · cases h
    · next index hindex =>
      cases h
      obtain ⟨stored, hstored, hunused⟩ := matchedRecoveryCode_unspent lib hindex
      refine ⟨index, hindex, keeps_recoveryCodes index now rfl, ?_, fun _ => ?_⟩
      · rintro ⟨other, hother, hused⟩
        rw [hstored] at hother
        cases hother
        exact hused hunused
      · refine ⟨{ stored with usedAt := some now }, ?_, nofun⟩
        show (cfg.spend index now).codes[index]? = _
        rw [cfg.spend_codes, if_pos rfl, hstored]
        rfl

theorem verifyTotpFactor_ne_failWithUpdate (code : String) (cfg : TotpConfig) (now : Instant)
    (c' : OtpConfig) : verifyTotpFactor lib code cfg now ≠ .failWithUpdate c' := by
  unfold verifyTotpFactor
  split
  · exact nofun
  · split
    · exact nofun
    · split <;> exact nofun

theorem verifyRecoveryCodeFactor_ne_failWithUpdate (peppers : RecoveryPeppers) (code : String)
    (cfg : RecoveryCodesConfig) (now : Instant) (c' : OtpConfig) :
    verifyRecoveryCodeFactor lib peppers code cfg now ≠ .failWithUpdate c' := by
  unfold verifyRecoveryCodeFactor
  split
  · exact nofun
  · split <;> exact nofun

variable {credential : FactorCredential}

theorem OtpConfig.check_keeps (h : c.check lib peppers credential now = .failWithUpdate c') :
    c.Keeps c' := by
  cases c with
  | totp cfg =>
    cases credential with
    | otpCode code => exact absurd h (verifyTotpFactor_ne_failWithUpdate lib code cfg now c')
    | _ => cases h
  | hotp cfg =>
    cases credential with
    | otpCode code =>
      have h : verifyHotpFactor lib code cfg now = .failWithUpdate c' := h
      have hkeeps : (OtpConfig.hotp cfg).Keeps (.hotp (cfg.applyFailure now)) :=
        (OtpConfig.hotp cfg).keeps_recount now
      unfold verifyHotpFactor at h
      split at h
      · cases h
      · split at h
        · cases h
        · split at h
          · cases h
            exact hkeeps
          · split at h
            · cases h
            · split at h
              · cases h
                exact hkeeps
              · cases h
    | _ => cases h
  | emailOtp cfg =>
    cases credential with
    | otpCode code => exact verifyEmailOtpFactor_keeps lib h
    | _ => cases h
  | recoveryCodes cfg =>
    cases credential with
    | recoveryCode code =>
      exact absurd h (verifyRecoveryCodeFactor_ne_failWithUpdate lib peppers code cfg now c')
    | _ => cases h

theorem OtpConfig.check_counts (h : c.check lib peppers credential now = .failWithUpdate c') :
    c.kind = .hotp ∨ c.kind = .emailOtp := by
  cases c with
  | totp cfg =>
    cases credential with
    | otpCode code => exact absurd h (verifyTotpFactor_ne_failWithUpdate lib code cfg now c')
    | _ => cases h
  | hotp cfg => exact .inl rfl
  | emailOtp cfg => exact .inr rfl
  | recoveryCodes cfg =>
    cases credential with
    | recoveryCode code =>
      exact absurd h (verifyRecoveryCodeFactor_ne_failWithUpdate lib peppers code cfg now c')
    | _ => cases h

theorem OtpConfig.check_spends (h : c.check lib peppers credential now = .passWithUpdate c') :
    ∃ x, c.matched lib peppers credential now = some x ∧ c.Spends c' x := by
  cases c with
  | totp cfg =>
    cases credential with
    | otpCode code =>
      obtain ⟨step, hstep, hspends⟩ := verifyTotpFactor_spends lib h
      exact ⟨.step step, congrArg (Option.map SpentCode.step) hstep, hspends⟩
    | _ => cases h
  | hotp cfg =>
    cases credential with
    | otpCode code =>
      obtain ⟨counter, hcounter, hspends⟩ := verifyHotpFactor_spends lib h
      exact ⟨.counter counter, congrArg (Option.map SpentCode.counter) hcounter, hspends⟩
    | _ => cases h
  | emailOtp cfg =>
    cases credential with
    | otpCode code =>
      obtain ⟨hash, hhash, hspends⟩ := verifyEmailOtpFactor_spends lib h
      exact ⟨.emailed hash, congrArg (Option.map SpentCode.emailed) hhash, hspends⟩
    | _ => cases h
  | recoveryCodes cfg =>
    cases credential with
    | recoveryCode code =>
      obtain ⟨index, hindex, hspends⟩ := verifyRecoveryCodeFactor_spends lib h
      exact ⟨.recovery index, congrArg (Option.map SpentCode.recovery) hindex, hspends⟩
    | _ => cases h

end Checks

def OtpConfig.unsealed : OtpConfig → OtpConfig
  | .totp cfg => .totp { cfg with secret := .plain "" }
  | .hotp cfg => .hotp { cfg with secret := .plain "" }
  | config => config

theorem OtpConfig.refuses_unsealed (c : OtpConfig) (x : SpentCode) :
    c.unsealed.Refuses x ↔ c.Refuses x := by
  cases c <;> cases x <;> exact Iff.rfl

theorem OtpConfig.kind_unsealed (c : OtpConfig) : c.unsealed.kind = c.kind := by
  cases c <;> rfl

theorem OtpConfig.belowMax_unsealed (c : OtpConfig) : c.unsealed.BelowMax ↔ c.BelowMax := by
  cases c <;> exact Iff.rfl

theorem OtpConfig.keeps_of_unsealed {c c' : OtpConfig} (h : c'.unsealed = c.unsealed) :
    c.Keeps c' := by
  refine ⟨?_, fun x hx => ?_⟩
  · rw [← c'.kind_unsealed, h, c.kind_unsealed]
  · rw [← c'.refuses_unsealed, h, c.refuses_unsealed]
    exact hx

theorem OtpConfig.Spends.of_unsealed {c c₁ c₂ c' : OtpConfig} {x : SpentCode}
    (hopen : c₁.unsealed = c.unsealed) (h : c₁.Spends c₂ x) (hseal : c'.unsealed = c₂.unsealed) :
    c.Spends c' x := by
  refine ⟨((keeps_of_unsealed hopen).trans h.keeps).trans (keeps_of_unsealed hseal), ?_, ?_⟩
  · rw [← c.refuses_unsealed, ← hopen, c₁.refuses_unsealed]
    exact h.unspent
  · rw [← c'.refuses_unsealed, ← c'.belowMax_unsealed, hseal, c₂.refuses_unsealed,
      c₂.belowMax_unsealed]
    exact h.spent

end Axess
