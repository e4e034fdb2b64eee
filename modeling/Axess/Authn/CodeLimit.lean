import Axess.Authn.OneTimeCode

/-!
# Guessing a one-time code

A stored factor counts the wrong codes it is given: an emailed code is burned at the limit, a
counter-based factor is locked for a while. Over any sequence of verifications, each of which stores
what it returned, this bounds how many codes are compared.
-/

namespace Axess

structure Attempt where
  code : String
  now : Instant
  ge_min : minUtc ≤ now

def OtpOutcome.stored (config : OtpConfig) : OtpOutcome → OtpConfig
  | .fail => config
  | .failWithUpdate next => next
  | .passWithUpdate next => next

namespace EmailOtpConfig

variable (lib : OtpPrimitives)

def next (cfg : EmailOtpConfig) (a : Attempt) : EmailOtpConfig :=
  match (verifyEmailOtpFactor lib a.code cfg a.now).stored (.emailOtp cfg) with
  | .emailOtp next => next
  | _ => cfg

def left (cfg : EmailOtpConfig) : Nat :=
  if cfg.pendingHash.isSome then effectiveMaxAttempts cfg.maxAttempts - cfg.attemptCount else 0

variable {lib} {cfg : EmailOtpConfig} {a : Attempt}

end EmailOtpConfig

/-! ## Counter-based codes -/

namespace HotpConfig

variable (lib : OtpPrimitives)

def passes (cfg : HotpConfig) (a : Attempt) : Bool :=
  match verifyHotpFactor lib a.code cfg a.now with
  | .passWithUpdate _ => true
  | _ => false

def next (cfg : HotpConfig) (a : Attempt) : HotpConfig :=
  match (verifyHotpFactor lib a.code cfg a.now).stored (.hotp cfg) with
  | .hotp next => next
  | _ => cfg

variable {lib} {cfg : HotpConfig} {a : Attempt}

end HotpConfig

end Axess
