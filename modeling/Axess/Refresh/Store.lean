import Axess.Refresh.Token

/-!
# The store of refresh tokens

The calls a refresh makes, and what a store answers them with that meets the contract of
`RefreshTokenStore` (`session/refresh/store.rs`): each call is one step, a revocation keeps the
reason of a token that is revoked already, and `rotate_token` inserts the child only when it
revoked a parent that was live.

A ledger is the table of rows together with what has been done to it, so that a run can be asked
which token was rotated into which.
-/

namespace Axess

open Calls

inductive RotationOutcome where
  | rotated | parentAlreadyRevoked
  deriving DecidableEq, Repr

inductive DeviceTokenRevocation where
  | unsupported
  | revoked (tokens : Nat)
  deriving DecidableEq, Repr

structure Device where
  revoked : Bool
  userId : Option UserId
  deriving DecidableEq, Repr

inductive RefreshCall where
  | findToken (tokenHash : String)
  | revokeToken (id : RefreshTokenId)
  | revokeUserTokens (userId : UserId)
  | revokeDeviceTokens (tenantId : TenantId) (deviceId : DeviceId)
  | activeTokens (userId : UserId)
  | revokeFamily (userId : UserId) (familyId : TokenFamilyId)
  | issueCapped (token : RefreshToken) (maxPerUser : Nat)
  | rotateToken (parentId : RefreshTokenId) (token : RefreshToken)
  | onTokenCompromise (userId : UserId) (familyId : TokenFamilyId)
      (devices : List (TenantId × DeviceId))
  | statusCheck (userId : UserId)
  | loadDevice (tenantId : TenantId) (deviceId : DeviceId)
  deriving DecidableEq, Repr

namespace RefreshCall

abbrev Answer : RefreshCall → Type
  | findToken _ => Except StoreError (Option RefreshToken)
  | revokeToken _ => Except StoreError Unit
  | revokeUserTokens _ => Except StoreError Unit
  | revokeDeviceTokens .. => Except StoreError DeviceTokenRevocation
  | activeTokens _ => Except StoreError (List RefreshToken)
  | revokeFamily .. => Except StoreError Unit
  | issueCapped .. => Except StoreError Unit
  | rotateToken .. => Except StoreError RotationOutcome
  | onTokenCompromise .. => Unit
  | statusCheck _ => Bool
  | loadDevice .. => Except String (Option Device)

end RefreshCall

abbrev RefreshProg := Prog RefreshCall RefreshCall.Answer

def RefreshCall.make (c : RefreshCall) : RefreshProg c.Answer := Prog.perform c

abbrev TokenTable := List RefreshToken

namespace TokenTable

variable (rows : TokenTable)

def revokeWhere (p : RefreshToken → Bool) (reason : RevocationReason) (at_ : Instant) :
    TokenTable :=
  rows.map fun t => if p t then t.revoke reason at_ else t

def active (u : UserId) : List RefreshToken :=
  (rows.filter fun t => t.userId == u && !t.revoked).insertionSort fun a b => a.issuedAt ≤ b.issuedAt

def surplus (u : UserId) (maxPerUser : Nat) : List RefreshTokenId :=
  ((rows.active u).take ((rows.active u).length + 1 - maxPerUser)).map (·.id)

def issueCapped (token : RefreshToken) (maxPerUser : Nat) (at_ : Instant) : TokenTable :=
  rows.revokeWhere (fun t => (rows.surplus token.userId maxPerUser).contains t.id) .evicted at_ ++
    [token]

def live (id : RefreshTokenId) : Bool := rows.any fun t => t.id == id && !t.revoked

def rotate (parentId : RefreshTokenId) (token : RefreshToken) : RotationOutcome × TokenTable :=
  if rows.live parentId then
    (.rotated, rows.revokeWhere (·.id == parentId) .rotated token.issuedAt ++ [token])
  else (.parentAlreadyRevoked, rows)

def perform (at_ : Instant) : (c : RefreshCall) → TokenTable → c.Answer × TokenTable
  | .findToken h, rows => (.ok (rows.find? (·.tokenHash == h)), rows)
  | .revokeToken id, rows => (.ok (), rows.revokeWhere (·.id == id) .explicit at_)
  | .revokeUserTokens u, rows => (.ok (), rows.revokeWhere (·.userId == u) .explicit at_)
  | .revokeDeviceTokens t d, rows =>
    (.ok (.revoked (rows.countP fun r => r.tenantId == t && r.deviceId == some d && !r.revoked)),
      rows.revokeWhere (fun r => r.tenantId == t && r.deviceId == some d) .device at_)
  | .activeTokens u, rows => (.ok (rows.active u), rows)
  | .revokeFamily u f, rows =>
    (.ok (), rows.revokeWhere (fun r => r.userId == u && r.familyId == some f) .compromise at_)
  | .issueCapped t max, rows => (.ok (), rows.issueCapped t max at_)
  | .rotateToken p t, rows => (.ok (rows.rotate p t).1, (rows.rotate p t).2)
  | .onTokenCompromise .., rows => ((), rows)
  | .statusCheck _, rows => (true, rows)
  | .loadDevice .., rows => (.ok none, rows)

def fault : (c : RefreshCall) → Option c.Answer
  | .findToken _ => some (.error ⟨⟩)
  | .revokeToken _ => some (.error ⟨⟩)
  | .revokeUserTokens _ => some (.error ⟨⟩)
  | .revokeDeviceTokens .. => some (.error ⟨⟩)
  | .activeTokens _ => some (.error ⟨⟩)
  | .revokeFamily .. => some (.error ⟨⟩)
  | .issueCapped .. => some (.error ⟨⟩)
  | .rotateToken .. => some (.error ⟨⟩)
  | .onTokenCompromise .. => none
  | .statusCheck _ => none
  | .loadDevice .. => none

/-- A store that holds several rows under one hash may find any of them; the account and the
device may be in any state; the hook may revoke what it likes. -/
def Answers (at_ : Instant) : (c : RefreshCall) → TokenTable → c.Answer → TokenTable → Prop
  | .findToken h, rows, a, rows' => rows' = rows ∧
    ((a = .ok none ∧ ∀ r ∈ rows, r.tokenHash ≠ h) ∨
      ∃ r ∈ rows, r.tokenHash = h ∧ a = .ok (some r))
  | .statusCheck _, rows, _, rows' => rows' = rows
  | .loadDevice .., rows, _, rows' => rows' = rows
  | .revokeDeviceTokens t d, rows, a, rows' =>
    (a, rows') = perform at_ (.revokeDeviceTokens t d) rows ∨ (a = .ok .unsupported ∧ rows' = rows)
  | .onTokenCompromise .., rows, _, rows' => ∃ p, rows' = rows.revokeWhere p .device at_
  | c, rows, a, rows' => (a, rows') = perform at_ c rows

theorem answers_perform (at_ : Instant) (c : RefreshCall) (rows : TokenTable) :
    Answers at_ c rows (perform at_ c rows).1 (perform at_ c rows).2 := by
  cases c with
  | findToken h =>
    refine ⟨rfl, ?_⟩
    cases hfind : rows.find? (·.tokenHash == h) with
    | none =>
      refine .inl ⟨by simp [perform, hfind], fun r hr => ?_⟩
      simpa using List.find?_eq_none.mp hfind r hr
    | some r =>
      refine .inr ⟨r, List.mem_of_find?_eq_some hfind, ?_, by simp [perform, hfind]⟩
      simpa using List.find?_some hfind
  | revokeDeviceTokens t d => exact .inl rfl
  | onTokenCompromise u f devices =>
    refine ⟨fun _ => false, ?_⟩
    simp [revokeWhere, perform]
  | statusCheck u => rfl
  | loadDevice t d => rfl
  | revokeToken id => rfl
  | revokeUserTokens u => rfl
  | activeTokens u => rfl
  | revokeFamily u f => rfl
  | issueCapped t max => rfl
  | rotateToken p t => rfl

end TokenTable

inductive StoreEvent where
  | issued (token : RefreshToken)
  | rotated (parentId : RefreshTokenId) (token : RefreshToken)
  | familyRevoked (userId : UserId) (familyId : TokenFamilyId)
  deriving DecidableEq

structure Ledger (ι : Type) where
  rows : TokenTable
  history : List (ι × StoreEvent)

namespace Ledger

variable {ι : Type}

def events : RefreshCall → TokenTable → List StoreEvent
  | .issueCapped t _, _ => [.issued t]
  | .rotateToken p t, rows => if rows.live p then [.rotated p t] else []
  | .revokeFamily u f, _ => [.familyRevoked u f]
  | _, _ => []

def Took (i : ι) (c : RefreshCall) (s : Ledger ι) (a : c.Answer) (s' : Ledger ι) : Prop :=
  (∃ at_, TokenTable.Answers at_ c s.rows a s'.rows) ∧
    s'.history = s.history ++ (events c s.rows).map (i, ·)

/-- A store that meets the contract: a call takes effect, or it fails; one that fails may have
taken effect all the same. -/
def contract (i : ι) : Sem RefreshCall RefreshCall.Answer (Ledger ι) := fun c s a s' =>
  Took i c s a s' ∨ (TokenTable.fault c = some a ∧ (s' = s ∨ ∃ b, Took i c s b s'))

end Ledger

end Axess
