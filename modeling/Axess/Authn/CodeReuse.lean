import Axess.Calls.Writes
import Axess.Authn.Guess
import Axess.Authn.OneTimeCode

/-!
# A one-time code passes once

Any number of verifications of one factor race: each reads the factor, checks its code against
what it read, and swaps in what the check made of it, on the condition that nothing was written
meanwhile. The factor is the user's own row, or one inherited from the tenant or the system; the
first write then makes the user's own row.

The writes form a log in which each is over the row the one before it left. A failure brings no
spent code back and a pass spends its code, so what passes later was not spent earlier.
-/

namespace Axess

open Calls Relation

variable {V ι : Type}

structure RowCodec where
  encode : OtpConfig → String
  decode : String → Option OtpConfig
  decode_encode : ∀ c, decode (encode c) = some c

namespace RowCodec

variable (codec : RowCodec)

def row (c : OtpConfig) : FactorConfig := .other c.kind (codec.encode c)

def outcome : OtpOutcome → RowOutcome
  | .fail => .fail
  | .failWithUpdate c => .failWithUpdate (codec.encode c)
  | .passWithUpdate c => .passWithUpdate (codec.encode c)

theorem encode_inj {c c' : OtpConfig} (h : codec.encode c = codec.encode c') : c = c' := by
  have hdecode := congrArg codec.decode h
  rw [codec.decode_encode, codec.decode_encode] at hdecode
  exact Option.some.inj hdecode

theorem row_inj {c c' : OtpConfig} (h : codec.row c = codec.row c') : c = c' :=
  codec.encode_inj (FactorConfig.other.inj h).2

end RowCodec

/-- A factor library that checks one-time codes: opening and sealing a row touch its secret only,
a check that runs comes out as `OtpConfig.check` says, and a failure is counted at some reading of
the clock. -/
structure Verifier.Checks (verifier : Verifier) (codec : RowCodec) (lib : OtpPrimitives)
    (peppers : RecoveryPeppers) : Prop where
  opens : ∀ c row, verifier.openRow c.kind (codec.encode c) = some row →
    ∃ c', row = codec.encode c' ∧ c'.unsealed = c.unsealed
  seals : ∀ c row, verifier.sealRow c.kind (codec.encode c) = some row →
    ∃ c', row = codec.encode c' ∧ c'.unsealed = c.unsealed
  row : ∀ credential c now outcome, verifier.row credential c.kind (codec.encode c) now =
    some outcome → outcome = codec.outcome (c.check lib peppers credential now)
  recounts : ∀ c now, ∃ later, verifier.recountRow c.kind (codec.encode c) now =
    codec.encode (c.recount later)

section Verdict

variable {codec : RowCodec} {lib : OtpPrimitives} {peppers : RecoveryPeppers}
  {service : LoginService} {credential : FactorCredential}

/-- The code a credential passes as when it is checked against this factor. -/
def LoginService.codeOf (service : LoginService) (codec : RowCodec) (lib : OtpPrimitives)
    (peppers : RecoveryPeppers) (credential : FactorCredential) : FactorConfig → Option SpentCode
  | .other kind row => ((service.verifier.openRow kind row).bind codec.decode).bind
      (·.matched lib peppers credential service.now)
  | .password _ => none

theorem Verifier.verifyCredential_other (verifier : Verifier) (credential : FactorCredential)
    (stored kind : FactorKind) (row : String) (now : Instant) :
    verifier.verifyCredential credential (.other stored row) kind now =
      if stored = kind ∧ kind.hasRow ∧ credential.fits kind then
        (verifier.row credential kind row now).map (Verifier.rowOutcome kind)
      else some .fail := by
  cases credential <;> rfl

theorem verdict_row (h : service.verifier.Checks codec lib peppers) {c : OtpConfig} {own : Bool}
    {outcome : VerifyOutcome}
    (hverdict : service.verdict credential ⟨c.kind, own, codec.row c⟩ = some outcome) :
    ∃ c₁, c₁.unsealed = c.unsealed ∧
      service.verifier.openRow c.kind (codec.encode c) = some (codec.encode c₁) ∧
      (outcome = .fail ∨ outcome = Verifier.rowOutcome c.kind
        (codec.outcome (c₁.check lib peppers credential service.now))) := by
  simp only [LoginService.verdict, Verifier.openConfig, RowCodec.row, Option.bind_eq_some_iff,
    Option.map_eq_some_iff] at hverdict
  obtain ⟨_, ⟨row, hopen, rfl⟩, hverify⟩ := hverdict
  obtain ⟨c₁, rfl, hsame⟩ := h.opens c row hopen
  refine ⟨c₁, hsame, hopen, ?_⟩
  have hkind : c₁.kind = c.kind := by
    rw [← c₁.kind_unsealed, hsame, c.kind_unsealed]
  rw [Verifier.verifyCredential_other] at hverify
  split at hverify
  · simp only [Option.map_eq_some_iff] at hverify
    obtain ⟨out, hrow, rfl⟩ := hverify
    rw [← hkind] at hrow ⊢
    exact .inr (congrArg _ (h.row credential c₁ service.now out hrow))
  · exact .inl (Option.some.inj hverify).symm

theorem recountFailure_row (h : service.verifier.Checks codec lib peppers) {c : OtpConfig}
    (hcounts : c.kind = .hotp ∨ c.kind = .emailOtp) (now : Instant) :
    ∃ c', service.verifier.recountFailure now (codec.row c) = some (codec.row c') ∧
      c.Keeps c' := by
  obtain ⟨later, hrecount⟩ := h.recounts c now
  have hkeeps := c.keeps_recount later
  refine ⟨c.recount later, ?_, hkeeps⟩
  have hrow : codec.row (c.recount later) =
      .other c.kind (service.verifier.recountRow c.kind (codec.encode c) now) := by
    rw [hrecount, RowCodec.row, hkeeps.kind]
  rw [hrow]
  unfold RowCodec.row
  rcases hcounts with hkind | hkind <;> rw [hkind] <;> rfl

theorem closeConfig_row (h : service.verifier.Checks codec lib peppers) {c : OtpConfig}
    {config : FactorConfig} (hclose : service.verifier.closeConfig (codec.row c) = some config) :
    ∃ c', config = codec.row c' ∧ c'.unsealed = c.unsealed := by
  simp only [Verifier.closeConfig, RowCodec.row, Option.map_eq_some_iff] at hclose
  obtain ⟨row, hseal, rfl⟩ := hclose
  obtain ⟨c', rfl, hsame⟩ := h.seals c row hseal
  have hkind : c'.kind = c.kind := by
    rw [← c'.kind_unsealed, hsame, c.kind_unsealed]
  exact ⟨c', by rw [RowCodec.row, hkind], hsame⟩

end Verdict

/-! ## Racing verifications -/

def IdentityCall.failed : (c : IdentityCall) → Option c.Answer
  | .accountStatus _ => some (.error ⟨⟩)
  | .suspendUser .. => some (.error ⟨⟩)
  | .getUserTenant _ => some (.error ⟨⟩)
  | .getTenant _ => some (.error ⟨⟩)
  | .findTenant _ => some (.error ⟨⟩)
  | .ipAdmits _ => some (.error ⟨⟩)
  | .findUser .. => some (.error ⟨⟩)
  | .failedAttempts _ => some (.error ⟨⟩)
  | .onKnownDevice _ => none
  | .retryAfter _ => none
  | .reserveAttempt _ => some (.error ⟨⟩)
  | .recordFailedAttempt _ => some (.error ⟨⟩)
  | .note _ => some (.error ⟨⟩)
  | .resolveFactor .. => some (.error ⟨⟩)
  | .loadFactor .. => some (.error ⟨⟩)
  | .insertFactorIfAbsent .. => some (.error ⟨⟩)
  | .compareAndSaveFactor .. => some (.error ⟨⟩)
  | .saveFactor .. => some (.error ⟨⟩)
  | .availableMethods _ => some (.error ⟨⟩)
  | .recordEvent _ => some (.error ⟨⟩)

structure CodeState (ι : Type) where
  identity : Identity
  log : List (Write ι (Option FactorConfig))

namespace CodeStore

variable (scope : UserScope) (kind : FactorKind)

def effective (s : Identity) : Option FactorConfig := (s.resolve scope kind).map (·.config)

def written : (c : IdentityCall) → c.Answer → Option FactorConfig
  | .insertFactorIfAbsent owner config, a =>
    if a = .ok true ∧ owner = scope ∧ config.kind = kind then some config else none
  | .compareAndSaveFactor owner _ next, a =>
    if a = .ok true ∧ owner = scope ∧ next.kind = kind then some next else none
  | .saveFactor owner config, a =>
    if a = .ok () ∧ owner = scope ∧ config.kind = kind then some config else none
  | _, _ => none

def Took (i : ι) (c : IdentityCall) (s : CodeState ι) (a : c.Answer) (s' : CodeState ι) : Prop :=
  Identity.Allows c s.identity a s'.identity ∧
    s'.log = s.log ++ ((written scope kind c a).map fun next =>
      ⟨i, effective scope kind s.identity, some next⟩).toList

/-- A store with atomic swaps: a call takes effect, or it fails; one that fails may have taken
effect all the same. -/
def sem (i : ι) : Sem (Call V) Call.Answer (CodeState ι)
  | .identity c, s, a, s' => Took scope kind i c s a s' ∨
    c.failed = some a ∧ (s' = s ∨ ∃ b, Took scope kind i c s b s')
  | .store _, s, _, s' => s' = s
  | .registry _, s, _, s' => s' = s
  | .deliver .., s, _, s' => s' = s

end CodeStore

structure CodeAttempt (V : Type) where
  service : LoginService
  credential : FactorCredential
  reserved : Option Nat
  session : SessionInner V

def CodeAttempt.run (attempt : CodeAttempt V) (scope : UserScope) (kind : FactorKind) :
    Async V (Option FactorConfig) := do
  match ← Idn.resolveFactor scope kind with
  | .ok (some resolved) =>
    let (checked, _) ← attempt.service.checkGuess attempt.credential scope
      ⟨kind, resolved.own, resolved.config⟩ attempt.reserved attempt.session
    match checked with
    | .ok none => pure (some resolved.config)
    | _ => pure none
  | _ => pure none

/-- What `verifyFactor` does with its step, less the checks of the account before it and the
completion after it. -/
theorem CodeAttempt.run_eq [JsonValue V LoginService.ChosenFactor] {attempt : CodeAttempt V}
    {scope : UserScope} {kind : FactorKind} {remaining : List FactorStep} {step : FactorStep}
    (hstep : remaining.head? = some step)
    (hkind : LoginService.attemptKind attempt.session attempt.credential scope.userId remaining
      step = some kind) :
    attempt.run scope kind = (do
      match ← LoginService.resolveStep attempt.credential scope remaining attempt.session with
      | (.ok (.ok step), s) =>
        match ← attempt.service.checkGuess attempt.credential scope step attempt.reserved s with
        | (.ok none, _) => pure (some step.config)
        | _ => pure none
      | _ => pure none) := by
  rw [run, LoginService.resolveStep, hstep]
  simp only [hkind, bind_assoc]
  refine bind_congr fun resolved => ?_
  cases resolved with
  | error e => rfl
  | ok resolved =>
    cases resolved with
    | none => rfl
    | some resolved =>
      simp only [pure_bind]
      refine bind_congr fun ⟨checked, _⟩ => ?_
      rcases checked with _ | _ | _ <;> rfl

namespace CodeStore

section Steps

variable (codec : RowCodec) (scope : UserScope) (kind : FactorKind)

def Moves (from_ to_ : Option FactorConfig) : Prop :=
  ∃ c c', c.kind = kind ∧ from_ = some (codec.row c) ∧ to_ = some (codec.row c') ∧ c.Keeps c'

inductive Guarantee (i : ι) (s s' : CodeState ι) : Prop where
  | same : s'.identity.own scope kind = s.identity.own scope kind →
      s'.identity.inherited scope kind = s.identity.inherited scope kind → s'.log = s.log →
      Guarantee i s s'
  | wrote (next : FactorConfig) : s'.identity.own scope kind = some next →
      s'.identity.inherited scope kind = s.identity.inherited scope kind →
      s'.log = s.log ++ [⟨i, effective scope kind s.identity, some next⟩] →
      Moves codec kind (effective scope kind s.identity) (some next) → Guarantee i s s'

variable {codec scope kind} {i : ι} {s s' : CodeState ι}

variable {identity : Identity}

theorem effective_of_own {config : FactorConfig} (h : identity.own scope kind = some config) :
    effective scope kind identity = some config := by
  simp [effective, Identity.resolve, h]

theorem effective_of_inherited (h : identity.own scope kind = none) :
    effective scope kind identity = identity.inherited scope kind := by
  simp only [effective, Identity.resolve, h, Option.map_map]
  cases identity.inherited scope kind <;> rfl

theorem effective_congr {identity' : Identity}
    (hown : identity'.own scope kind = identity.own scope kind)
    (hinherited : identity'.inherited scope kind = identity.inherited scope kind) :
    effective scope kind identity' = effective scope kind identity := by
  simp only [effective, Identity.resolve, hown, hinherited]

theorem sem_reads {e : Call V} {a : e.Answer} (he : World.ReadsIdentity e)
    (hX : sem scope kind i e s a s') : s' = s := by
  cases e with
  | store c => cases he
  | registry c => cases he
  | deliver key value => cases he
  | identity c =>
    have htook (b : c.Answer) (h : Took scope kind i c s b s') : s' = s := by
      have hidentity : s'.identity = s.identity := by
        cases c <;> first | exact congrArg Prod.snd h.1 | exact h.1 | cases he
      have hlog : s'.log = s.log := by
        rw [h.2]
        cases c <;> first | exact List.append_nil _ | cases he
      cases s
      cases s'
      cases hidentity
      cases hlog
      rfl
    rcases hX with h | ⟨-, rfl | ⟨b, h⟩⟩
    · exact htook a h
    · rfl
    · exact htook b h

theorem own_setOwn (identity : Identity) {config : FactorConfig} (hkind : config.kind = kind) :
    (identity.setOwn scope config).own scope kind = some config := by
  subst hkind
  simp [Identity.setOwn]

variable {next : FactorConfig}

/-- A swap that lands writes over what the factor was; any other leaves it alone. -/
theorem guarantee_of_swap {expected was : Option FactorConfig} {b : Except StoreError Bool}
    (hkind : next.kind = kind) (hover : s.identity.own scope kind = expected →
      effective scope kind s.identity = was ∧ Moves codec kind was (some next))
    (hperform : (b, s'.identity) = if s.identity.own scope next.kind = expected then
      (.ok true, s.identity.setOwn scope next) else (.ok false, s.identity))
    (hwrote : b = .ok true → s'.log = s.log ++ [⟨i, effective scope kind s.identity, some next⟩])
    (hsame : b = .ok false → s'.log = s.log) :
    Guarantee codec scope kind i s s' ∧ (b = .ok true → ⟨i, was, some next⟩ ∈ s'.log) := by
  rw [hkind] at hperform
  split at hperform
  · next hown =>
    obtain ⟨rfl, hidentity⟩ := Prod.mk.inj hperform
    obtain ⟨heff, hmoves⟩ := hover hown
    have hlog := hwrote rfl
    refine ⟨.wrote next ?_ ?_ hlog (heff ▸ hmoves), fun _ => ?_⟩
    · rw [hidentity]
      exact own_setOwn s.identity hkind
    · rw [hidentity]
      rfl
    · rw [hlog, heff]
      simp
  · obtain ⟨rfl, hidentity⟩ := Prod.mk.inj hperform
    exact ⟨.same (by rw [hidentity]) (by rw [hidentity]) (hsame rfl), nofun⟩

theorem sem_compareAndSave {expected : FactorConfig} {a : Except StoreError Bool}
    (hX : sem (V := V) scope kind i (.identity (.compareAndSaveFactor scope expected next)) s a s')
    (hkind : next.kind = kind) (hmoves : Moves codec kind (some expected) (some next)) :
    Guarantee codec scope kind i s s' ∧
      (a = .ok true → ⟨i, some expected, some next⟩ ∈ s'.log) := by
  have htook (b : Except StoreError Bool)
      (h : Took scope kind i (.compareAndSaveFactor scope expected next) s b s') :
      Guarantee codec scope kind i s s' ∧
        (b = .ok true → ⟨i, some expected, some next⟩ ∈ s'.log) := by
    obtain ⟨hallows, hlog⟩ := h
    refine guarantee_of_swap hkind (fun hown => ⟨effective_of_own hown, hmoves⟩) hallows ?_ ?_
    · rintro rfl
      rw [hlog]
      simp [written, hkind]
    · rintro rfl
      rw [hlog]
      simp [written]
  rcases hX with h | ⟨hfail, rfl | ⟨b, h⟩⟩
  · exact htook a h
  · cases hfail
    exact ⟨.same rfl rfl rfl, nofun⟩
  · cases hfail
    exact ⟨(htook b h).1, nofun⟩

theorem sem_insertIfAbsent {a : Except StoreError Bool}
    (hX : sem (V := V) scope kind i (.identity (.insertFactorIfAbsent scope next)) s a s')
    (hkind : next.kind = kind) (hmoves : s.identity.own scope kind = none →
      Moves codec kind (s.identity.inherited scope kind) (some next)) :
    Guarantee codec scope kind i s s' ∧
      (a = .ok true → ⟨i, s.identity.inherited scope kind, some next⟩ ∈ s'.log) := by
  have htook (b : Except StoreError Bool)
      (h : Took scope kind i (.insertFactorIfAbsent scope next) s b s') :
      Guarantee codec scope kind i s s' ∧
        (b = .ok true → ⟨i, s.identity.inherited scope kind, some next⟩ ∈ s'.log) := by
    obtain ⟨hallows, hlog⟩ := h
    refine guarantee_of_swap hkind (fun hown => ⟨effective_of_inherited hown, hmoves hown⟩) hallows
      ?_ ?_
    · rintro rfl
      rw [hlog]
      simp [written, hkind]
    · rintro rfl
      rw [hlog]
      simp [written]
  rcases hX with h | ⟨hfail, rfl | ⟨b, h⟩⟩
  · exact htook a h
  · cases hfail
    exact ⟨.same rfl rfl rfl, nofun⟩
  · cases hfail
    exact ⟨(htook b h).1, nofun⟩

end Steps

section Invariant

variable {codec : RowCodec} {scope : UserScope} {kind : FactorKind}

def Typed (codec : RowCodec) (kind : FactorKind) (config : Option FactorConfig) : Prop :=
  ∀ f, config = some f → ∃ c, c.kind = kind ∧ f = codec.row c

variable (codec scope kind) in
/-- The log leads from the factor as it was to the factor as it is; what is inherited stays. -/
structure Inv (start : Identity) (s : CodeState ι) : Prop where
  linked : Linked (Moves codec kind) (effective scope kind start) s.log
    (effective scope kind s.identity)
  inherited : s.identity.inherited scope kind = start.inherited scope kind

variable {start : Identity} {i : ι} {s s' : CodeState ι}

theorem Inv.step (h : Inv codec scope kind start s) (hG : Guarantee codec scope kind i s s') :
    Inv codec scope kind start s' := by
  cases hG with
  | same hown hinherited hlog =>
    refine ⟨?_, hinherited.trans h.inherited⟩
    rw [effective_congr hown hinherited, hlog]
    exact h.linked
  | wrote next hown hinherited hlog hmoves =>
    refine ⟨?_, hinherited.trans h.inherited⟩
    rw [effective_of_own hown, hlog]
    exact h.linked.snoc i hmoves

theorem Guarantee.own (hG : Guarantee codec scope kind i s s')
    (h : (s.identity.own scope kind).isSome) : (s'.identity.own scope kind).isSome := by
  cases hG with
  | same hown => rwa [hown]
  | wrote next hown => rw [hown]; rfl

theorem Guarantee.log_subset (hG : Guarantee codec scope kind i s s') : s.log ⊆ s'.log := by
  cases hG with
  | same _ _ hlog => exact hlog ▸ List.Subset.refl _
  | wrote next _ _ hlog => exact hlog ▸ List.subset_append_left _ _

theorem Inv.typed (h : Inv codec scope kind start s)
    (hstart : Typed codec kind (effective scope kind start)) :
    Typed codec kind (effective scope kind s.identity) := by
  have hlinked := h.linked
  generalize effective scope kind s.identity = last at hlinked ⊢
  generalize s.log = log at hlinked
  cases hlinked with
  | nil => exact hstart
  | snoc who _ hmoves =>
    obtain ⟨c, c', hkind, -, rfl, hkeeps⟩ := hmoves
    rintro f hf
    cases hf
    exact ⟨c', hkeeps.kind.trans hkind, rfl⟩

end Invariant

/-! ## One verification among others -/

section Safety

variable {codec : RowCodec} {lib : OtpPrimitives} {peppers : RecoveryPeppers}
  {scope : UserScope} {kind : FactorKind} {start : Identity} {i : ι} {s : CodeState ι}
  {service : LoginService}

variable (codec scope kind) in
abbrev Rely (i : ι) : CodeState ι → CodeState ι → Prop :=
  Pool.others (Guarantee codec scope kind) i

variable (codec scope kind) in
abbrev Races {α : Type} (i : ι) (p : Async V α) (Q : α → CodeState ι → Prop) (s : CodeState ι) :
    Prop :=
  p.Safe (sem scope kind i) (Rely codec scope kind i) (Guarantee codec scope kind i) Q s

theorem inv_stable : Stable (Rely codec scope kind i) (Inv codec scope kind start) :=
  fun _ _ h ⟨_, _, hG⟩ => h.step hG

theorem own_stable : Stable (Rely codec scope kind i)
    fun s : CodeState ι => (s.identity.own scope kind).isSome = true :=
  fun _ _ h ⟨_, _, hG⟩ => hG.own h

theorem logged_stable (e : Write ι (Option FactorConfig)) :
    Stable (Rely codec scope kind i) fun s : CodeState ι => e ∈ s.log :=
  fun _ _ h ⟨_, _, hG⟩ => hG.log_subset h

variable (codec scope kind) in
def ReadAs (start : Identity) (own : Bool) (c : OtpConfig) (s : CodeState ι) : Prop :=
  Inv codec scope kind start s ∧
    if own then (s.identity.own scope kind).isSome = true
    else start.inherited scope kind = some (codec.row c)

theorem readAs_stable (own : Bool) (c : OtpConfig) :
    Stable (Rely codec scope kind i) (ReadAs codec scope kind start own c) := by
  cases own with
  | true => exact inv_stable.and own_stable
  | false => exact inv_stable.and fun _ _ h _ => h

variable {own : Bool} {c : OtpConfig} {s' : CodeState ι}

theorem ReadAs.step (h : ReadAs codec scope kind start own c s)
    (hG : Guarantee codec scope kind i s s') : ReadAs codec scope kind start own c s' := by
  cases own with
  | true => exact ⟨h.1.step hG, hG.own h.2⟩
  | false => exact ⟨h.1.step hG, h.2⟩

theorem reads_safe {α : Type} {T : α → Prop} {p : Async V α} {P : CodeState ι → Prop}
    (hp : p.Within World.ReadsIdentity T) (hP : Stable (Rely codec scope kind i) P) (hs : P s) :
    Races codec scope kind i p (fun a s => T a ∧ P s) s := by
  refine hp.safe hP (fun e s a s' he hX hs => ?_) hs
  obtain rfl := sem_reads he hX
  exact ⟨.same rfl rfl rfl, hs⟩

theorem races_ret {α : Type} (a : α) (hs : Inv codec scope kind start s) :
    Races codec scope kind i (pure a : Async V α) (fun _ => Inv codec scope kind start) s :=
  Prog.Safe.ret _ inv_stable hs fun _ h => h

theorem ReadAs.insert {c' : OtpConfig} (h : ReadAs codec scope kind start own c s)
    (hkind : c.kind = kind) (hkeeps : c.Keeps c') (hown : s.identity.own scope kind = none) :
    Moves codec kind (s.identity.inherited scope kind) (some (codec.row c')) := by
  cases own with
  | true =>
    have hsome := h.2
    rw [if_pos rfl, hown] at hsome
    cases hsome
  | false => exact ⟨c, c', hkind, h.1.inherited.trans h.2, rfl, hkeeps⟩

theorem persistPassWithUpdate_safe {c' : OtpConfig} (h : ReadAs codec scope kind start own c s)
    (hkind : c.kind = kind) (hkeeps : c.Keeps c') :
    Races codec scope kind i
      (LoginService.persistPassWithUpdate scope ⟨kind, own, codec.row c⟩ (codec.row c') :
        Async V _)
      (fun r s => Inv codec scope kind start s ∧
        (r = .ok true → ⟨i, some (codec.row c), some (codec.row c')⟩ ∈ s.log)) s := by
  have hkind' : (codec.row c').kind = kind := hkeeps.kind.trans hkind
  let spent : Write ι (Option FactorConfig) := ⟨i, some (codec.row c), some (codec.row c')⟩
  -- whichever way the row is written, what remains is to pass the answer on
  have hanswer (r : Except StoreError Bool) {s : CodeState ι} (hinv : Inv codec scope kind start s)
      (hlog : r = .ok true → spent ∈ s.log) :
      Races codec scope kind i
        (pure (r.mapError fun _ => .store) : Async V (Except AuthnError Bool))
        (fun r s => Inv codec scope kind start s ∧ (r = .ok true → spent ∈ s.log)) s := by
    rcases r with e | _ | _
    · exact Prog.Safe.ret _ inv_stable hinv fun _ h => ⟨h, nofun⟩
    · exact Prog.Safe.ret _ inv_stable hinv fun _ h => ⟨h, nofun⟩
    · exact Prog.Safe.ret _ (inv_stable.and (logged_stable _)) ⟨hinv, hlog rfl⟩
        fun _ h => ⟨h.1, fun _ => h.2⟩
  cases own with
  | true =>
    refine Prog.Safe.perform_bind _ (readAs_stable true c) h fun s a s' hs hX => ?_
    obtain ⟨hG, hlog⟩ := sem_compareAndSave hX hkind' ⟨c, c', hkind, rfl, rfl, hkeeps⟩
    have hrest := hanswer a (hs.step hG).1 hlog
    cases a <;> exact ⟨hG, hrest⟩
  | false =>
    refine Prog.Safe.perform_bind _ (readAs_stable false c) h fun s a s' hs hX => ?_
    obtain ⟨hG, hlog⟩ := sem_insertIfAbsent hX hkind' (hs.insert hkind hkeeps)
    have hread : s.identity.inherited scope kind = some (codec.row c) :=
      hs.1.inherited.trans hs.2
    rw [hread] at hlog
    have hrest := hanswer a (hs.step hG).1 hlog
    cases a <;> exact ⟨hG, hrest⟩

theorem sem_loadFactor {a : Except StoreError (Option FactorConfig)}
    (hX : sem (V := V) scope kind i (.identity (.loadFactor scope kind)) s a s') :
    s' = s ∧ (a = .error ⟨⟩ ∨ a = .ok (s.identity.own scope kind)) := by
  refine ⟨sem_reads (e := .identity (.loadFactor scope kind)) trivial hX, ?_⟩
  rcases hX with ⟨hallows, -⟩ | ⟨hfail, -⟩
  · exact .inr (Prod.mk.inj hallows).1
  · exact .inl (Option.some.inj hfail).symm

theorem Inv.own_row (h : Inv codec scope kind start s)
    (hstart : Typed codec kind (effective scope kind start)) {config : FactorConfig}
    (hown : s.identity.own scope kind = some config) :
    ∃ c, c.kind = kind ∧ config = codec.row c :=
  h.typed hstart config (effective_of_own hown)

section Fail

variable {own : Bool} {c c' : OtpConfig}

theorem failUpdateLoop_safe (hchecks : service.verifier.Checks codec lib peppers)
    (hstart : Typed codec kind (effective scope kind start)) (hkind : c.kind = kind)
    (hcounts : kind = .hotp ∨ kind = .emailOtp) (hkeeps : c.Keeps c') (attempts : Nat) :
    ∀ (reloadFirst : Bool) (prior next : FactorConfig) (s : CodeState ι),
      ReadAs codec scope kind start own c s →
      (reloadFirst = false → Moves codec kind (some prior) (some next)) →
      Races codec scope kind i
        (service.failUpdateLoop scope kind (codec.row c') attempts reloadFirst prior next :
          Async V _) (fun _ => Inv codec scope kind start) s := by
  induction attempts with
  | zero => exact fun _ _ _ s hs _ => races_ret _ hs.1
  | succ attempts ih =>
    intro reloadFirst prior next s hs hmoves
    have hreload {s : CodeState ι} (hs : ReadAs codec scope kind start own c s) :
        Races codec scope kind i (service.failUpdateLoop scope kind (codec.row c') (attempts + 1)
          true prior next : Async V _) (fun _ => Inv codec scope kind start) s := by
      refine Prog.Safe.perform_bind _ (readAs_stable own c) hs fun s loaded s' hs hX => ?_
      obtain ⟨rfl, rfl | rfl⟩ := sem_loadFactor hX
      · exact ⟨.same rfl rfl rfl, races_ret _ hs.1⟩
      · refine ⟨.same rfl rfl rfl, ?_⟩
        cases hown : s'.identity.own scope kind with
        | none =>
          refine Prog.Safe.perform_bind _ (readAs_stable own c) hs fun s inserted s' hs hX => ?_
          obtain ⟨hG, -⟩ := sem_insertIfAbsent hX (hkeeps.kind.trans hkind) (hs.insert hkind hkeeps)
          refine ⟨hG, ?_⟩
          rcases inserted with e | _ | _
          · exact races_ret _ (hs.step hG).1
          · exact ih true prior next s' (hs.step hG) nofun
          · exact races_ret _ (hs.step hG).1
        | some reloaded =>
          obtain ⟨r, hr, rfl⟩ := hs.1.own_row hstart hown
          obtain ⟨r', hrecount, hr'⟩ := recountFailure_row hchecks (hr ▸ hcounts) service.now
          dsimp only
          rw [hrecount]
          exact ih false _ _ s' hs fun _ => ⟨r, r', hr, rfl, rfl, hr'⟩
    cases reloadFirst with
    | true => exact hreload hs
    | false =>
      have hmoves := hmoves rfl
      obtain ⟨p, n, hp, -, hn, hpn⟩ := id hmoves
      cases hn
      refine Prog.Safe.perform_bind _ (readAs_stable own c) hs fun s swapped s' hs hX => ?_
      obtain ⟨hG, -⟩ := sem_compareAndSave hX (hpn.kind.trans hp) hmoves
      refine ⟨hG, ?_⟩
      rcases swapped with e | _ | _
      · exact races_ret _ (hs.step hG).1
      · exact hreload (hs.step hG)
      · exact races_ret _ (hs.step hG).1

theorem persistFailWithUpdate_safe (hchecks : service.verifier.Checks codec lib peppers)
    (hstart : Typed codec kind (effective scope kind start)) (hkind : c.kind = kind)
    (hcounts : kind = .hotp ∨ kind = .emailOtp) (hkeeps : c.Keeps c')
    (hs : ReadAs codec scope kind start own c s) :
    Races codec scope kind i (service.persistFailWithUpdate scope kind (codec.row c') : Async V _)
      (fun _ => Inv codec scope kind start) s := by
  have hloop (reloadFirst : Bool) (prior next : FactorConfig) {s : CodeState ι}
      (hs : ReadAs codec scope kind start own c s)
      (hmoves : reloadFirst = false → Moves codec kind (some prior) (some next)) :
      Races codec scope kind i (service.failUpdateLoop scope kind (codec.row c')
        LoginService.maxFailUpdateRetries reloadFirst prior next : Async V _)
        (fun _ => Inv codec scope kind start) s :=
    failUpdateLoop_safe hchecks hstart hkind hcounts hkeeps _ reloadFirst prior next s hs hmoves
  have hrecounted {s : CodeState ι} (hs : ReadAs codec scope kind start own c s)
      {existing : FactorConfig} (hown : s.identity.own scope kind = some existing) :
      Races codec scope kind i
        (service.failUpdateLoop scope kind (codec.row c') LoginService.maxFailUpdateRetries false
          existing ((service.verifier.recountFailure service.now existing).getD (codec.row c')) :
          Async V _) (fun _ => Inv codec scope kind start) s := by
    obtain ⟨r, hr, rfl⟩ := hs.1.own_row hstart hown
    obtain ⟨r', hrecount, hr'⟩ := recountFailure_row hchecks (hr ▸ hcounts) service.now
    rw [hrecount]
    exact hloop false _ _ hs fun _ => ⟨r, r', hr, rfl, rfl, hr'⟩
  refine Prog.Safe.perform_bind _ (readAs_stable own c) hs fun s loaded s' hs hX => ?_
  obtain ⟨rfl, rfl | rfl⟩ := sem_loadFactor hX
  · exact ⟨.same rfl rfl rfl, races_ret _ hs.1⟩
  · refine ⟨.same rfl rfl rfl, ?_⟩
    cases hown : s'.identity.own scope kind with
    | some existing => exact hrecounted hs hown
    | none =>
      refine Prog.Safe.perform_bind _ (readAs_stable own c) hs fun s inserted s' hs hX => ?_
      obtain ⟨hG, -⟩ := sem_insertIfAbsent hX (hkeeps.kind.trans hkind) (hs.insert hkind hkeeps)
      have hs := hs.step hG
      refine ⟨hG, ?_⟩
      rcases inserted with e | _ | _
      · exact races_ret _ hs.1
      · refine Prog.Safe.perform_bind _ (readAs_stable own c) hs fun s loaded s' hs hX => ?_
        obtain ⟨rfl, rfl | rfl⟩ := sem_loadFactor hX
        · exact ⟨.same rfl rfl rfl, races_ret _ hs.1⟩
        · refine ⟨.same rfl rfl rfl, ?_⟩
          cases hown : s'.identity.own scope kind with
          | some existing => exact hrecounted hs hown
          | none => exact hloop true _ _ hs nofun
      · exact races_ret _ hs.1

end Fail

/-! ## An accepted code -/

variable {credential : FactorCredential} {own : Bool} {c : OtpConfig}

variable (codec lib peppers) in
def Accepted (service : LoginService) (credential : FactorCredential) (i : ι)
    (config : FactorConfig) (s : CodeState ι) : Prop :=
  ∃ c c' x, config = codec.row c ∧ c.Spends c' x ∧
    service.codeOf codec lib peppers credential config = some x ∧
    ⟨i, some config, some (codec.row c')⟩ ∈ s.log

theorem accepted_stable (config : FactorConfig) : Stable (Rely codec scope kind i)
    (Accepted codec lib peppers service credential i config) := by
  rintro s s' ⟨c, c', x, hconfig, hspends, hcode, hlog⟩ ⟨_, _, hG⟩
  exact ⟨c, c', x, hconfig, hspends, hcode, hG.log_subset hlog⟩

theorem settlePass_safe (hchecks : service.verifier.Checks codec lib peppers)
    (hkind : c.kind = kind) {outcome : VerifyOutcome}
    (hverdict : service.verdict credential ⟨kind, own, codec.row c⟩ = some outcome)
    (hpasses : outcome.passes = true) (hs : ReadAs codec scope kind start own c s) :
    Races codec scope kind i
      (service.settlePass scope ⟨kind, own, codec.row c⟩ outcome : Async V _)
      (fun r s => Inv codec scope kind start s ∧
        (r = .ok true → Accepted codec lib peppers service credential i (codec.row c) s)) s := by
  subst hkind
  obtain ⟨c₁, hsame, hopen, rfl | rfl⟩ := verdict_row hchecks hverdict
  · cases hpasses
  · cases hcheck : c₁.check lib peppers credential service.now with
    | fail => rw [hcheck] at hpasses; cases hpasses
    | failWithUpdate c₂ => rw [hcheck] at hpasses; cases hpasses
    | passWithUpdate c₂ =>
      obtain ⟨x, hmatched, hspends⟩ := c₁.check_spends lib hcheck
      have hkind₂ : c₂.kind = c.kind := by
        rw [hspends.keeps.kind, ← c₁.kind_unsealed, hsame, c.kind_unsealed]
      have hrow : (.other c.kind (codec.encode c₂) : FactorConfig) = codec.row c₂ := by
        rw [RowCodec.row, hkind₂]
      show Races codec scope c.kind i (service.settlePass scope _ (.passWithUpdate (.other c.kind _))) _ s
      rw [hrow]
      unfold LoginService.settlePass
      dsimp only
      cases hclose : service.verifier.closeConfig (codec.row c₂) with
      | none => exact Prog.Safe.ret _ inv_stable hs.1 fun _ h => ⟨h, nofun⟩
      | some config =>
        obtain ⟨c', rfl, hseal⟩ := closeConfig_row hchecks hclose
        have hspent : c.Spends c' x := .of_unsealed hsame hspends hseal
        have hcode : service.codeOf codec lib peppers credential (codec.row c) = some x := by
          simp only [LoginService.codeOf, RowCodec.row, hopen, Option.bind_some,
            codec.decode_encode, hmatched]
        exact (persistPassWithUpdate_safe hs rfl hspent.keeps).conseq fun r s h =>
          ⟨h.1, fun hr => ⟨c, c', x, rfl, hspent, hcode, h.2 hr⟩⟩

theorem settleFail_safe (hchecks : service.verifier.Checks codec lib peppers)
    (hstart : Typed codec kind (effective scope kind start)) (hkind : c.kind = kind)
    {outcome : VerifyOutcome}
    (hverdict : service.verdict credential ⟨kind, own, codec.row c⟩ = some outcome)
    (hs : ReadAs codec scope kind start own c s) :
    Races codec scope kind i
      (service.settleFail scope ⟨kind, own, codec.row c⟩ outcome : Async V _)
      (fun _ => Inv codec scope kind start) s := by
  subst hkind
  obtain ⟨c₁, hsame, hopen, rfl | rfl⟩ := verdict_row hchecks hverdict
  · exact races_ret _ hs.1
  · cases hcheck : c₁.check lib peppers credential service.now with
    | fail => exact races_ret _ hs.1
    | passWithUpdate c₂ => exact races_ret _ hs.1
    | failWithUpdate c₂ =>
      have hkind₁ : c₁.kind = c.kind := by
        rw [← c₁.kind_unsealed, hsame, c.kind_unsealed]
      have hkeeps := c₁.check_keeps lib hcheck
      have hcounts := c₁.check_counts lib hcheck
      have hrow : (.other c.kind (codec.encode c₂) : FactorConfig) = codec.row c₂ := by
        rw [RowCodec.row, hkeeps.kind, hkind₁]
      show Races codec scope c.kind i (service.settleFail scope _ (.failWithUpdate (.other c.kind _))) _ s
      rw [hrow]
      unfold LoginService.settleFail
      dsimp only
      cases hclose : service.verifier.closeConfig (codec.row c₂) with
      | none => exact races_ret _ hs.1
      | some config =>
        obtain ⟨c', rfl, hseal⟩ := closeConfig_row hchecks hclose
        exact persistFailWithUpdate_safe hchecks hstart rfl (hkind₁ ▸ hcounts)
          (((OtpConfig.keeps_of_unsealed hsame).trans hkeeps).trans
            (OtpConfig.keeps_of_unsealed hseal)) hs

theorem checkGuess_safe (hchecks : service.verifier.Checks codec lib peppers)
    (hstart : Typed codec kind (effective scope kind start)) (hkind : c.kind = kind)
    (reserved : Option Nat) (session : SessionInner V)
    (hs : ReadAs codec scope kind start own c s) :
    Races codec scope kind i
      (service.checkGuess credential scope ⟨kind, own, codec.row c⟩ reserved session)
      (fun r s => Inv codec scope kind start s ∧
        (r.1 = .ok none → Accepted codec lib peppers service credential i (codec.row c) s)) s := by
  have hfailed {s : CodeState ι} (hs : Inv codec scope kind start s) : Races codec scope kind i
      (service.recordFactorFailureAfter reserved scope session >>= fun r =>
        pure (r.1.map some, r.2))
      (fun r s => Inv codec scope kind start s ∧
        (r.1 = .ok none → Accepted codec lib peppers service credential i (codec.row c) s)) s := by
    refine Prog.Safe.map ?_
    have hreads := (service.recordFactorFailureAfter_reads scope session reserved).mono
      (fun _ he => he.1) fun _ h => h
    refine (reads_safe hreads inv_stable hs).conseq fun r s h => ⟨h.2, fun hr => ?_⟩
    rcases hr' : r.1 with e | outcome <;> rw [hr'] at hr <;> cases hr
  unfold LoginService.checkGuess
  split
  · exact Prog.Safe.ret _ inv_stable hs.1 fun _ h => ⟨h, nofun⟩
  · next outcome hverdict =>
    split
    · next hpasses =>
      refine Prog.Safe.bind (settlePass_safe hchecks hkind hverdict hpasses hs) fun r s h => ?_
      rcases r with e | _ | _
      · exact Prog.Safe.ret _ inv_stable h.1 fun _ h => ⟨h, nofun⟩
      · exact hfailed h.1
      · -- the guess is released and the throttle cleared; no hash is renewed
        have hstable : Stable (Rely codec scope kind i) fun s =>
            Inv codec scope kind start s ∧
              Accepted codec lib peppers service credential i (codec.row c) s :=
          inv_stable.and (accepted_stable _)
        have hrest : (LoginService.releaseGuess reserved scope.userId >>= fun _ =>
            Idn.note (.clearThrottle scope.userId) >>= fun _ =>
            service.rehashOutdatedPassword credential scope ⟨kind, own, codec.row c⟩ >>= fun _ =>
            pure (.ok none, session) : Async V (Except AuthnError (Option FactorOutcome) ×
              SessionInner V)).Within World.ReadsIdentity fun _ => True := by
          refine Prog.Within.bind (P := World.ReadsIdentity) (Q := fun _ => True) ?_ fun _ _ => ?_
          · cases reserved with
            | none => trivial
            | some count => exact ⟨trivial, fun _ => trivial⟩
          · refine Prog.Within.perform_bind trivial fun _ => ?_
            cases credential <;> trivial
        exact (reads_safe hrest hstable ⟨h.1, h.2 rfl⟩).conseq fun _ _ h => ⟨h.2.1, fun _ => h.2.2⟩
    · refine Prog.Safe.bind (settleFail_safe hchecks hstart hkind hverdict hs) fun r s h => ?_
      cases r with
      | error e => exact Prog.Safe.ret _ inv_stable h fun _ h => ⟨h, nofun⟩
      | ok _ => exact hfailed h

theorem sem_resolveFactor {a : Except StoreError (Option ResolvedFactor)}
    (hX : sem (V := V) scope kind i (.identity (.resolveFactor scope kind)) s a s') :
    s' = s ∧ (a = .error ⟨⟩ ∨ a = .ok (s.identity.resolve scope kind)) := by
  refine ⟨sem_reads (e := .identity (.resolveFactor scope kind)) trivial hX, ?_⟩
  rcases hX with ⟨hallows, -⟩ | ⟨hfail, -⟩
  · exact .inr (Prod.mk.inj hallows).1
  · exact .inl (Option.some.inj hfail).symm

theorem Inv.readAs (h : Inv codec scope kind start s)
    (hstart : Typed codec kind (effective scope kind start)) {resolved : ResolvedFactor}
    (hresolve : s.identity.resolve scope kind = some resolved) :
    ∃ c, c.kind = kind ∧ resolved.config = codec.row c ∧
      ReadAs codec scope kind start resolved.own c s := by
  have heffective : effective scope kind s.identity = some resolved.config := by
    rw [effective, hresolve, Option.map_some]
  obtain ⟨c, hkind, hconfig⟩ := h.typed hstart _ heffective
  refine ⟨c, hkind, hconfig, h, ?_⟩
  unfold Identity.resolve at hresolve
  cases hown : s.identity.own scope kind with
  | some config =>
    rw [hown] at hresolve
    cases hresolve
    rfl
  | none =>
    have hinherited := effective_of_inherited hown
    rw [hown] at hresolve
    simp only [Option.map_eq_some_iff] at hresolve
    obtain ⟨config, hconfig', rfl⟩ := hresolve
    show start.inherited scope kind = some (codec.row c)
    rw [← h.inherited, hconfig', ← hconfig]

theorem run_safe (attempt : CodeAttempt V)
    (hchecks : attempt.service.verifier.Checks codec lib peppers)
    (hstart : Typed codec kind (effective scope kind start)) (hs : Inv codec scope kind start s) :
    Races codec scope kind i (attempt.run scope kind)
      (fun r s => Inv codec scope kind start s ∧ ∀ config, r = some config →
        Accepted codec lib peppers attempt.service attempt.credential i config s) s := by
  have hrefused {s : CodeState ι} (hs : Inv codec scope kind start s) : Races codec scope kind i
      (pure none : Async V (Option FactorConfig))
      (fun r s => Inv codec scope kind start s ∧ ∀ config, r = some config →
        Accepted codec lib peppers attempt.service attempt.credential i config s) s :=
    Prog.Safe.ret _ inv_stable hs fun _ h => ⟨h, nofun⟩
  refine Prog.Safe.perform_bind _ inv_stable hs fun s a s' hs hX => ?_
  obtain ⟨rfl, rfl | rfl⟩ := sem_resolveFactor hX
  · exact ⟨.same rfl rfl rfl, hrefused hs⟩
  · refine ⟨.same rfl rfl rfl, ?_⟩
    cases hresolve : s'.identity.resolve scope kind with
    | none => exact hrefused hs
    | some resolved =>
      obtain ⟨own, config⟩ := resolved
      obtain ⟨c, hkind, rfl, hread⟩ := hs.readAs hstart hresolve
      refine Prog.Safe.bind (checkGuess_safe hchecks hstart hkind attempt.reserved attempt.session
        hread) fun r s h => ?_
      obtain ⟨checked, t⟩ := r
      rcases checked with e | _ | outcome
      · exact hrefused h.1
      · refine Prog.Safe.ret _ (inv_stable.and (accepted_stable _)) ⟨h.1, h.2 rfl⟩ ?_
        rintro s ⟨hinv, haccepted⟩
        refine ⟨hinv, fun config hconfig => ?_⟩
        cases hconfig
        exact haccepted
      · exact hrefused h.1

end Safety

section Runs

variable {codec : RowCodec} {lib : OtpPrimitives} {peppers : RecoveryPeppers}
  {scope : UserScope} {kind : FactorKind}

/-- The write at this place of the log spends the code, over the factor it passed against. -/
def SpendsAt (codec : RowCodec) (log : List (Write ι (Option FactorConfig))) (k : Nat) (i : ι)
    (config : FactorConfig) (x : SpentCode) : Prop :=
  ∃ c c', config = codec.row c ∧ log[k]? = some ⟨i, some config, some (codec.row c')⟩ ∧
    c.Spends c' x

theorem keeps_of_moves {c c' : OtpConfig}
    (h : ReflTransGen (Moves codec kind) (some (codec.row c)) (some (codec.row c'))) :
    c.Keeps c' := by
  generalize hlast : some (codec.row c') = last at h
  induction h generalizing c' with
  | refl =>
    obtain rfl := codec.row_inj (Option.some.inj hlast)
    exact .refl _
  | tail _ hmoves ih =>
    obtain ⟨d, d', -, hd, hd', hkeeps⟩ := hmoves
    obtain rfl := codec.row_inj (Option.some.inj (hlast.trans hd'))
    exact (ih hd.symm).trans hkeeps

theorem SpendsAt.before {start : Option FactorConfig} {last : Option FactorConfig}
    {log : List (Write ι (Option FactorConfig))} (hlog : Linked (Moves codec kind) start log last)
    (hmax : ∀ e ∈ log, ∀ c, e.next = some (codec.row c) → c.BelowMax)
    {k l : Nat} {i j : ι} {config config' : FactorConfig} {x y : SpentCode}
    (hx : SpendsAt codec log k i config x) (hy : SpendsAt codec log l j config' y) (hkl : k < l) :
    x.Before y := by
  obtain ⟨c, c', rfl, hk, hc⟩ := hx
  obtain ⟨d, d', rfl, hl, hd⟩ := hy
  have hkeeps : c'.Keeps d := keeps_of_moves (hlog.between hkl hk hl)
  have hspent : c'.Refuses x := hc.spent (hmax _ (List.mem_of_getElem? hk) c' rfl)
  exact (hkeeps.refuses x hspent).before hd.unspent

end Runs

end CodeStore

open CodeStore in
/-- However many verifications of one factor race, each that passes spends the code it passed
with, over the very row it was checked against; codes are spent in order, and no two verifications
pass with one code. -/
theorem one_time_code_passes_once [DecidableEq ι] {codec : RowCodec} {lib : OtpPrimitives}
    {peppers : RecoveryPeppers} {scope : UserScope} {kind : FactorKind} {identity : Identity}
    {attempts : ι → CodeAttempt V}
    (hchecks : ∀ i, (attempts i).service.verifier.Checks codec lib peppers)
    (hkind : Typed codec kind (effective scope kind identity))
    {s : Pool ι (Call V) Call.Answer (Option FactorConfig) (CodeState ι)}
    (hrun : Pool.Reaches (sem scope kind)
      ⟨fun i => (attempts i).run scope kind, ⟨identity, []⟩⟩ s)
    (hmax : ∀ e ∈ s.state.log, ∀ c, e.next = some (codec.row c) → c.BelowMax) :
    (∀ i config, s.prog i = .ret (some config) → ∃ x k,
      (attempts i).service.codeOf codec lib peppers (attempts i).credential config = some x ∧
        SpendsAt codec s.state.log k i config x) ∧
    (∀ k l i j config config' x y, SpendsAt codec s.state.log k i config x →
      SpendsAt codec s.state.log l j config' y → k < l → x.Before y) ∧
    (∀ i j config config' x y, s.prog i = .ret (some config) → s.prog j = .ret (some config') →
      (attempts i).service.codeOf codec lib peppers (attempts i).credential config = some x →
      (attempts j).service.codeOf codec lib peppers (attempts j).credential config' = some y →
      i ≠ j → x ≠ y) := by
  have hsafe : Pool.AllSafe (sem scope kind) (Guarantee codec scope kind)
      (fun i r s => Inv codec scope kind identity s ∧ ∀ config, r = some config →
        Accepted codec lib peppers (attempts i).service (attempts i).credential i config s)
      ⟨fun i => (attempts i).run scope kind, ⟨identity, []⟩⟩ :=
    fun i => run_safe (attempts i) (hchecks i) hkind ⟨.nil, rfl⟩
  have hinv : Inv codec scope kind identity s.state :=
    hrun.invariant hsafe (fun _ _ _ hG hI => hI.step hG) ⟨.nil, rfl⟩
  have hspends : ∀ i config, s.prog i = .ret (some config) → ∃ x k,
      (attempts i).service.codeOf codec lib peppers (attempts i).credential config = some x ∧
        SpendsAt codec s.state.log k i config x := by
    intro i config hret
    obtain ⟨c, c', x, hconfig, hspends, hcode, hlog⟩ := (hrun.post hsafe hret).2 config rfl
    obtain ⟨k, hk⟩ := List.mem_iff_getElem?.mp hlog
    exact ⟨x, k, hcode, c, c', hconfig, hk, hspends⟩
  have hbefore {k l i j config config' x y} (hx : SpendsAt codec s.state.log k i config x)
      (hy : SpendsAt codec s.state.log l j config' y) (hkl : k < l) : x.Before y :=
    SpendsAt.before hinv.linked hmax hx hy hkl
  refine ⟨hspends, fun _ _ _ _ _ _ _ _ hx hy hkl => hbefore hx hy hkl, ?_⟩
  intro i j config config' x y hi hj hx hy hij
  obtain ⟨x', k, hx', hk⟩ := hspends i config hi
  obtain ⟨y', l, hy', hl⟩ := hspends j config' hj
  obtain rfl : x' = x := Option.some.inj (hx'.symm.trans hx)
  obtain rfl : y' = y := Option.some.inj (hy'.symm.trans hy)
  rcases Nat.lt_trichotomy k l with hlt | rfl | hlt
  · exact (hbefore hk hl hlt).ne
  · -- one write is by one verification
    obtain ⟨_, _, _, hwrite, _⟩ := hk
    obtain ⟨_, _, _, hwrite', _⟩ := hl
    rw [hwrite] at hwrite'
    exact absurd (congrArg Write.who (Option.some.inj hwrite')) hij
  · exact (hbefore hl hk hlt).ne.symm

def RowCodec.verifier (codec : RowCodec) (lib : OtpPrimitives) (peppers : RecoveryPeppers) :
    Verifier where
  openRow := fun _ row => some row
  sealRow := fun _ row => some row
  password := fun secret hash => some (lib.verifyPassword secret hash)
  row := fun credential _ row now =>
    (codec.decode row).map fun c => codec.outcome (c.check lib peppers credential now)
  recountRow := fun _ row now =>
    ((codec.decode row).map fun c => codec.encode (c.recount now)).getD row
  rehash := fun _ _ => none

theorem RowCodec.verifier_checks (codec : RowCodec) (lib : OtpPrimitives)
    (peppers : RecoveryPeppers) : (codec.verifier lib peppers).Checks codec lib peppers where
  opens := fun c row h => ⟨c, (Option.some.inj h).symm, rfl⟩
  seals := fun c row h => ⟨c, (Option.some.inj h).symm, rfl⟩
  row := fun credential c now outcome h => by
    simp only [verifier, codec.decode_encode, Option.map_some] at h
    exact (Option.some.inj h).symm
  recounts := fun c now => ⟨now, by simp [verifier, codec.decode_encode]⟩

instance encodableText : Encodable String :=
  .ofLeftInverse (fun text => text.toList.map Char.toNat)
    (fun codes => String.ofList (codes.map Char.ofNat)) fun text => by
      simp [Function.comp_def]

deriving instance Encodable for FactorSecret, OtpAlgorithm, TotpConfig, HotpConfig,
  EmailOtpConfig, StoredRecoveryCode, RecoveryCodesConfig, OtpConfig

def RowCodec.naming (a b : OtpConfig) : RowCodec where
  encode c := if c = a then "a" else if c = b then "b" else
    String.ofList (List.replicate (Encodable.encode c + 2) 'c')
  decode row := if row = "a" then some a else if row = "b" then some b else
    Encodable.decode (row.length - 2)
  decode_encode c := by
    have hlong (n : Nat) (name : String) (hname : name.length = 1) :
        String.ofList (List.replicate (n + 2) 'c') ≠ name := by
      rintro rfl
      simp at hname
    split
    · next ha => simp [ha]
    · split
      · next hb => simp [hb]
      · rw [if_neg (hlong _ _ rfl), if_neg (hlong _ _ rfl)]
        simp

def OtpPrimitives.literal : OtpPrimitives where
  isWhitespace := fun _ => false
  decodeBase32 := fun _ => none
  hotpValue := fun _ _ _ _ => 0
  verifyPassword := fun code hash => code == hash
  keyedMac := fun _ => none
  recoveryMac := fun _ _ => []

namespace EmailedCode

def pending : OtpConfig := .emailOtp ⟨"a@b", 6, 600, some "123456", some 600, 0, 5⟩

def used : OtpConfig := .emailOtp ⟨"a@b", 6, 600, none, none, 0, 5⟩

def codec : RowCodec := .naming pending used

def identity : Identity where
  status := fun _ => .active
  userTenant := fun _ => none
  tenant := fun _ => none
  own := fun _ _ => none
  inherited := fun _ kind => if kind = .emailOtp then some (codec.row pending) else none
  methods := fun _ => []
  tenantNamed := fun _ => none
  userNamed := fun _ _ => none

def scope : UserScope := ⟨⟨0⟩, ⟨7⟩⟩

def request (_ : Bool) : CodeAttempt Unit where
  service := { LoginService.literal 5 none with verifier := codec.verifier .literal ⟨none, none⟩ }
  credential := .otpCode "123456"
  reserved := some 1
  session :=
    { id := ⟨1⟩, data := .default, modified := false, needsPersist := false, regenerate := false,
      preCycleId := none, pendingFingerprint := none, maxCustomBytes := 0,
      rng := fun n => ⟨n + 2⟩, consume := none }

def answering : Pool.Answerer Bool Unit (Call Unit) Call.Answer (CodeState Bool) :=
  fun i _ e s => match e with
  | .identity c =>
    ((Identity.perform c s.identity).1, ⟨(Identity.perform c s.identity).2,
      s.log ++ ((CodeStore.written scope .emailOtp c (Identity.perform c s.identity).1).map
        fun next => ⟨i, CodeStore.effective scope .emailOtp s.identity, some next⟩).toList⟩)
  | e => ((World.perform e World.empty).1, s)

def race : Pool Bool (Call Unit) Call.Answer (Option FactorConfig) (CodeState Bool) :=
  Pool.replay answering
    (([false, true] ++ List.replicate 4 false ++ List.replicate 4 true).map (·, ()))
    ⟨fun i => (request i).run scope .emailOtp, ⟨identity, []⟩⟩

end EmailedCode

open EmailedCode

theorem one_time_code_passes_once_race :
    race.prog true = .ret none ∧
      ∃ x k, CodeStore.SpendsAt codec race.state.log k false
        (codec.row pending) x := by
  have hrun : Pool.Reaches (CodeStore.sem scope .emailOtp)
      ⟨fun i => (request i).run scope .emailOtp,
        ⟨identity, []⟩⟩ race := by
    refine Pool.reaches_replay (fun i _ e s => ?_) _ _
    cases e with
    | identity c => exact .inl ⟨Identity.allows_perform c s.identity, rfl⟩
    | store c => rfl
    | registry c => rfl
    | deliver key value => rfl
  have hlog : race.state.log = [⟨false, some (codec.row pending),
      some (codec.row used)⟩] := by decide +kernel
  have hpassed : race.prog false =
      .ret (some (codec.row pending)) :=
    Prog.eq_ret_of_returned (by decide +kernel)
  have hrefused : race.prog true = .ret none :=
    Prog.eq_ret_of_returned (by decide +kernel)
  have hspends := (one_time_code_passes_once (fun _ => codec.verifier_checks _ _)
    ?_ hrun ?_).1 false _ hpassed
  · obtain ⟨x, k, -, hspends⟩ := hspends
    exact ⟨hrefused, x, k, hspends⟩
  · intro f hf
    have hrow : CodeStore.effective scope .emailOtp identity =
        some (codec.row pending) := rfl
    rw [hrow] at hf
    exact ⟨pending, rfl, (Option.some.inj hf).symm⟩
  · intro e he c hnext
    rw [hlog, List.mem_singleton] at he
    subst he
    obtain rfl := codec.row_inj (Option.some.inj hnext)
    trivial

end Axess
