import Axess.Calls.Once
import Axess.Calls.Pool
import Axess.Dpop.Verify

/-!
# A proof is accepted once

The entry of a proof is dropped at its expiry, `2 * skew + 1` seconds after the proof was issued.
The proof itself is accepted up to `skew + 1` seconds after that, by the caller's reading of the
clock. The cache reads the clock again, so a call that is held up between the two readings can come
when the entry is gone.
-/

namespace Axess

open Calls Maps

variable {ι : Type}

/-- Every entry by expiry is the live one of its digest. -/
def JtiStore.Paired (store : JtiStore) : Prop := Queued id store.live store.byExpiry

theorem tryInsertAt_cases (store : JtiStore) (digest : JtiDigest) (expiresAt now : Instant)
    (capacity : Nat) :
    tryInsertAt store digest expiresAt now capacity = (false, (store.evictExpired now).2) ∨
      digest ∉ (store.evictExpired now).2.live ∧
        tryInsertAt store digest expiresAt now capacity =
          (true, ⟨(store.evictExpired now).2.live.insert digest expiresAt,
            (store.evictExpired now).2.byExpiry.orderedInsert (fun a b => a.1 ≤ b.1)
              (expiresAt, digest)⟩) := by
  unfold tryInsertAt
  simp only
  split
  · exact .inl rfl
  · next hfree => exact .inr ⟨fun hmem => hfree (.inl hmem), rfl⟩

namespace DpopPrimitives

variable {Jwk Key : Type} {prims : DpopPrimitives Jwk Key}

theorem checkClaims_ok {req : DpopVerifyRequest} {now iat : Instant} {claims : Json}
    (h : prims.checkClaims req now claims = .ok iat) :
    ∃ iatSecs, (claims.get "iat").bind Json.asI64 = some iatSecs ∧ iat = iatSecs * second := by
  simp only [checkClaims, bind, Except.bind, throw, throwThe, MonadExceptOf.throw, pure,
    Except.pure] at h
  obtain ⟨-, h⟩ := passed h
  obtain ⟨-, h⟩ := passed h
  cases hiat : (claims.get "iat").bind Json.asI64 with
  | none =>
    rw [hiat] at h
    cases h
  | some iatSecs =>
    rw [hiat] at h
    refine ⟨iatSecs, rfl, ?_⟩
    obtain ⟨-, h⟩ := passed h
    obtain ⟨-, h⟩ := passed h
    cases haccess : req.accessToken with
    | none =>
      rw [haccess] at h
      exact (Except.ok.inj h).symm
    | some accessToken =>
      rw [haccess] at h
      cases hath : claims.getStr "ath" with
      | none =>
        rw [hath] at h
        cases h
      | some ath =>
        rw [hath] at h
        simp only at h
        split at h
        · exact (Except.ok.inj h).symm
        · cases h

theorem examine_ok {req : DpopVerifyRequest} {now expiresAt : Instant} {jwkValue : Json}
    {digest : JtiDigest} (h : prims.examine req now = .ok (jwkValue, digest, expiresAt)) :
    ∃ claims iatSecs jti, prims.signedClaims req.proofJwt = .ok (jwkValue, claims) ∧
      (claims.get "iat").bind Json.asI64 = some iatSecs ∧ claims.getStr "jti" = some jti ∧
      digest = prims.sha256 jti ∧
      expiresAt = iatSecs * second + (req.maxIatSkewSecs * 2 + 1) * second := by
  simp only [examine, bind, Except.bind, throw, throwThe, MonadExceptOf.throw, pure,
    Except.pure] at h
  obtain ⟨-, h⟩ := passed h
  cases hsigned : prims.signedClaims req.proofJwt with
  | error e =>
    rw [hsigned] at h
    cases h
  | ok signed =>
    obtain ⟨jwk, claims⟩ := signed
    rw [hsigned] at h
    simp only at h
    cases hclaims : prims.checkClaims req now claims with
    | error e =>
      rw [hclaims] at h
      cases h
    | ok iat =>
      rw [hclaims] at h
      simp only at h
      obtain ⟨iatSecs, hiat, rfl⟩ := checkClaims_ok hclaims
      cases hjti : claims.getStr "jti" with
      | none =>
        rw [hjti] at h
        cases h
      | some jti =>
        rw [hjti] at h
        obtain ⟨-, h⟩ := passed h
        unfold dpopReplayWindowExpiry at h
        split at h
        · cases h
        · next expiry hexpiry =>
          simp only at hexpiry
          split at hexpiry
          · cases hexpiry
            cases h
            exact ⟨claims, iatSecs, jti, rfl, hiat, hjti, rfl, rfl⟩
          · cases hexpiry

theorem examine_same {req req' : DpopVerifyRequest} {now now' expiresAt expiresAt' : Instant}
    {jwkValue jwkValue' : Json} {digest digest' : JtiDigest}
    (h : prims.examine req now = .ok (jwkValue, digest, expiresAt))
    (h' : prims.examine req' now' = .ok (jwkValue', digest', expiresAt'))
    (hproof : req.proofJwt = req'.proofJwt) (hskew : req.maxIatSkewSecs = req'.maxIatSkewSecs) :
    (digest, expiresAt) = (digest', expiresAt') := by
  obtain ⟨claims, iatSecs, jti, hsigned, hiat, hjti, rfl, rfl⟩ := examine_ok h
  obtain ⟨claims', iatSecs', jti', hsigned', hiat', hjti', rfl, rfl⟩ := examine_ok h'
  rw [hproof] at hsigned
  obtain ⟨-, rfl⟩ := Prod.mk.inj (Except.ok.inj (hsigned.symm.trans hsigned'))
  obtain rfl := Option.some.inj (hiat.symm.trans hiat')
  obtain rfl := Option.some.inj (hjti.symm.trans hjti')
  rw [hskew]

end DpopPrimitives

structure DpopRun (ι : Type) where
  store : JtiStore
  now : Instant
  log : List (Admission ι (JtiDigest × Instant))

namespace DpopRun

def start (now : Instant) : DpopRun ι := ⟨.empty, now, []⟩

/-- The clock never runs back. The cache reads it under its lock. -/
def sem (capacity : Nat) (i : ι) : Sem DpopCall DpopCall.Answer (DpopRun ι)
  | .clock, s, (a : Instant), s' => s.now ≤ a ∧ s' = { s with now := a }
  | .tryInsert digest expiresAt, s, (a : Bool), s' => ∃ now, s.now ≤ now ∧
      a = (tryInsertAt s.store digest expiresAt now capacity).1 ∧
      s' = ⟨(tryInsertAt s.store digest expiresAt now capacity).2, now,
        if a then s.log ++ [⟨i, digest, expiresAt⟩] else s.log⟩

/-- The same, and a call reaches the cache before the expiry it brings. -/
def prompt (capacity : Nat) (i : ι) : Sem DpopCall DpopCall.Answer (DpopRun ι) :=
  fun e s a s' => sem capacity i e s a s' ∧
    match e with
    | .clock => True
    | .tryInsert _ expiresAt => s'.now < expiresAt

def barred (key : JtiDigest × Instant) (s : DpopRun ι) : Prop :=
  s.store.live.lookup key.1 = some key.2 ∨ key.2 ≤ s.now

structure Inv (s : DpopRun ι) : Prop where
  paired : s.store.Paired
  once : Once barred DpopRun.log s

inductive Guarantee (capacity : Nat) (i : ι) (s s' : DpopRun ι) : Prop where
  | tick : s.now ≤ s'.now → s'.store = s.store → s'.log = s.log → Guarantee capacity i s s'
  | insert (digest : JtiDigest) (expiresAt : Instant) : s.now ≤ s'.now →
      s'.now < expiresAt →
      s'.store = (tryInsertAt s.store digest expiresAt s'.now capacity).2 →
      s'.log = (if (tryInsertAt s.store digest expiresAt s'.now capacity).1 then
        s.log ++ [⟨i, digest, expiresAt⟩] else s.log) → Guarantee capacity i s s'

variable {capacity : Nat} {i : ι} {s s' : DpopRun ι}

theorem inv_start (now : Instant) : Inv (start now : DpopRun ι) where
  paired := Queued.empty
  once := .nil rfl

theorem Inv.evict (h : Inv s) {key : JtiDigest × Instant} (hkey : barred key s) {now : Instant}
    (hnow : s.now ≤ now) :
    (s.store.evictExpired now).2.live.lookup key.1 = some key.2 ∨ key.2 ≤ now := by
  rcases hkey with hlive | hpast
  · rcases lt_or_ge now key.2 with hbefore | hpast
    · exact .inl (h.paired.lookup_popDue hlive (decide_eq_false (Int.not_le.mpr hbefore)))
    · exact .inr hpast
  · exact .inr (Int.le_trans hpast hnow)

theorem Inv.step (h : Inv s) (hg : Guarantee capacity i s s') : Inv s' := by
  cases hg with
  | tick hnow hstore hlog =>
    refine ⟨hstore ▸ h.paired, h.once.step ⟨fun key hkey => ?_, .inl hlog⟩⟩
    unfold barred
    rw [hstore]
    exact hkey.imp_right fun hpast => Int.le_trans hpast hnow
  | insert digest expiresAt hnow hbefore hstore hlog =>
    have hpaired : (s.store.evictExpired s'.now).2.Paired := h.paired.popDue _
    rcases tryInsertAt_cases s.store digest expiresAt s'.now capacity with heq | ⟨hnew, heq⟩
    · rw [heq] at hstore hlog
      refine ⟨hstore ▸ hpaired, h.once.step ⟨fun key hkey => ?_, .inl hlog⟩⟩
      unfold barred
      rw [hstore]
      exact h.evict hkey hnow
    · rw [heq] at hstore hlog
      refine ⟨hstore ▸ hpaired.insert hnew expiresAt (List.perm_orderedInsert _ _ _),
        h.once.step ⟨fun key hkey => ?_, .inr ⟨⟨i, digest, expiresAt⟩, hlog, ?_, ?_⟩⟩⟩
      · -- what is held has another digest than the new entry
        unfold barred
        rw [hstore]
        refine (h.evict hkey hnow).imp_left fun hlive => ?_
        have hne : key.1 ≠ digest := by
          rintro rfl
          exact hnew (AList.lookup_isSome.mp (by rw [hlive]; rfl))
        rw [AList.lookup_insert_ne hne]
        exact hlive
      · intro hbarred
        rcases h.evict hbarred hnow with hlive | hpast
        · exact hnew (AList.lookup_isSome.mp (by rw [hlive]; rfl))
        · exact absurd hpast (Int.not_le.mpr hbefore)
      · refine .inl ?_
        rw [hstore]
        exact AList.lookup_insert _

variable {Jwk Key : Type} {prims : DpopPrimitives Jwk Key} {req : DpopVerifyRequest}

/-- A proof that was accepted was let in under its digest and expiry. -/
def Ended (prims : DpopPrimitives Jwk Key) (req : DpopVerifyRequest) (i : ι)
    (r : Except DpopError (List Char)) (s : DpopRun ι) : Prop :=
  r.isOk = true → ∃ now jwkValue digest expiresAt,
    prims.examine req now = .ok (jwkValue, digest, expiresAt) ∧
      (⟨i, digest, expiresAt⟩ : Admission ι (JtiDigest × Instant)) ∈ s.log

theorem ended_stable (r : Except DpopError (List Char)) :
    Stable (Pool.others (Guarantee capacity) i) (Ended prims req i r) := by
  rintro s s' h ⟨j, -, hg⟩ hok
  obtain ⟨now, jwkValue, digest, expiresAt, hexamine, hmem⟩ := h hok
  refine ⟨now, jwkValue, digest, expiresAt, hexamine, ?_⟩
  cases hg with
  | tick _ _ hlog => exact hlog ▸ hmem
  | insert _ _ _ _ _ hlog =>
    rw [hlog]
    split
    · exact List.mem_append_left _ hmem
    · exact hmem

theorem ended_safe {r : Except DpopError (List Char)} (h : Ended prims req i r s) :
    (pure r : Prog DpopCall DpopCall.Answer (Except DpopError (List Char))).Safe
      (prompt capacity i) (Pool.others (Guarantee capacity) i) (Guarantee capacity i)
      (Ended prims req i) s :=
  Prog.Safe.ret (Ended prims req i r) (ended_stable r) h fun _ hw => hw

theorem present_safe : (prims.present req).SafeAmong (prompt capacity) (Guarantee capacity) i
  (Ended prims req i) s := by
  have htrue : Stable (Pool.others (Guarantee capacity) i) fun _ => True := fun _ _ _ _ => trivial
  refine Prog.Safe.perform_bind (fun _ => True) htrue trivial ?_
  rintro w (now : Instant) w' - ⟨⟨hnow, rfl⟩, -⟩
  refine ⟨.tick hnow rfl rfl, ?_⟩
  unfold DpopPrimitives.verifyDpopProof
  cases hexamine : prims.examine req now with
  | error e => exact ended_safe nofun
  | ok examined =>
    obtain ⟨jwkValue, digest, expiresAt⟩ := examined
    refine Prog.Safe.perform_bind (fun _ => True) htrue trivial ?_
    rintro v (fresh : Bool) v' - ⟨⟨read, hread, hfresh, rfl⟩, hbefore⟩
    refine ⟨.insert digest expiresAt hread hbefore rfl (by rw [hfresh]), ?_⟩
    cases fresh with
    | false => exact ended_safe nofun
    | true =>
      exact ended_safe fun _ => ⟨now, jwkValue, digest, expiresAt, hexamine,
        List.mem_append_right _ (List.mem_singleton_self _)⟩

end DpopRun

/-- If every call reaches the cache before the expiry it brings, a proof is accepted once under one
skew. -/
theorem dpop_proof_accepted_once [DecidableEq ι] {Jwk Key : Type} {prims : DpopPrimitives Jwk Key}
    {capacity : Nat} {req : ι → DpopVerifyRequest} {now : Instant}
    {pool : Pool ι DpopCall DpopCall.Answer (Except DpopError (List Char)) (DpopRun ι)}
    (hrun : Pool.Reaches (DpopRun.prompt capacity)
      ⟨fun i => prims.present (req i), DpopRun.start now⟩ pool) {i j : ι}
    (hproof : (req i).proofJwt = (req j).proofJwt)
    (hskew : (req i).maxIatSkewSecs = (req j).maxIatSkewSecs) {thumbprint thumbprint' : List Char}
    (hi : pool.prog i = .ret (.ok thumbprint)) (hj : pool.prog j = .ret (.ok thumbprint')) :
    i = j := by
  have hsafe : Pool.AllSafe (DpopRun.prompt capacity) (DpopRun.Guarantee capacity)
      (fun i => DpopRun.Ended prims (req i) i)
      ⟨fun i => prims.present (req i), DpopRun.start now⟩ := fun _ => DpopRun.present_safe
  have hinv : DpopRun.Inv pool.state :=
    hrun.invariant hsafe (fun _ _ _ hg h => h.step hg) (DpopRun.inv_start now)
  obtain ⟨_, _, digest, expiresAt, hexamine, hmem⟩ := hrun.post hsafe hi rfl
  obtain ⟨_, _, digest', expiresAt', hexamine', hmem'⟩ := hrun.post hsafe hj rfl
  exact congrArg Admission.who (hinv.once.eq hmem hmem'
    (DpopPrimitives.examine_same hexamine hexamine' hproof hskew))

namespace HeldUp

def jwk : Json := .obj [("crv", .str "P-256"), ("kty", .str "EC"), ("x", .str "1"), ("y", .str "2")]

def header : Json := .obj [("typ", .str "dpop+jwt"), ("alg", .str "ES256"), ("jwk", jwk)]

def claims : Json := .obj [("htm", .str "POST"), ("htu", .str "https://rs/pay"), ("iat", .int 100),
  ("jti", .str "n1")]

def prims : DpopPrimitives Unit Unit where
  base64Error _ := ""
  parseJson bytes := .ok (if bytes = [0] then header else claims)
  parseJwk _ := .ok ()
  decodingKey _ := .ok ()
  verify _ _ _ := .ok true
  sha256 text := Vector.replicate 32 (UInt8.ofNat text.utf8ByteSize)
  isDate _ := true

def proof : List Char :=
  Bytes.Base64.encode [0] ++ '.' :: Bytes.Base64.encode [1] ++ '.' :: Bytes.Base64.encode [2]

def req : DpopVerifyRequest := ⟨proof, "POST", "https://rs/pay", none, 0⟩

def answering : Pool.Answerer (Fin 2) Instant DpopCall DpopCall.Answer (DpopRun (Fin 2))
  | _, t, .clock, s => (t, { s with now := t })
  | i, t, .tryInsert digest expiresAt, s =>
    let r := tryInsertAt s.store digest expiresAt t 8
    (r.1, ⟨r.2, t, if r.1 then s.log ++ [⟨i, digest, expiresAt⟩] else s.log⟩)

def promptly (_ : Fin 2) (t : Instant) (e : DpopCall) (s : DpopRun (Fin 2)) : Bool :=
  s.now ≤ t && match e with
    | .clock => true
    | .tryInsert _ expiresAt => t < expiresAt

theorem sem_answering (i : Fin 2) (t : Instant) (e : DpopCall) (s : DpopRun (Fin 2))
    (h : s.now ≤ t) : DpopRun.sem 8 i e s (answering i t e s).1 (answering i t e s).2 := by
  cases e with
  | clock => exact ⟨h, rfl⟩
  | tryInsert digest expiresAt => exact ⟨t, h, rfl, rfl⟩

theorem prompt_answering (i : Fin 2) (t : Instant) (e : DpopCall) (s : DpopRun (Fin 2))
    (h : promptly i t e s = true) :
    DpopRun.prompt 8 i e s (answering i t e s).1 (answering i t e s).2 := by
  obtain ⟨hnow, hbefore⟩ := (Bool.and_eq_true _ _).mp h
  refine ⟨sem_answering i t e s (of_decide_eq_true hnow), ?_⟩
  cases e with
  | clock => trivial
  | tryInsert digest expiresAt => exact of_decide_eq_true hbefore

/-- Both read the clock within second 100; the first reaches the cache then, and the second at
`late`. -/
def run (late : Instant) : Pool (Fin 2) DpopCall DpopCall.Answer (Except DpopError (List Char))
    (DpopRun (Fin 2)) :=
  Pool.replay answering
    (Pool.turns [(1, 0, 100500000000), (1, 1, 100900000000), (1, 0, 100900000000), (1, 1, late)])
    ⟨fun _ => prims.present req, DpopRun.start 0⟩

end HeldUp

/-- Second 101 comes between the second call's reading of the clock and the cache's, and the proof
is accepted again. -/
theorem dpop_proof_accepted_again :
    ∃ pool, Pool.Reaches (DpopRun.sem 8)
        ⟨fun _ : Fin 2 => HeldUp.prims.present HeldUp.req, DpopRun.start 0⟩ pool ∧
      (∃ thumbprint, pool.prog 0 = .ret (.ok thumbprint)) ∧
      (∃ thumbprint, pool.prog 1 = .ret (.ok thumbprint)) ∧
      pool.state.store.live.keys.length < 8 := by
  refine ⟨HeldUp.run 101000000000, Pool.reaches_replay_of_admits
    (fun i t e s h => HeldUp.sem_answering i t e s (of_decide_eq_true h)) _ _
    (by decide +kernel), ⟨_, Prog.eq_ret_of_returned rfl⟩, ⟨_, Prog.eq_ret_of_returned rfl⟩,
    by decide +kernel⟩

theorem dpop_proof_accepted_once_promptly :
    (∃ thumbprint, (HeldUp.run 100950000000).prog 0 = .ret (.ok thumbprint)) ∧
    ∀ thumbprint, (HeldUp.run 100950000000).prog 1 ≠ .ret (.ok thumbprint) := by
  have hrun : Pool.Reaches (DpopRun.prompt 8)
      ⟨fun _ : Fin 2 => HeldUp.prims.present HeldUp.req, DpopRun.start 0⟩
      (HeldUp.run 100950000000) :=
    Pool.reaches_replay_of_admits HeldUp.prompt_answering _ _ (by decide +kernel)
  have hfirst : ∃ thumbprint, (HeldUp.run 100950000000).prog 0 = .ret (.ok thumbprint) :=
    ⟨_, Prog.eq_ret_of_returned rfl⟩
  refine ⟨hfirst, fun thumbprint hsecond => ?_⟩
  obtain ⟨thumbprint', hfirst⟩ := hfirst
  cases dpop_proof_accepted_once hrun rfl rfl hfirst hsecond

end Axess
