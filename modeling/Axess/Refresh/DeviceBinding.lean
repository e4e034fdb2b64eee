import Axess.Refresh.Pepper

/-!
# The device a refresh token is bound to

A token can be bound to a device string (`session/refresh/device_binding.rs`). What the row stores
of the string is keyed by the pepper of the row's own hash, so a refresh takes the key from where it
found the row, and keys the string anew for the row that replaces it. A row of an earlier release
stores the string itself until it is replaced.
-/

namespace Axess

open Calls

theorem byteArray_toList_loop (bs : ByteArray) (i : Nat) (r : List UInt8) :
    ByteArray.toList.loop bs i r = r.reverse ++ bs.data.toList.drop i := by
  fun_induction ByteArray.toList.loop bs i r with
  | case1 i r hi ih =>
    have hlt : i < bs.data.toList.length := by simpa using hi
    rw [ih, List.drop_eq_getElem_cons hlt]
    simp [ByteArray.get!, getElem!_pos bs.data i (by simpa using hi)]
  | case2 i r hi => simpa using hi

theorem utf8_injective : Function.Injective utf8 := by
  intro s t h
  have hdata : s.toByteArray.data.toList = t.toByteArray.data.toList := by
    have hloop : ∀ bs : ByteArray, bs.toList = bs.data.toList := fun bs =>
      byteArray_toList_loop bs 0 []
    rw [← hloop, ← hloop]
    exact h
  exact String.toByteArray_inj.mp (ByteArray.ext (Array.ext' hdata))

namespace TokenDigest

variable (digest : TokenDigest)

/-- The digests are injective, and no two peppers give a token one hash. -/
structure Ideal : Prop where
  hmac : ∀ key, Function.Injective (digest.hmacSha256 key)
  sha : Function.Injective digest.sha256
  peppers : ∀ plaintext, Function.Injective (digest.hashToken plaintext)

variable {digest}

theorem Ideal.same_iff (hideal : digest.Ideal) {a b : String} : digest.same a b = true ↔ a = b := by
  rw [same, beq_iff_eq]
  exact (hideal.sha.comp utf8_injective).eq_iff

theorem Ideal.bind_inj (hideal : digest.Ideal) {info info' : String} {device : Option DeviceId}
    {pepper : Option Pepper} :
    digest.bind info device pepper = digest.bind info' device pepper ↔ info = info' := by
  unfold bind
  rw [String.append_right_inj, (hideal.hmac _).eq_iff, List.append_cancel_left_eq,
    utf8_injective.eq_iff]

theorem bind_startsWith (info : String) (device : Option DeviceId) (pepper : Option Pepper) :
    (digest.bind info device pepper).startsWith bindingPrefix = true := by
  rw [String.startsWith_string_iff, bind, String.toList_append]
  exact List.prefix_append _ _

end TokenDigest

/-- A store that answers a lookup with a row of that hash, if with a row at all. -/
def looksUp : Sem RefreshCall RefreshCall.Answer Unit := fun c _ a _ =>
  match c, a with
  | .findToken hash, .ok (some row) => row.tokenHash = hash
  | _, _ => True

def Finds (digest : TokenDigest) (config : RefreshTokenConfig) (plaintext : String)
    (found : Located) : Prop :=
  (locate digest plaintext config).Runs looksUp () (.ok (some found)) ()

abbrev StoredToken := String × RefreshToken

/-- One refresh that passes the device check: the token stays as it is or is replaced. -/
inductive Refreshes (digest : TokenDigest) : StoredToken → StoredToken → Prop where
  | kept (config : RefreshTokenConfig) (draw : TokenDraw) (now : Instant) {plaintext : String}
      {found : Located} {presented child : Option String} :
      Finds digest config plaintext found →
      digest.verifyBinding found.record presented (found.storedUnder config) config.pepper =
        .ok child →
      replacementFor digest plaintext config draw now found child = .keep →
      Refreshes digest (plaintext, found.record) (plaintext, found.record)
  | replaced (config : RefreshTokenConfig) (draw : TokenDraw) (now : Instant)
      {plaintext fresh : String} {found : Located} {presented child : Option String}
      {row : RefreshToken} :
      Finds digest config plaintext found →
      digest.verifyBinding found.record presented (found.storedUnder config) config.pepper =
        .ok child →
      replacementFor digest plaintext config draw now found child = .token fresh row →
      Refreshes digest (plaintext, found.record) (fresh, row)

section Success

variable {digest : TokenDigest} {config : RefreshTokenConfig} {draw : TokenDraw} {now : Instant}
  {refresh : Refresh} {found : Located} {session : SessionData V} {issued : Option StoredToken}

theorem Finds.of_find (h : (refresh.find digest config).Runs looksUp () (.ok found) ()) :
    Finds digest config refresh.plaintext found := by
  unfold Refresh.find at h
  split at h
  · cases h.of_ret.1
  · obtain ⟨answer, _, hlocate, hrest⟩ := h.of_bind
    split at hrest <;> cases hrest.of_ret.1
    exact hlocate

theorem Finds.of_replace (hfinds : Finds digest config refresh.plaintext found)
    {presented child : Option String}
    (hcheck : digest.verifyBinding found.record presented (found.storedUnder config)
      config.pepper = .ok child)
    (h : (refresh.replace digest config draw now found child).Runs looksUp ()
      (.ok (session, issued)) ()) :
    ∃ next, Refreshes digest (refresh.plaintext, found.record) next ∧ ∀ t ∈ issued, next = t := by
  unfold Refresh.replace at h
  split at h
  · rename_i hkeep
    cases h.of_ret.1
    exact ⟨_, .kept config draw now hfinds hcheck hkeep, nofun⟩
  · cases h.of_ret.1
  · rename_i hfresh
    obtain ⟨rotated, _, _, h⟩ := h.of_bind
    split at h <;> cases h.of_ret.1
    refine ⟨_, .replaced config draw now hfinds hcheck hfresh, fun t ht => ?_⟩
    split_ifs at ht
    · exact Option.some_inj.mp ht
    · cases ht

/-- A refresh that succeeds is such a step, to the token it hands out if it hands one out. -/
theorem refreshes_of_run
    (h : (refresh.run digest config draw now).Runs looksUp () (.ok (session, issued)) ()) :
    ∃ record next, Refreshes digest (refresh.plaintext, record) next ∧ ∀ t ∈ issued, next = t := by
  obtain ⟨answer, _, hfind, h⟩ := h.of_bind
  cases answer with
  | error e => cases h.of_ret.1
  | ok found =>
    dsimp only [Refresh.proceed, Refresh.proceedLive] at h
    split_ifs at h
    · cases h.of_ret.1
    · obtain ⟨_, _, _, h⟩ := h.of_bind
      cases h.of_ret.1
    · cases h.of_ret.1
    obtain ⟨active, _, _, h⟩ := h.of_bind
    split_ifs at h
    · cases h.of_ret.1
    obtain ⟨checked, _, _, h⟩ := h.of_bind
    split at h
    · cases h.of_ret.1
    split at h
    · cases h.of_ret.1
    · rename_i hcheck
      exact ⟨_, (Finds.of_find hfind).of_replace hcheck h⟩

end Success

def Issued (digest : TokenDigest) (info : String) (token : StoredToken) : Prop :=
  ∃ (req : IssueRequest) (config : RefreshTokenConfig) (id : RefreshTokenId) (now : Instant),
    buildRefreshTokenFor digest token.1
      { req with deviceInfo := some (digest.bind info req.deviceId config.pepper) } config id now none =
        some token.2

/-- A token of an earlier release, which stored the string itself. -/
def IssuedRaw (digest : TokenDigest) (info : String) (token : StoredToken) : Prop :=
  token.2.deviceInfo = some info ∧ info.startsWith TokenDigest.bindingPrefix = false ∧
    ∃ pepper, token.2.tokenHash = digest.hashToken token.1 pepper

/-! ## What a row stores of its device -/

variable {digest : TokenDigest} {info : String} {token token' : StoredToken}

/-- The string under the pepper of the row's hash, or the string itself. -/
def BoundTo (digest : TokenDigest) (info : String) (token : StoredToken) : Prop :=
  ∃ pepper, token.2.tokenHash = digest.hashToken token.1 pepper ∧
    (token.2.deviceInfo = some (digest.bind info token.2.deviceId pepper) ∨
      token.2.deviceInfo = some info ∧ info.startsWith TokenDigest.bindingPrefix = false)

variable {config : RefreshTokenConfig} {plaintext : String}

theorem Finds.tokenHash {found : Located} (h : Finds digest config plaintext found) :
    found.record.tokenHash = digest.hashToken plaintext (found.storedUnder config) := by
  obtain ⟨a, _, hX, hr⟩ := Prog.Runs.of_perform h
  match a with
  | .error e => cases hr.of_ret.1
  | .ok (some row) =>
    cases hr.of_ret.1
    exact hX
  | .ok none =>
    cases hprevious : config.previousPepper with
    | none =>
      simp only [hprevious] at hr
      cases hr.of_ret.1
    | some previous =>
      simp only [hprevious] at hr
      obtain ⟨a, _, hX, hr⟩ := Prog.Runs.of_perform hr
      match a with
      | .error e => cases hr.of_ret.1
      | .ok none => cases hr.of_ret.1
      | .ok (some row) =>
        cases hr.of_ret.1
        rw [Located.storedUnder, if_pos rfl, hprevious]
        exact hX

theorem finds_current {row : RefreshToken}
    (h : row.tokenHash = digest.hashToken plaintext config.pepper) :
    Finds digest config plaintext ⟨row, false⟩ :=
  .call (show looksUp (.findToken _) () (.ok (some row)) () from h) (.ret _ _)

/-- The check on a bound row passes for its string and for nothing else. -/
theorem BoundTo.verifyBinding_iff (hideal : digest.Ideal) (h : BoundTo digest info token)
    {storedUnder : Option Pepper}
    (hhash : token.2.tokenHash = digest.hashToken token.1 storedUnder)
    (presented : Option String) (current : Option Pepper) (child : Option String) :
    digest.verifyBinding token.2 presented storedUnder current = .ok child ↔
      presented = some info ∧ child = some (digest.bind info token.2.deviceId current) := by
  obtain ⟨pepper, hstored, hinfo⟩ := h
  -- the row was found under the pepper it is stored under
  obtain rfl := hideal.peppers _ (hstored.symm.trans hhash)
  have hmatches : ∀ given stored, token.2.deviceInfo = some stored →
      (digest.matchesBinding stored given token.2.deviceId pepper = true ↔ given = info) := by
    rintro given stored hrow
    unfold TokenDigest.matchesBinding
    rcases hinfo with hbound | ⟨hraw, hbare⟩
    · cases hrow.symm.trans hbound
      rw [if_pos (TokenDigest.bind_startsWith info _ _), hideal.same_iff, hideal.bind_inj, eq_comm]
    · cases hrow.symm.trans hraw
      rw [hbare, if_neg (by decide), hideal.same_iff, eq_comm]
  unfold TokenDigest.verifyBinding
  obtain ⟨stored, hrow⟩ : ∃ stored, token.2.deviceInfo = some stored := by
    rcases hinfo with h | h
    · exact ⟨_, h⟩
    · exact ⟨_, h.1⟩
  rw [hrow]
  cases presented with
  | none => simp
  | some given =>
    dsimp only
    split
    · next hmatch =>
      obtain rfl := (hmatches given stored hrow).mp hmatch
      simp [eq_comm]
    · next hmatch =>
      have hne : given ≠ info := fun heq => hmatch ((hmatches given stored hrow).mpr heq)
      simp [hne]

theorem Issued.boundTo (h : Issued digest info token) : BoundTo digest info token := by
  obtain ⟨req, config, id, now, hbuilt⟩ := h
  obtain ⟨slidingEnd, -, hrow⟩ := Option.map_eq_some_iff.mp hbuilt
  exact ⟨config.pepper, by rw [← hrow], .inl (by rw [← hrow])⟩

/-- A replacement stores the string it is given, under the current pepper. -/
theorem replacementFor_token {fresh : String} {draw : TokenDraw} {now : Instant} {found : Located}
    {child : Option String} {row : RefreshToken}
    (h : replacementFor digest plaintext config draw now found child = .token fresh row) :
    row.tokenHash = digest.hashToken fresh config.pepper ∧ row.deviceInfo = child ∧
      row.deviceId = found.record.deviceId := by
  unfold replacementFor buildRefreshTokenFor at h
  cases hend : checkedAddSigned now config.ttl with
  | none =>
    rw [hend] at h
    dsimp only [Option.map] at h
    split at h
    · cases h
    · split at h <;> cases h
  | some slidingEnd =>
    rw [hend] at h
    dsimp only [Option.map] at h
    split at h
    · cases h
      exact ⟨rfl, rfl, rfl⟩
    · split at h
      · cases h
        exact ⟨rfl, rfl, rfl⟩
      · cases h

theorem BoundTo.refreshes (hideal : digest.Ideal) (h : BoundTo digest info token)
    (hstep : Refreshes digest token token') : BoundTo digest info token' := by
  cases hstep with
  | kept => exact h
  | replaced config draw now hfound hcheck hnew =>
    obtain ⟨-, rfl⟩ := (h.verifyBinding_iff hideal hfound.tokenHash _ _ _).mp hcheck
    obtain ⟨hhash, hinfo, hdevice⟩ := replacementFor_token hnew
    exact ⟨_, hhash, .inl (by rw [hinfo, hdevice])⟩

theorem BoundTo.chain (hideal : digest.Ideal) (h : BoundTo digest info token)
    (hchain : Relation.ReflTransGen (Refreshes digest) token token') :
    BoundTo digest info token' := by
  induction hchain with
  | refl => exact h
  | tail _ hstep ih => exact ih.refreshes hideal hstep

/-- However often a token was refreshed since it was issued, under whichever peppers, its device
check passes for the string it was issued for and for no other. -/
theorem binding_admits_iff (hideal : digest.Ideal)
    (hstart : Issued digest info token ∨ IssuedRaw digest info token)
    (hchain : Relation.ReflTransGen (Refreshes digest) token token')
    {config : RefreshTokenConfig} {found : Located} (hfound : Finds digest config token'.1 found)
    (hrow : found.record = token'.2) (presented : Option String) :
    (∃ child, digest.verifyBinding token'.2 presented (found.storedUnder config) config.pepper =
      .ok child) ↔ presented = some info := by
  have hbound : BoundTo digest info token := by
    rcases hstart with hissued | ⟨hraw, hbare, pepper, hhash⟩
    · exact hissued.boundTo
    · exact ⟨pepper, hhash, .inr ⟨hraw, hbare⟩⟩
  have hlast := hbound.chain hideal hchain
  have hhash : token'.2.tokenHash = digest.hashToken token'.1 (found.storedUnder config) :=
    hrow ▸ hfound.tokenHash
  simp only [hlast.verifyBinding_iff hideal hhash, exists_and_left, exists_eq, and_true]

theorem literal_ideal : TokenDigest.literal.Ideal where
  hmac _ _ _ h := List.append_cancel_left (latin1_injective h)
  sha := latin1_injective
  peppers plaintext := Client.literal_hash_injective ⟨⟨0⟩, plaintext, none⟩

section Phone

open Client (keptUnder rollbackRow)

def phoneBinding (pepper : Pepper) : String := TokenDigest.literal.bind "phone" none (some pepper)

def phoneToken : StoredToken :=
  ("t", (buildRefreshTokenFor .literal "t" ⟨⟨7⟩, ⟨3⟩, some (phoneBinding [1]), none, none⟩
    (keptUnder [1] [0]) ⟨1⟩ 0 none).getD rollbackRow)

def phoneChild : StoredToken :=
  ("u", (buildRefreshTokenFor .literal "u" (childOf phoneToken.2 (some (phoneBinding [1])))
    { keptUnder [1] [0] with rotation := true } ⟨2⟩ 5 (some 0)).getD rollbackRow)

theorem phone_issued : Issued .literal "phone" phoneToken :=
  ⟨⟨⟨7⟩, ⟨3⟩, none, none, none⟩, keptUnder [1] [0], ⟨1⟩, 0, rfl⟩

theorem phone_refreshes : Refreshes .literal phoneToken phoneChild := by
  have hfound : Finds .literal { keptUnder [1] [0] with rotation := true } "t"
      ⟨phoneToken.2, false⟩ := finds_current rfl
  have hcheck := (phone_issued.boundTo.verifyBinding_iff literal_ideal hfound.tokenHash
    (some "phone") (some [1]) _).mpr ⟨rfl, rfl⟩
  exact .replaced _ ⟨"u", ⟨2⟩⟩ 5 hfound hcheck rfl

theorem binding_admits_phone :
    (∃ child, TokenDigest.literal.verifyBinding phoneChild.2 (some "phone") (some [1]) (some [1]) =
      .ok child) ∧
    ¬ ∃ child, TokenDigest.literal.verifyBinding phoneChild.2 (some "tablet") (some [1]) (some [1]) =
      .ok child := by
  have hfound : Finds .literal (keptUnder [1] [0]) phoneChild.1 ⟨phoneChild.2, false⟩ :=
    finds_current rfl
  have hadmits := binding_admits_iff literal_ideal (.inl phone_issued) (.single phone_refreshes)
    hfound rfl
  exact ⟨(hadmits (some "phone")).mpr rfl, fun h => absurd ((hadmits (some "tablet")).mp h) (by decide)⟩

end Phone

end Axess
