import Axess.Service.Signature

/-!
# Text in directory templates

An identifier goes into a DN and a search filter (`ldap.rs`) as escaped text. Escaped text is read back as
tokens: a plain character, a character after a backslash, or a byte in hexadecimal after one. RFC 4515
has only the bytes, RFC 4514 has both.
-/

namespace Axess

namespace Ldap

inductive Token where
  | plain (c : Char)
  | pair (c : Char)
  | hex (byte : UInt8)
  deriving DecidableEq

def hexEscape (byte : UInt8) : List Char := ['\\', hexChar (byte >>> 4), hexChar (byte &&& 15)]

def Token.text : Token → List Char
  | plain c => [c]
  | pair c => ['\\', c]
  | hex byte => hexEscape byte

def Token.bytes : Token → List UInt8
  | plain c => String.utf8EncodeChar c
  | pair c => String.utf8EncodeChar c
  | hex byte => [byte]

def readTokens (special : List Char) : List Char → Option (List Token)
  | [] => some []
  | c :: rest =>
    if c ≠ '\\' then (readTokens special rest).map (.plain c :: ·)
    else match rest with
      | [] => none
      | high :: rest =>
        if high ∈ special then (readTokens special rest).map (.pair high :: ·)
        else match rest with
          | [] => none
          | low :: rest => do
            let high ← nibble high
            let low ← nibble low
            let tokens ← readTokens special rest
            pure (.hex (high <<< 4 ||| low) :: tokens)

def decode (special : List Char) (text : List Char) : Option (List UInt8) :=
  (readTokens special text).map fun tokens => tokens.flatMap Token.bytes

def Token.Valid (special : List Char) : Token → Prop
  | plain c => c ≠ '\\'
  | pair c => c ∈ special
  | hex _ => True

theorem readTokens_text {special : List Char} (hspecial : ∀ c ∈ special, nibble c = none)
    {tokens : List Token} (hvalid : ∀ token ∈ tokens, token.Valid special) :
    readTokens special (tokens.flatMap Token.text) = some tokens := by
  induction tokens with
  | nil => rfl
  | cons token tokens ih =>
    obtain ⟨htoken, htokens⟩ := List.forall_mem_cons.mp hvalid
    rw [List.flatMap_cons]
    cases token with
    | plain c =>
      rw [Token.text, List.singleton_append, readTokens.eq_def]
      dsimp only
      rw [if_pos (show c ≠ '\\' from htoken), ih htokens]
      rfl
    | pair c =>
      rw [Token.text, List.cons_append, List.singleton_append, readTokens.eq_def]
      dsimp only
      rw [if_neg (not_not.mpr rfl), if_pos (show c ∈ special from htoken), ih htokens]
      rfl
    | hex byte =>
      obtain ⟨hhigh, hlow, hbyte⟩ := nibble_hexChar byte
      have hnot : hexChar (byte >>> 4) ∉ special := fun hmem => by
        rw [hspecial _ hmem] at hhigh
        cases hhigh
      rw [Token.text, hexEscape, List.cons_append, List.cons_append, List.singleton_append,
        readTokens.eq_def]
      dsimp only
      rw [if_neg (not_not.mpr rfl), if_neg hnot, hhigh, hlow, ih htokens]
      show some (.hex (byte >>> 4 <<< 4 ||| byte &&& 15) :: tokens) = _
      rw [hbyte]

def utf8 (text : List Char) : List UInt8 := text.flatMap String.utf8EncodeChar

def filterKept (byte : UInt8) : Bool :=
  0x20 ≤ byte && byte ≤ 0x7E && byte != '*'.toUInt8 && byte != '('.toUInt8 && byte != ')'.toUInt8 &&
    byte != '\\'.toUInt8

def ldapFilterEscape (input : List Char) : List Char :=
  (utf8 input).flatMap fun byte =>
    if filterKept byte then [Char.ofNat byte.toNat] else hexEscape byte

def filterToken (byte : UInt8) : Token :=
  if filterKept byte then .plain (Char.ofNat byte.toNat) else .hex byte

theorem filterToken_spec (byte : UInt8) :
    (filterToken byte).bytes = [byte] ∧ (filterToken byte).Valid [] ∧
      (∀ c ∈ (filterToken byte).text, ' ' ≤ c ∧ c ≤ '~' ∧ c ∉ ['(', ')', '*']) := by
  have hkept : ∀ n : Fin 256, filterKept (UInt8.ofNat n) = true →
      String.utf8EncodeChar (Char.ofNat n) = [UInt8.ofNat n] ∧ Char.ofNat n ≠ '\\' ∧
        ' ' ≤ Char.ofNat n ∧ Char.ofNat n ≤ '~' ∧ Char.ofNat n ∉ ['(', ')', '*'] := by
    decide +kernel
  have hhex : ∀ c ∈ '\\' :: hexDigits, ' ' ≤ c ∧ c ≤ '~' ∧ c ∉ ['(', ')', '*'] :=
    List.all_iff_forall_prop.mp (by decide +kernel)
  have hkept := hkept ⟨byte.toNat, byte.toNat_lt⟩
  rw [UInt8.ofNat_toNat] at hkept
  unfold filterToken
  split
  · next h =>
    obtain ⟨hbytes, hslash, hsafe⟩ := hkept h
    exact ⟨hbytes, hslash, fun c hc => List.mem_singleton.mp hc ▸ hsafe⟩
  · refine ⟨rfl, trivial, fun c hc => hhex c ?_⟩
    rcases List.mem_cons.mp hc with rfl | hc
    · exact List.mem_cons_self
    · rcases List.mem_cons.mp hc with rfl | hc
      · exact List.mem_cons_of_mem _ (hexChar_mem _)
      · exact List.mem_cons_of_mem _ (List.mem_singleton.mp hc ▸ hexChar_mem _)

theorem ldapFilterEscape_eq (input : List Char) :
    ldapFilterEscape input = ((utf8 input).map filterToken).flatMap Token.text := by
  rw [ldapFilterEscape, List.flatMap_map]
  refine List.flatMap_congr fun byte _ => ?_
  unfold filterToken
  split <;> rfl

theorem decode_ldapFilterEscape (input : List Char) :
    decode [] (ldapFilterEscape input) = some (utf8 input) := by
  have hvalid : ∀ token ∈ (utf8 input).map filterToken, token.Valid [] := by
    intro token htoken
    obtain ⟨byte, -, rfl⟩ := List.mem_map.mp htoken
    exact (filterToken_spec byte).2.1
  rw [decode, ldapFilterEscape_eq, readTokens_text (fun c hc => absurd hc List.not_mem_nil) hvalid, Option.map_some, List.flatMap_map,
    List.flatMap_congr fun byte _ => (filterToken_spec byte).1, List.flatMap_singleton']

theorem ldapFilterEscape_safe {input : List Char} {c : Char} (h : c ∈ ldapFilterEscape input) :
    ' ' ≤ c ∧ c ≤ '~' ∧ c ∉ ['(', ')', '*'] := by
  rw [ldapFilterEscape_eq, List.flatMap_map] at h
  obtain ⟨byte, -, hc⟩ := List.mem_flatMap.mp h
  exact (filterToken_spec byte).2.2 c hc

theorem eq_of_dropPrefix {text pattern rest : List Char}
    (h : text.dropPrefix? pattern = some rest) : text = pattern ++ rest := by
  obtain ⟨front, rfl, hfront⟩ := List.dropPrefix?_eq_some_iff.mp h
  rw [eq_of_beq hfront]

def expandFrom (dn user out rest : List Char) : List Char :=
  -- `rest.find('{')`
  let out' := out ++ rest.takeWhile (· != '{')
  match htail : rest.dropWhile (· != '{') with
  | [] => out'
  | brace :: after =>
    match hdn : (brace :: after).dropPrefix? "{dn}".toList with
    | some t => expandFrom dn user (out' ++ dn) t
    | none =>
      match huser : (brace :: after).dropPrefix? "{user}".toList with
      | some t => expandFrom dn user (out' ++ user) t
      | none => expandFrom dn user (out' ++ ['{']) after
termination_by rest.length
decreasing_by
  all_goals
    have hle : (brace :: after).length ≤ rest.length := htail ▸ (List.dropWhile_sublist _).length_le
  · rw [eq_of_dropPrefix hdn, List.length_append] at hle
    exact (Nat.lt_add_of_pos_left (by decide)).trans_le hle
  · rw [eq_of_dropPrefix huser, List.length_append] at hle
    exact (Nat.lt_add_of_pos_left (by decide)).trans_le hle
  · exact hle

def expandGroupFilter (template bindDn identifier : List Char) : List Char :=
  expandFrom (ldapFilterEscape bindDn) (ldapFilterEscape identifier) [] template

/-- A template as it is read from left to right. -/
inductive Segment where
  | text (c : Char)
  | dn
  | user

def segments : List Char → List Segment
  | '{' :: 'd' :: 'n' :: '}' :: rest => .dn :: segments rest
  | '{' :: 'u' :: 's' :: 'e' :: 'r' :: '}' :: rest => .user :: segments rest
  | c :: rest => .text c :: segments rest
  | [] => []

def Segment.value (dn user : List Char) : Segment → List Char
  | text c => [c]
  | .dn => dn
  | .user => user

theorem segments_source (template : List Char) :
    (segments template).flatMap (Segment.value "{dn}".toList "{user}".toList) = template := by
  fun_induction segments template with
  | case1 rest ih => rw [List.flatMap_cons, ih]; rfl
  | case2 rest ih => rw [List.flatMap_cons, ih]; rfl
  | case3 c rest _ _ ih => rw [List.flatMap_cons, ih]; rfl
  | case4 => rfl

theorem segments_text {c : Char} {rest : List Char} (hdn : (c :: rest).dropPrefix? "{dn}".toList = none)
    (huser : (c :: rest).dropPrefix? "{user}".toList = none) :
    segments (c :: rest) = .text c :: segments rest := by
  rw [segments]
  · rintro rest rfl rfl
    simp [List.dropPrefix?] at hdn
  · rintro rest rfl rfl
    simp [List.dropPrefix?] at huser

theorem segments_append {front : List Char} (h : ∀ c ∈ front, (c != '{') = true) (rest : List Char) :
    segments (front ++ rest) = front.map .text ++ segments rest := by
  induction front with
  | nil => rfl
  | cons c front ih =>
    obtain ⟨hc, hfront⟩ := List.forall_mem_cons.mp h
    rw [List.cons_append, segments, ih hfront, List.map_cons, List.cons_append]
    · rintro rest rfl
      cases hc
    · rintro rest rfl
      cases hc

/-- The loop is the substitution. -/
theorem expandFrom_eq (dn user out rest : List Char) :
    expandFrom dn user out rest = out ++ (segments rest).flatMap (Segment.value dn user) := by
  have hfront (rest : List Char) : (segments rest).flatMap (Segment.value dn user) =
      rest.takeWhile (· != '{') ++
        (segments (rest.dropWhile (· != '{'))).flatMap (Segment.value dn user) := by
    have hplain : ∀ c ∈ rest.takeWhile (· != '{'), (c != '{') = true := by
      intro c hc
      exact List.mem_takeWhile_imp (p := (· != '{')) hc
    conv_lhs => rw [← List.takeWhile_append_dropWhile (p := (· != '{')) (l := rest),
      segments_append hplain, List.flatMap_append]
    rw [List.flatMap_map]
    congr 1
    exact List.flatMap_singleton' _
  fun_induction expandFrom dn user out rest with
  | case1 out rest out' htail => rw [hfront rest, htail, segments, List.flatMap_nil, List.append_nil]
  | case2 out rest out' brace after htail t hdn ih =>
    rw [ih, hfront rest, htail, eq_of_dropPrefix hdn]
    simp only [out', List.append_assoc]
    rfl
  | case3 out rest out' brace after htail hdn t huser ih =>
    rw [ih, hfront rest, htail, eq_of_dropPrefix huser]
    simp only [out', List.append_assoc]
    rfl
  | case4 out rest out' brace after htail hdn huser ih =>
    rw [ih, hfront rest, htail, segments_text hdn huser]
    have hbrace : brace = '{' := by
      have hhead := List.head?_dropWhile_not (· != '{') rest
      rw [htail] at hhead
      simpa using hhead
    simp only [out', List.append_assoc, hbrace]
    rfl

def isControl (c : Char) : Bool := c.toNat ≤ 0x1F || (0x7F ≤ c.toNat && c.toNat ≤ 0x9F)

def dnQuoted : List Char := ['"', '+', ',', ';', '<', '>', '\\']

def dnEscapeChar (len i : Nat) (ch : Char) : List Char :=
  if ch = Char.ofNat 0 then ['\\', '0', '0']
  else if ch ∈ dnQuoted then ['\\', ch]
  else if ch = '#' ∧ i = 0 then ['\\', '#']
  else if ch = ' ' ∧ (i = 0 ∨ i + 1 = len) then ['\\', ' ']
  else if isControl ch then (String.utf8EncodeChar ch).flatMap hexEscape
  else [ch]

def ldapDnEscape (input : List Char) : List Char :=
  input.zipIdx.flatMap fun (ch, i) => dnEscapeChar input.length i ch

/-- What may stand after a backslash besides two digits. -/
def dnSpecial : List Char := ' ' :: '#' :: '=' :: dnQuoted

def dnTokens (len i : Nat) (ch : Char) : List Token :=
  if ch ∈ dnQuoted then [.pair ch]
  else if ch = '#' ∧ i = 0 then [.pair ch]
  else if ch = ' ' ∧ (i = 0 ∨ i + 1 = len) then [.pair ch]
  else if isControl ch then (String.utf8EncodeChar ch).map .hex
  else [.plain ch]

theorem dnEscapeChar_eq (len i : Nat) (ch : Char) :
    dnEscapeChar len i ch = (dnTokens len i ch).flatMap Token.text := by
  unfold dnEscapeChar
  split
  · next hnul =>
    rw [hnul]
    rfl
  · unfold dnTokens
    split_ifs with hquoted hhash hspace hcontrol
    · rfl
    · rw [hhash.1]
      rfl
    · rw [hspace.1]
      rfl
    · rw [List.flatMap_map]
      rfl
    · rfl

theorem dnTokens_spec (len i : Nat) (ch : Char) :
    (dnTokens len i ch).flatMap Token.bytes = String.utf8EncodeChar ch ∧ dnTokens len i ch ≠ [] ∧
      (∀ token ∈ dnTokens len i ch, token.Valid dnSpecial) ∧
      ∀ c, .plain c ∈ dnTokens len i ch → c ∉ dnQuoted ∧ isControl c = false ∧
        (i = 0 → c ≠ '#' ∧ c ≠ ' ') ∧ (i + 1 = len → c ≠ ' ') := by
  have hpair : ch ∈ dnSpecial → ([Token.pair ch].flatMap Token.bytes = String.utf8EncodeChar ch ∧
      [Token.pair ch] ≠ [] ∧ (∀ token ∈ [Token.pair ch], token.Valid dnSpecial) ∧
      ∀ c, .plain c ∈ [Token.pair ch] → c ∉ dnQuoted ∧ isControl c = false ∧
        (i = 0 → c ≠ '#' ∧ c ≠ ' ') ∧ (i + 1 = len → c ≠ ' ')) := by
    intro hspecial
    refine ⟨List.append_nil _, List.cons_ne_nil _ _, ?_, fun c hc => ?_⟩
    · exact fun token htoken => List.mem_singleton.mp htoken ▸ hspecial
    · cases List.mem_singleton.mp hc
  unfold dnTokens
  split_ifs with hquoted hhash hspace hcontrol
  · exact hpair (List.mem_append_right [' ', '#', '='] hquoted)
  · exact hpair (hhash.1 ▸ by decide)
  · exact hpair (hspace.1 ▸ by decide)
  · refine ⟨?_, ?_, ?_, fun c hc => ?_⟩
    · rw [List.flatMap_map]
      exact List.flatMap_singleton' _
    · exact List.map_eq_nil_iff.not.mpr (List.ne_nil_of_length_pos
        (by rw [String.length_utf8EncodeChar]; exact ch.utf8Size_pos))
    · intro token htoken
      obtain ⟨byte, -, rfl⟩ := List.mem_map.mp htoken
      trivial
    · obtain ⟨byte, -, hbyte⟩ := List.mem_map.mp hc
      cases hbyte
  · refine ⟨List.append_nil _, List.cons_ne_nil _ _, ?_, fun c hc => ?_⟩
    · intro token htoken
      rw [List.mem_singleton.mp htoken]
      exact fun heq => hquoted (heq ▸ by decide)
    · obtain rfl := Token.plain.inj (List.mem_singleton.mp hc)
      exact ⟨hquoted, Bool.eq_false_iff.mpr hcontrol,
        fun hi => ⟨fun heq => hhash ⟨heq, hi⟩, fun heq => hspace ⟨heq, .inl hi⟩⟩,
        fun hi heq => hspace ⟨heq, .inr hi⟩⟩

/-- No special or control character stands plain, nor a hash sign or space at the start or a space at
the end. -/
structure DnSafe (tokens : List Token) : Prop where
  plain : ∀ c, .plain c ∈ tokens → c ∉ dnQuoted ∧ isControl c = false
  head : ∀ c, tokens.head? = some (.plain c) → c ≠ '#' ∧ c ≠ ' '
  last : ∀ c, tokens.getLast? = some (.plain c) → c ≠ ' '

def dnTokensOf (input : List Char) : List Token :=
  input.zipIdx.flatMap fun (ch, i) => dnTokens input.length i ch

theorem dnSafe_dnTokensOf (input : List Char) : DnSafe (dnTokensOf input) := by
  refine ⟨fun c hc => ?_, fun c hc => ?_, fun c hc => ?_⟩
  · obtain ⟨item, -, hitem⟩ := List.mem_flatMap.mp hc
    obtain ⟨hquoted, hcontrol, -⟩ := (dnTokens_spec _ _ _).2.2.2 c hitem
    exact ⟨hquoted, hcontrol⟩
  · cases input with
    | nil => cases hc
    | cons ch input =>
      obtain ⟨-, hne, -, hplain⟩ := dnTokens_spec (ch :: input).length 0 ch
      rw [dnTokensOf, List.zipIdx_cons, List.flatMap_cons, List.head?_append_of_ne_nil _ hne] at hc
      exact (hplain c (List.mem_of_head? hc)).2.2.1 rfl
  · induction input using List.reverseRecOn with
    | nil => cases hc
    | append_singleton input ch =>
      obtain ⟨-, hne, -, hplain⟩ := dnTokens_spec (input ++ [ch]).length (0 + input.length) ch
      rw [dnTokensOf, List.zipIdx_append, List.flatMap_append, List.zipIdx_singleton,
        List.flatMap_singleton, List.getLast?_append_of_ne_nil _ hne] at hc
      refine (hplain c (List.mem_of_getLast? hc)).2.2.2 ?_
      rw [List.length_append, List.length_singleton, Nat.zero_add]

theorem readTokens_ldapDnEscape (input : List Char) :
    readTokens dnSpecial (ldapDnEscape input) = some (dnTokensOf input) := by
  have htext : ldapDnEscape input = (dnTokensOf input).flatMap Token.text := by
    rw [ldapDnEscape, dnTokensOf, List.flatMap_assoc]
    exact List.flatMap_congr fun item _ => dnEscapeChar_eq _ _ _
  rw [htext]
  refine readTokens_text (List.all_iff_forall_prop.mp (by decide +kernel)) fun token htoken => ?_
  obtain ⟨item, -, hitem⟩ := List.mem_flatMap.mp htoken
  exact (dnTokens_spec _ _ _).2.2.1 token hitem

theorem bytes_dnTokensOf (input : List Char) :
    (dnTokensOf input).flatMap Token.bytes = utf8 input := by
  rw [dnTokensOf, List.flatMap_assoc, List.flatMap_congr fun item _ => (dnTokens_spec _ _ item.1).1, utf8]
  conv_rhs => rw [← List.zipIdx_map_fst 0 input, List.flatMap_map]

/-- Nothing can be injected into a template: values are put in once and only where the template says, and
both escapes read back as the value. -/
theorem no_template_injection (template bindDn identifier : List Char) :
    (expandGroupFilter template bindDn identifier = (segments template).flatMap
        (Segment.value (ldapFilterEscape bindDn) (ldapFilterEscape identifier)) ∧
      (segments template).flatMap (Segment.value "{dn}".toList "{user}".toList) = template) ∧
    (∀ value, (∀ c ∈ ldapFilterEscape value, ' ' ≤ c ∧ c ≤ '~' ∧ c ∉ ['(', ')', '*']) ∧
      decode [] (ldapFilterEscape value) = some (utf8 value)) ∧
    ∃ tokens, readTokens dnSpecial (ldapDnEscape identifier) = some tokens ∧
      tokens.flatMap Token.bytes = utf8 identifier ∧ DnSafe tokens :=
  ⟨⟨expandFrom_eq _ _ [] template, segments_source template⟩,
    fun value => ⟨fun _ => ldapFilterEscape_safe, decode_ldapFilterEscape value⟩,
    dnTokensOf identifier, readTokens_ldapDnEscape identifier, bytes_dnTokensOf identifier,
    dnSafe_dnTokensOf identifier⟩

end Ldap

end Axess
