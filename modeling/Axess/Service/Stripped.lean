import Axess.Service.Replay

/-!
# Taking parts off a signature header

A signing puts two tags into the header, one for the newest scheme and one for a route that still
reads the scheme before. The memory is keyed by the tag a request was judged by. While the older
scheme is read, the same signing can be judged by either.
-/

namespace Axess

open Calls

def Plain (c : Char) : Prop := c ≠ ',' ∧ c.isWhitespace = false

instance (c : Char) : Decidable (Plain c) := inferInstanceAs (Decidable (_ ∧ _))

theorem plain_hexDigits : ∀ c ∈ hexDigits, Plain c := List.all_iff_forall_prop.mp (by decide +kernel)

theorem plain_getD (n : Nat) : Plain (hexDigits.getD n '0') := by
  rw [List.getD_eq_getElem?_getD]
  cases h : hexDigits[n]? with
  | none => exact plain_hexDigits '0' (by decide +kernel)
  | some c => exact plain_hexDigits c (List.mem_of_getElem? h)

theorem plain_encodeHex (tag : Tag) : ∀ c ∈ encodeHex tag, Plain c := by
  intro c hc
  obtain ⟨byte, -, hc⟩ := List.mem_flatMap.mp hc
  rcases List.mem_cons.mp hc with rfl | hc
  · exact plain_getD _
  · rw [List.mem_singleton.mp hc]
    exact plain_getD _

theorem plain_natDigits (n : Nat) : ∀ c ∈ natDigits n, Plain c := by
  intro c hc
  unfold natDigits at hc
  split at hc
  · rw [List.mem_singleton.mp hc]
    decide
  · rw [List.mem_reverse] at hc
    obtain ⟨d, -, rfl⟩ := List.mem_map.mp hc
    exact plain_getD d

theorem plain_intDigits (n : Int) : ∀ c ∈ intDigits n, Plain c := by
  intro c hc
  unfold intDigits at hc
  split at hc
  · rcases List.mem_cons.mp hc with rfl | hc
    · decide
    · exact plain_natDigits _ c hc
  · exact plain_natDigits _ c hc

theorem trim_plain {text : List Char} (h : ∀ c ∈ text, Plain c) : trim text = text := by
  have hleft : text.dropWhile Char.isWhitespace = text := by
    rw [List.dropWhile_eq_self_iff]
    intro hpos hblank
    rw [(h _ (List.getElem_mem hpos)).2] at hblank
    cases hblank
  unfold trim
  rw [hleft, List.rdropWhile_eq_self_iff]
  intro hne hblank
  rw [(h _ (List.getLast_mem hne)).2] at hblank
  cases hblank

namespace ServiceMac

variable (mac : ServiceMac) (key : Tag) (audience : String) (unixSeconds : Int)
  (req : SignedRequest)

theorem plain_signedParts {part : List Char}
    (hpart : part ∈ mac.signedParts key audience unixSeconds req) : ∀ c ∈ part, Plain c := by
  have hkey (k : List Char) (hk : ∀ c ∈ k, Plain c) (value : List Char)
      (hvalue : ∀ c ∈ value, Plain c) : ∀ c ∈ k ++ value, Plain c := by
    intro c hc
    exact (List.mem_append.mp hc).elim (hk c) (hvalue c)
  simp only [signedParts, List.mem_cons, List.not_mem_nil, or_false] at hpart
  rcases hpart with rfl | rfl | rfl
  · exact hkey ['t', '='] (List.all_iff_forall_prop.mp (by decide)) _ (plain_intDigits _)
  · exact hkey ['v', '2', '='] (List.all_iff_forall_prop.mp (by decide)) _ (plain_encodeHex _)
  · exact hkey ['v', '3', '='] (List.all_iff_forall_prop.mp (by decide)) _ (plain_encodeHex _)

theorem splitOn_parts {parts : List (List Char)} (hne : parts ≠ [])
    (hparts : parts ⊆ mac.signedParts key audience unixSeconds req) :
    ([','].intercalate parts).splitOn ',' = parts := by
  refine List.splitOn_intercalate ',' (fun part hpart hcomma => ?_) hne
  exact (mac.plain_signedParts key audience unixSeconds req (hparts hpart) _ hcomma).1 rfl

/-- What has been read of the parts of one signing. -/
structure FromSigning (read : Option Int × Tags) : Prop where
  stamp : ∀ stamp, read.1 = some stamp → parseI64 (intDigits unixSeconds) = some stamp
  v1 : read.2.v1 = none
  v2 : ∀ tag, read.2.v2 = some tag →
    decodeHex (encodeHex (mac.signBytesV2 key unixSeconds req audience)) = some tag
  v3 : ∀ tag, read.2.v3 = some tag →
    decodeHex (encodeHex (mac.signBytesV3 key unixSeconds req audience)) = some tag

variable {mac key audience unixSeconds req}

theorem FromSigning.part {read read' : Option Int × Tags}
    (h : FromSigning mac key audience unixSeconds req read) {part : List Char}
    (hpart : part ∈ mac.signedParts key audience unixSeconds req)
    (hread : parsePair read part = some read') :
    FromSigning mac key audience unixSeconds req read' := by
  unfold parsePair at hread
  rw [trim_plain (mac.plain_signedParts key audience unixSeconds req hpart)] at hread
  simp only [signedParts, List.mem_cons, List.not_mem_nil, or_false] at hpart
  rcases hpart with rfl | rfl | rfl
  · have hread : (parseI64 (intDigits unixSeconds)).map (fun stamp => (some stamp, read.2)) =
        some read' := hread
    obtain ⟨stamp, hstamp, rfl⟩ := Option.map_eq_some_iff.mp hread
    exact ⟨fun _ heq => Option.some.inj heq ▸ hstamp, h.v1, h.v2, h.v3⟩
  · have hread : (decodeHex (encodeHex (mac.signBytesV2 key unixSeconds req audience))).map
        (fun tag => (read.1, { read.2 with v2 := some tag })) = some read' := hread
    obtain ⟨tag, htag, rfl⟩ := Option.map_eq_some_iff.mp hread
    exact ⟨h.stamp, h.v1, fun _ heq => Option.some.inj heq ▸ htag, h.v3⟩
  · have hread : (decodeHex (encodeHex (mac.signBytesV3 key unixSeconds req audience))).map
        (fun tag => (read.1, { read.2 with v3 := some tag })) = some read' := hread
    obtain ⟨tag, htag, rfl⟩ := Option.map_eq_some_iff.mp hread
    exact ⟨h.stamp, h.v1, h.v2, fun _ heq => Option.some.inj heq ▸ htag⟩

theorem FromSigning.parts {parts : List (List Char)}
    (hparts : parts ⊆ mac.signedParts key audience unixSeconds req)
    {read read' : Option Int × Tags} (h : FromSigning mac key audience unixSeconds req read)
    (hread : parts.foldlM parsePair read = some read') :
    FromSigning mac key audience unixSeconds req read' := by
  induction parts generalizing read with
  | nil =>
    cases hread
    exact h
  | cons part parts ih =>
    rw [List.foldlM_cons] at hread
    obtain ⟨next, hnext, hrest⟩ := Option.bind_eq_some_iff.mp hread
    obtain ⟨hpart, hparts⟩ := List.cons_subset.mp hparts
    exact ih hparts (h.part hpart hnext) hrest

theorem fromSigning_parseHeader {parts : List (List Char)}
    (hparts : parts ⊆ mac.signedParts key audience unixSeconds req) {stamp : Int} {tags : Tags}
    (hread : parseHeader ([','].intercalate parts) = some (stamp, tags)) :
    FromSigning mac key audience unixSeconds req (some stamp, tags) := by
  have hne : parts ≠ [] := by
    rintro rfl
    cases hread
  unfold parseHeader at hread
  rw [mac.splitOn_parts key audience unixSeconds req hne hparts] at hread
  obtain ⟨⟨stamp', tags'⟩, hfold, hmap⟩ := Option.bind_eq_some_iff.mp hread
  obtain ⟨stamp'', rfl, heq⟩ := Option.map_eq_some_iff.mp hmap
  cases heq
  have hstart : FromSigning mac key audience unixSeconds req (none, ⟨none, none, none⟩) :=
    ⟨nofun, rfl, nofun, nofun⟩
  exact hstart.parts hparts hfold

/-- The header has some of the parts that one signing made, in any order. -/
def Signed (mac : ServiceMac) (key : Tag) (audience : String) (unixSeconds : Int)
    (req presented : SignedRequest) : Prop :=
  ∃ parts ⊆ mac.signedParts key audience unixSeconds req,
    presented.signature.bind HeaderValue.toStr = some ([','].intercalate parts)

end ServiceMac

namespace SignedRequests

variable {config : SignedRequests} {mac : ServiceMac} {key : Tag} {audience : String}
  {unixSeconds : Int} {req presented : SignedRequest} {secrets : List ServiceSecret}
  {instant : Instant} {stamp : Int} {tag : Scheme}

/-- A sound presentation is judged by the newest tag of the signing if it carries that, and else by
the one before, while that is read. -/
theorem Sound.judgedBy (hsigned : mac.Signed key audience unixSeconds req presented)
    (h : config.Sound mac secrets presented instant stamp tag) :
    parseI64 (intDigits unixSeconds) = some stamp ∧
      (presented.v3.isSome = true ∧
          decodeHex (encodeHex (mac.signBytesV3 key unixSeconds req audience)) = some tag.bytes ∨
        presented.v3 = none ∧ isOpen instant config.v2Until = true ∧
          decodeHex (encodeHex (mac.signBytesV2 key unixSeconds req audience)) =
            some tag.bytes) := by
  obtain ⟨parts, hparts, htext⟩ := hsigned
  obtain ⟨tags, hheader, hscheme⟩ := h.header
  have hv3 : presented.v3 = tags.v3 := by
    rw [SignedRequest.v3, hheader]
    rfl
  rw [htext] at hheader
  have hfrom := ServiceMac.fromSigning_parseHeader hparts hheader
  refine ⟨hfrom.stamp stamp rfl, ?_⟩
  rw [hv3]
  unfold scheme at hscheme
  cases haudience : config.audience with
  | none =>
    -- only the oldest scheme is read, and no signing carries it
    rw [haudience, hfrom.v1] at hscheme
    simp at hscheme
  | some _ =>
    rw [haudience, hfrom.v1] at hscheme
    cases h3 : tags.v3 with
    | some v3 =>
      rw [h3] at hscheme
      obtain rfl : Scheme.v3 v3 = tag := Option.some.inj hscheme
      exact .inl ⟨rfl, hfrom.v3 v3 h3⟩
    | none =>
      rw [h3] at hscheme
      cases hopen : isOpen instant config.v2Until with
      | false =>
        rw [hopen] at hscheme
        simp at hscheme
      | true =>
        rw [hopen] at hscheme
        cases h2 : tags.v2 with
        | none =>
          rw [h2] at hscheme
          simp at hscheme
        | some v2 =>
          rw [h2] at hscheme
          obtain rfl : Scheme.v2 v2 = tag := Option.some.inj hscheme
          exact .inr ⟨rfl, rfl, hfrom.v2 v2 h2⟩

end SignedRequests

/-- A signing is accepted once, unless it is presented with the newest tag and, while the scheme
before is read, without it. -/
theorem signing_accepted_once {ι : Type} [DecidableEq ι] {config : SignedRequests}
    {mac : ServiceMac} {secrets : ι → List ServiceSecret} {req : ι → SignedRequest} {key : Tag}
    {audience : String} {unixSeconds : Int} {signed : SignedRequest}
    {pool : Pool ι VerifierCall VerifierCall.Answer (Except Rejection String) (VerifierRun ι)}
    (hrun : Pool.Reaches (Verifying.sem config)
      ⟨fun i => config.check mac (secrets i) (req i), Verifying.start⟩ pool)
    (hcarries : ∀ i j instant, mac.Signed key audience unixSeconds signed (req i) →
      mac.Signed key audience unixSeconds signed (req j) → (j, instant) ∈ pool.state.reads →
      (req i).v3.isSome = true → (req j).v3 = none →
      SignedRequests.isOpen instant config.v2Until = false)
    {i j : ι} (hi : mac.Signed key audience unixSeconds signed (req i))
    (hj : mac.Signed key audience unixSeconds signed (req j)) {name name' : String}
    (hacceptedi : pool.prog i = .ret (.ok name)) (hacceptedj : pool.prog j = .ret (.ok name')) :
    i = j := by
  obtain ⟨t, stamp, tag, hsound, hread, d, hd, rfl, hdtag, hdstamp, hok⟩ :=
    Verifying.decided_of_accepted hrun hacceptedi
  obtain ⟨t', stamp', tag', hsound', hread', d', hd', rfl, hdtag', hdstamp', hok'⟩ :=
    Verifying.decided_of_accepted hrun hacceptedj
  obtain ⟨hstamp, hcase⟩ := hsound.judgedBy hi
  obtain ⟨hstamp', hcase'⟩ := hsound'.judgedBy hj
  have hsame : stamp = stamp' := Option.some.inj (hstamp.symm.trans hstamp')
  have hbytes : tag.bytes = tag'.bytes := by
    rcases hcase with ⟨hsome, htag⟩ | ⟨hnone, hopen, htag⟩ <;>
      rcases hcase' with ⟨hsome', htag'⟩ | ⟨hnone', hopen', htag'⟩
    · exact Option.some.inj (htag.symm.trans htag')
    · have hclosed := hcarries _ _ t' hi hj ((hread' t').mpr rfl) hsome hnone'
      rw [hclosed] at hopen'
      cases hopen'
    · have hclosed := hcarries _ _ t hj hi ((hread t).mpr rfl) hsome' hnone
      rw [hclosed] at hopen
      cases hopen
    · exact Option.some.inj (htag.symm.trans htag')
  exact Verifying.accepted_once hrun hd hd' hok hok' (hdtag.trans (hbytes.trans hdtag'.symm))
    (hdstamp.trans (hsame.trans hdstamp'.symm))

namespace StrippedHeader

def mac : ServiceMac :=
  ⟨fun _ lines _ => Vector.replicate 32 (if lines.head? = some "v3" then 3 else 2), id⟩

def secret : ServiceSecret := ⟨"billing", Vector.replicate 32 1⟩

def config : SignedRequests := ⟨300, 1024, 4, some "ledger", none, some 2000000000000⟩

def unsigned : SignedRequest := ⟨"POST", "/post", [], [], none, [], none⟩

def parts : List (List Char) := mac.signedParts secret.signingKey "ledger" 1000 unsigned

def presented (parts : List (List Char)) : SignedRequest :=
  { unsigned with
    signature := some (([','].intercalate parts).map fun c => UInt8.ofNat c.toNat) }

def stripped (i : Fin 2) : SignedRequest := presented (if i.val = 0 then parts else parts.take 2)

def reversed (i : Fin 2) : SignedRequest := presented (if i.val = 0 then parts else parts.reverse)

def run (req : Fin 2 → SignedRequest) : Pool (Fin 2) VerifierCall VerifierCall.Answer
    (Except Rejection String) (VerifierRun (Fin 2)) :=
  Pool.replay (Verifying.answering config) (Pool.turns [(3, 0, 1000000000000), (3, 1, 1000000000000)])
    ⟨fun i => config.check mac [secret] (req i), Verifying.start⟩

theorem reaches_run (req : Fin 2 → SignedRequest) : Pool.Reaches (Verifying.sem config)
    ⟨fun i => config.check mac [secret] (req i), Verifying.start⟩ (run req) :=
  Pool.reaches_replay (Verifying.sem_answering config) _ _

theorem signed_stripped (i : Fin 2) :
    mac.Signed secret.signingKey "ledger" 1000 unsigned (stripped i) := by
  refine ⟨if i.val = 0 then parts else parts.take 2, ?_, ?_⟩
  · split
    · exact List.Subset.refl _
    · exact List.take_subset 2 parts
  · revert i
    decide +kernel

theorem signed_reversed (i : Fin 2) :
    mac.Signed secret.signingKey "ledger" 1000 unsigned (reversed i) := by
  refine ⟨if i.val = 0 then parts else parts.reverse, ?_, ?_⟩
  · split
    · exact List.Subset.refl _
    · exact List.reverse_subset.mpr (List.Subset.refl _)
  · revert i
    decide +kernel

theorem v3_reversed (i : Fin 2) : (reversed i).v3.isSome = true := by
  revert i
  decide +kernel

end StrippedHeader

open StrippedHeader

/-- One signing is accepted with its newest tag, and again without it while the scheme before is
read. -/
theorem stripped_signing_accepted_again :
    config.audience = some "ledger" ∧
    (∀ i, mac.Signed secret.signingKey "ledger" 1000
        unsigned (stripped i) ∧
      { stripped i with signature := none } = unsigned) ∧
    ∃ pool, Pool.Reaches (Verifying.sem config)
        ⟨fun i => config.check mac [secret]
          (stripped i), Verifying.start⟩ pool ∧
      pool.prog 0 = .ret (.ok "billing") ∧ pool.prog 1 = .ret (.ok "billing") :=
  ⟨rfl, fun i => ⟨signed_stripped i, rfl⟩,
    run stripped, reaches_run _,
    Prog.eq_ret_of_returned (by decide +kernel), Prog.eq_ret_of_returned (by decide +kernel)⟩

theorem signing_accepted_once_reversed :
    (run reversed).prog 0 = .ret (.ok "billing") ∧
    ∀ i name, (run reversed).prog i = .ret (.ok name) → i = 0 := by
  have haccepted : (run reversed).prog 0 = .ret (.ok "billing") :=
    Prog.eq_ret_of_returned (by decide +kernel)
  refine ⟨haccepted, fun i name hi => ?_⟩
  refine signing_accepted_once (reaches_run reversed) ?_
    (signed_reversed i) (signed_reversed 0) hi haccepted
  intro _ j _ _ _ _ _ hnone
  have hsome := v3_reversed j
  rw [hnone] at hsome
  cases hsome

end Axess
