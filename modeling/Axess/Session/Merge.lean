import Axess.Session.Data

/-!
# Three-way merge

A session that two requests wrote at once is merged field by field: what this request changed
against the row it loaded (`base`) is kept from its own copy (`mine`), the rest comes from the
row as stored now (`fresh`) (`session/data/merge.rs`). The custom bag is merged key by key;
`lookup_mergeBags` says what the merged bag holds under each key.
-/

namespace Axess

variable {V T : Type}

def pick [BEq T] (base mine fresh : T) : T := if mine != base then mine else fresh

section Bags

variable [BEq V]

def mergeKey (base mine : Bag V) (merged : Bag V) (key : String) : Bag V :=
  if base.lookup key == mine.lookup key then merged
  else match mine.lookup key with
    | some value => merged.insert key value
    | none => merged.erase key

/-- `keepAdditions` says whether keys only the stored row holds survive. -/
def mergeBags (base mine fresh : Bag V) (keepAdditions : Bool) : Bag V :=
  let merged :=
    if keepAdditions then fresh
    else (mine.keys.filterMap fun key =>
      (fresh.lookup key).map fun value => (⟨key, value⟩ : Σ _ : String, V)).toAList
  (base.keys ++ mine.keys).foldl (mergeKey base mine) merged

def mergeCustom (base mine fresh : Custom V) (keepAdditions : Bool) : Custom V :=
  if !(base.isObject || mine.isObject || fresh.isObject) then pick base mine fresh
  else .object (mergeBags base.bag mine.bag fresh.bag keepAdditions)

def merge (base mine fresh : SessionData V) (keepAdditions : Bool) : SessionData V where
  version := pick base.version mine.version fresh.version
  authState := pick base.authState mine.authState fresh.authState
  fingerprint := pick base.fingerprint mine.fingerprint fresh.fingerprint
  deviceId := pick base.deviceId mine.deviceId fresh.deviceId
  custom := mergeCustom base.custom mine.custom fresh.custom keepAdditions
  revision := fresh.revision
  touchedAt := fresh.touchedAt

def mergeConcurrent (base mine fresh : SessionData V) : SessionData V :=
  merge base mine fresh true

/-- The merge of an id rotation: additions survive only while the authentication state did
not change. -/
def mergeRotating (base mine fresh : SessionData V) : SessionData V :=
  merge base mine fresh (mine.authState == base.authState)

theorem lookup_mergeKey (base mine merged : Bag V) (key k : String) :
    (mergeKey base mine merged key).lookup k =
      if k = key ∧ (base.lookup k == mine.lookup k) = false then mine.lookup k
      else merged.lookup k := by
  unfold mergeKey
  by_cases hk : k = key
  · subst hk
    cases heq : base.lookup k == mine.lookup k with
    | true => simp
    | false =>
      cases hm : mine.lookup k with
      | none => simp [AList.lookup_erase]
      | some value => simp [AList.lookup_insert]
  · simp only [hk, false_and, if_false]
    split
    · rfl
    · split
      · exact AList.lookup_insert_ne hk
      · exact AList.lookup_erase_ne hk

theorem lookup_foldl_mergeKey (base mine : Bag V) (keys : List String) (merged : Bag V)
    (k : String) :
    (keys.foldl (mergeKey base mine) merged).lookup k =
      if k ∈ keys ∧ (base.lookup k == mine.lookup k) = false then mine.lookup k
      else merged.lookup k := by
  induction keys generalizing merged with
  | nil => simp
  | cons key keys ih =>
    rw [List.foldl_cons, ih, lookup_mergeKey]
    by_cases hdiff : (base.lookup k == mine.lookup k) = false <;>
      by_cases hk : k = key <;> by_cases hmem : k ∈ keys <;> simp [hdiff, hk, hmem]

omit [BEq V] in
theorem dlookup_filterMap_lookup (fresh : Bag V) (keys : List String) (k : String) :
    ((keys.filterMap fun key =>
      (fresh.lookup key).map fun value => (⟨key, value⟩ : Σ _ : String, V)).dlookup k) =
      if k ∈ keys then fresh.lookup k else none := by
  induction keys with
  | nil => simp
  | cons key keys ih =>
    by_cases hk : k = key
    · subst hk
      cases hf : fresh.lookup k with
      | none => simp [hf, ih]
      | some value => simp [hf]
    · have hskip (v : V) (l : List (Σ _ : String, V)) :
          (⟨key, v⟩ :: l).dlookup k = l.dlookup k := List.dlookup_cons_ne l ⟨key, v⟩ hk
      cases hf : fresh.lookup key with
      | none => simp [hf, hk, ih]
      | some value => simp [hf, hk, hskip, ih]

/-- A key this request changed holds its value (or stays removed); any other key holds what
the stored row holds, and without `keepAdditions` only if this request knows the key. -/
theorem lookup_mergeBags (base mine fresh : Bag V) (keepAdditions : Bool) (k : String) :
    (mergeBags base mine fresh keepAdditions).lookup k =
      if (base.lookup k == mine.lookup k) = false then mine.lookup k
      else if keepAdditions || (mine.lookup k).isSome then fresh.lookup k else none := by
  unfold mergeBags
  rw [lookup_foldl_mergeKey]
  by_cases hmem : k ∈ base.keys ++ mine.keys
  · simp only [hmem, true_and]
    split
    · rfl
    · cases keepAdditions with
      | true => simp
      | false => simp [AList.lookup_to_alist, dlookup_filterMap_lookup, AList.lookup_isSome,
          AList.mem_keys]
  · have hb : base.lookup k = none := by
      rw [AList.lookup_eq_none, AList.mem_keys]
      exact fun h => hmem (List.mem_append_left _ h)
    have hm : mine.lookup k = none := by
      rw [AList.lookup_eq_none, AList.mem_keys]
      exact fun h => hmem (List.mem_append_right _ h)
    have hkey : k ∉ mine.keys := fun h => hmem (List.mem_append_right _ h)
    cases keepAdditions with
    | true => simp [hmem, hb, hm]
    | false => simp [hmem, hb, hm, AList.lookup_to_alist, dlookup_filterMap_lookup, hkey]

omit [BEq V] in
theorem get_of_not_object {c : Custom V} (h : c.isObject = false) (k : String) :
    c.get k = none := by
  cases c <;> first | rfl | simp [Custom.isObject, Custom.asObject] at h

theorem get_mergeCustom (base mine fresh : Custom V) (keepAdditions : Bool) (k : String) :
    (mergeCustom base mine fresh keepAdditions).get k =
      if (base.get k == mine.get k) = false then mine.get k
      else if keepAdditions || (mine.get k).isSome then fresh.get k else none := by
  unfold mergeCustom
  split
  next hnone =>
    simp only [Bool.not_eq_true', Bool.or_eq_false_iff] at hnone
    obtain ⟨⟨hb, hm⟩, hf⟩ := hnone
    have hpick : (pick base mine fresh).get k = none := by
      unfold pick
      split <;> [exact get_of_not_object hm k; exact get_of_not_object hf k]
    simp [hpick, get_of_not_object hb, get_of_not_object hm, get_of_not_object hf]
  next => exact lookup_mergeBags base.bag mine.bag fresh.bag keepAdditions k

theorem pick_of_changed [BEq T] {base mine fresh : T} (h : (mine != base) = true) :
    pick base mine fresh = mine := if_pos h

theorem mergeCustom_of_object {base mine fresh : Custom V} (keepAdditions : Bool)
    (h : base.isObject || mine.isObject || fresh.isObject) :
    (mergeCustom base mine fresh keepAdditions).isObject = true := by
  unfold mergeCustom
  rw [h]
  rfl

theorem beq_of_get {a b : Custom V} (ha : a.isObject = true) (hb : b.isObject = true)
    (h : ∀ k, (a.get k == b.get k) = true) : (a == b) = true := by
  cases a <;> cases b <;> first
    | exact List.all_eq_true.mpr fun k _ => h k
    | simp [Custom.isObject, Custom.asObject] at ha hb

theorem mergeCustom_of_changed {base mine : Custom V} (fresh : Custom V) (keepAdditions : Bool)
    (hmine : mine.isObject = false) (hchanged : (mine != base) = true) :
    mergeCustom base mine fresh keepAdditions = mine ↔
      base.isObject = false ∧ fresh.isObject = false := by
  constructor
  · intro hkept
    by_contra hobject
    have hmerged : (mergeCustom base mine fresh keepAdditions).isObject = true := by
      apply mergeCustom_of_object
      cases hbase : base.isObject <;> cases hfresh : fresh.isObject <;> simp_all
    rw [hkept, hmine] at hmerged
    cases hmerged
  · rintro ⟨hbase, hfresh⟩
    unfold mergeCustom
    simp only [hbase, hmine, hfresh, Bool.or_self, Bool.not_false, if_true]
    exact pick_of_changed hchanged

variable [EquivBEq V]

theorem get_mergeCustom_alone (base mine : Custom V) (keepAdditions : Bool) (k : String) :
    ((mergeCustom base mine base keepAdditions).get k == mine.get k) = true := by
  rw [get_mergeCustom]
  by_cases hdiff : (base.get k == mine.get k) = false
  · rw [if_pos hdiff]
    exact BEq.rfl
  · rw [if_neg hdiff]
    rw [Bool.not_eq_false] at hdiff
    split
    · exact hdiff
    · next hgone =>
      cases hmine : mine.get k with
      | none => rfl
      | some value => simp [hmine] at hgone

theorem beq_symm_of_not_object {a b : Custom V} (ha : a.isObject = false)
    (h : (a == b) = true) : (b == a) = true := by
  cases a <;> cases b <;> first
    | exact BEq.symm (α := V) h
    | exact h
    | simp [Custom.isObject, Custom.asObject] at ha

theorem mergeCustom_alone {base mine : Custom V} (keepAdditions : Bool)
    (h : mine.isObject = true ∨ base.isObject = false) :
    (mergeCustom base mine base keepAdditions == mine) = true := by
  by_cases hmine : mine.isObject = true
  · exact beq_of_get (mergeCustom_of_object keepAdditions (by simp [hmine])) hmine
      (get_mergeCustom_alone base mine keepAdditions)
  · rw [Bool.not_eq_true] at hmine
    have hbase := h.resolve_left (by simp [hmine])
    unfold mergeCustom pick
    simp only [hbase, hmine, Bool.or_self, Bool.not_false, if_true]
    split
    · exact BEq.rfl
    · next hsame => exact beq_symm_of_not_object hmine (by simpa [bne] using hsame)

/-- Every change of this request to a field or a key is kept; the revision and the stamp are the
stored row's. A value that is not an object counts as an empty bag beside one that is. -/
theorem merge_keeps_own_changes (base mine fresh merged : SessionData V)
    (hmerged : merged = mergeConcurrent base mine fresh ∨ merged = mergeRotating base mine fresh) :
    ((mine.version != base.version) = true → merged.version = mine.version) ∧
    ((mine.authState != base.authState) = true → merged.authState = mine.authState) ∧
    ((mine.fingerprint != base.fingerprint) = true → merged.fingerprint = mine.fingerprint) ∧
    ((mine.deviceId != base.deviceId) = true → merged.deviceId = mine.deviceId) ∧
    (merged.revision = fresh.revision ∧ merged.touchedAt = fresh.touchedAt) ∧
    (∀ k, (base.custom.get k == mine.custom.get k) = false →
      merged.custom.get k = mine.custom.get k) ∧
    (base = fresh → mine.custom.isObject = true ∨ base.custom.isObject = false →
      (merged.custom == mine.custom) = true) ∧
    (mine.custom.isObject = false → (mine.custom != base.custom) = true →
      (merged.custom = mine.custom ↔
        base.custom.isObject = false ∧ fresh.custom.isObject = false)) ∧
    (mine.custom.isObject = false → base.custom.isObject = true ∨ fresh.custom.isObject = true →
      merged.custom.isObject = true ∧
        ∀ k, (base.custom.get k).isSome = true → merged.custom.get k = none) := by
  obtain ⟨keepAdditions, hmerge⟩ : ∃ keepAdditions, merged = merge base mine fresh keepAdditions :=
    hmerged.elim (⟨_, ·⟩) (⟨_, ·⟩)
  subst hmerge
  refine ⟨pick_of_changed, pick_of_changed, pick_of_changed, pick_of_changed, ⟨rfl, rfl⟩,
    ?_, ?_, ?_, ?_⟩
  · intro k hdiff
    exact (get_mergeCustom ..).trans (if_pos hdiff)
  · intro hfresh hobject
    subst hfresh
    exact mergeCustom_alone keepAdditions hobject
  · intro hmine hchanged
    exact mergeCustom_of_changed _ keepAdditions hmine hchanged
  · intro hmine hobject
    refine ⟨mergeCustom_of_object _ (by rcases hobject with h | h <;> simp [h]), fun k hk => ?_⟩
    obtain ⟨value, hvalue⟩ := Option.isSome_iff_exists.mp hk
    refine (get_mergeCustom ..).trans ?_
    rw [hvalue, get_of_not_object hmine k]
    rfl

end Bags

def holding (custom : Custom Nat) : SessionData Nat :=
  { (SessionData.default : SessionData Nat) with custom := custom }

theorem merge_keeps_own_changes_of_object :
    (holding (.object ∅)).custom.isObject = true ∧
    ((mergeConcurrent (holding .null) (holding (.object ∅)) (holding .null)).custom ==
      (holding (.object ∅)).custom) = true := by
  have hkept := merge_keeps_own_changes (holding .null) (holding (.object ∅)) (holding .null) _
    (.inl rfl)
  exact ⟨rfl, hkept.2.2.2.2.2.2.1 rfl (.inl rfl)⟩

/-- Cleared to `null`, the bag comes back as an object, though nobody else has written. -/
theorem cleared_bag_is_an_object_again :
    (mergeConcurrent (holding (.object ∅)) (holding .null) (holding (.object ∅))).custom.isObject ∧
    (mergeRotating (holding (.object ∅)) (holding .null) (holding (.object ∅))).custom.isObject ∧
    (holding .null).custom.isObject = false ∧
    ((holding .null).custom != (holding (.object ∅)).custom) = true :=
  ⟨rfl, rfl, rfl, rfl⟩

end Axess
