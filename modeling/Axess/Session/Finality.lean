import Axess.Session.Cas
import Axess.Session.Created

/-!
# Ending a session in the store is final

A request has loaded the session stored under an id, and while it runs somebody deletes the row.
Whatever the request goes on to do, and whatever other requests write meanwhile, it does not bring
the session back: no row under the id it loaded or under an id it minted, and no cookie for an id
that a row backs (`delete_is_final`).

The store calls are spelled out in their steps on rows, so that the delete can land inside a
conditional write or a rotation as well as between two store calls.
-/

namespace Axess

open Calls

variable {V ι : Type}

namespace Finality

inductive Member (ι : Type) where
  | request
  /-- Whoever ends the session by deleting its row. -/
  | ender
  | other (j : ι)
  deriving DecidableEq

structure State (V : Type) where
  world : World V
  ended : Bool
  late : Bool

abbrev State.rows (s : State V) : Rows V := s.world.rows

variable [DecidableEq ι]

/-- A step of a member. The row under `i` ends when a step of another party takes it away. -/
def sem (i : SessionId) (m : Member ι) : Sem (StepCall V) StepCall.Answer (State V) :=
  fun e s a s' =>
    World.AllowsStep e s.world a s'.world ∧
      s'.ended = (s.ended || (m != .request && (s.rows i).isSome && (s'.rows i).isNone)) ∧
      s'.late = (s.late || (s.ended && m == .request && e.isWrite))

structure Party (V : Type) where
  layer : SessionLayer
  req : Request
  ops : List (Op V)

def Party.prog [BEq V] [JsonSize V] (party : Party V) : Steps V (Option SessionId × Option SessionId) :=
  byRows (respond party.layer party.req party.ops)

def enderProg (i : SessionId) : Steps V (Option SessionId × Option SessionId) :=
  byRows do
    let _ ← Store.delete i
    pure (none, none)

def prog [BEq V] [JsonSize V] (i : SessionId) (party : Party V) (others : ι → Party V) :
    Member ι → Steps V (Option SessionId × Option SessionId)
  | .request => party.prog
  | .ender => enderProg i
  | .other j => (others j).prog

/-- The generators give the request ids that nobody else gets and that nothing is stored under. -/
structure Fresh (i : SessionId) (req : Request) (others : ι → Party V) (rows : Rows V) : Prop where
  unused : ∀ id ∈ req.ids, rows id = none
  apart : i ∉ req.ids
  others_apart : ∀ j, ∀ id ∈ (others j).req.ids, id ≠ i ∧ id ∉ req.ids

section Others

variable (i : SessionId) (ids : Set SessionId)

/-- The others bring back neither the row nor one of the request's rows, and the row ends when
they take it away. -/
def Interferes (s s' : State V) : Prop :=
  (∀ id, id = i ∨ id ∈ ids → s.rows id = none → s'.rows id = none) ∧
    s'.ended = (s.ended || ((s.rows i).isSome && (s'.rows i).isNone)) ∧ s'.late = s.late

def guar : Member ι → State V → State V → Prop
  | .request => fun _ _ => True
  | _ => Interferes i ids

omit [DecidableEq ι] in
theorem rely_interferes {s s' : State V}
    (h : Pool.others (guar (ι := ι) i ids) .request s s') : Interferes i ids s s' := by
  obtain ⟨m, hm, hG⟩ := h
  cases m with
  | request => exact absurd rfl hm
  | ender => exact hG
  | other j => exact hG

end Others

variable {i : SessionId}

theorem interferes_of_sem {ids : Set SessionId} {m : Member ι} (hm : m ≠ .request) {e : StepCall V}
    {s s' : State V} {a : e.Answer} (hcreates : ∀ id, e.creates = some id → id ≠ i ∧ id ∉ ids)
    (h : sem i m e s a s') : Interferes i ids s s' := by
  obtain ⟨hworld, hended, hlate⟩ := h
  have hne : (m == .request) = false := beq_eq_false_iff_ne.mpr hm
  refine ⟨fun id hid hnone => ?_, ?_, ?_⟩
  · refine hworld.none_of_none hnone fun hid' => ?_
    obtain ⟨hi, hids⟩ := hcreates id hid'
    exact hid.elim hi hids
  · rw [hended, bne, hne]
    rfl
  · rw [hlate, hne, Bool.and_false, Bool.false_and, Bool.or_false]

section Steps

variable {ids : Set SessionId}

def CreatesIn (ids : Set SessionId) (e : StepCall V) : Prop := ∀ id, e.creates = some id → id ∈ ids

theorem createsIn_of_none {e : StepCall V} (h : e.creates = none) : CreatesIn ids e := by
  intro id hid
  rw [h] at hid
  cases hid

theorem casByRevision_creates (id : SessionId) (expected : UInt64) (data : SessionData V)
    (ttl : Duration) : (casByRevision id expected data ttl).Only (CreatesIn ids) := by
  have hwrite (seen : SessionData V) : (casWrite id seen data ttl).Only (CreatesIn ids) := by
    unfold casWrite
    split
    · refine ⟨createsIn_of_none rfl, fun answer => ?_⟩
      rcases answer with e | _ | _ | _ <;> trivial
    · exact ⟨createsIn_of_none rfl, fun _ => trivial⟩
  unfold casByRevision
  induction casAttempts with
  | zero => trivial
  | succ attempts ih =>
    refine ⟨createsIn_of_none rfl, fun answer => ?_⟩
    rcases answer with e | _ | seen
    · trivial
    · trivial
    · show Prog.Only _ (if seen.revision ≠ expected then _ else _)
      split
      · trivial
      · refine (hwrite seen).bind fun written => ?_
        rcases written with e | _ | _ | _
        · trivial
        · trivial
        · exact ih
        · trivial

theorem cycleByRevision_creates {oldId newId : SessionId} (hnew : newId ∈ ids)
    (data : SessionData V) (ttl : Duration) (requireOld : Bool) (expected : UInt64) :
    (cycleByRevision oldId newId data ttl requireOld expected).Only (CreatesIn ids) := by
  have hcreates {e : StepCall V} (h : e.creates = some newId) : CreatesIn ids e := by
    intro id hid
    cases h.symm.trans hid
    exact hnew
  have hsave : (saveRotated newId data ttl).Only (CreatesIn ids) := by
    refine ⟨hcreates rfl, fun answer => ?_⟩
    cases answer <;> trivial
  have hgone : (cycleGone oldId newId data ttl requireOld).Only (CreatesIn ids) := by
    unfold cycleGone
    split
    · trivial
    · split
      · refine ⟨createsIn_of_none rfl, fun answer => ?_⟩
        cases answer
        · trivial
        · exact hsave
      · exact hsave
  have hattempt (seen : SessionData V) {again : Steps V (Except StoreError CycleOutcome)}
      (hagain : again.Only (CreatesIn ids)) :
      (cycleAttempt oldId newId data ttl requireOld seen again).Only (CreatesIn ids) := by
    unfold cycleAttempt
    split
    · refine ⟨createsIn_of_none rfl, fun answer => ?_⟩
      rcases answer with e | _ | _ | _
      · trivial
      · trivial
      · exact hagain
      · exact hgone
    · refine ⟨createsIn_of_none rfl, fun answer => ?_⟩
      rcases answer with e | _ | _ | _
      · trivial
      · exact hsave
      · exact hagain
      · exact hgone
  unfold cycleByRevision
  split
  · refine ⟨createsIn_of_none rfl, fun answer => ?_⟩
    rcases answer with e | _ | seen
    · trivial
    · exact ⟨hcreates rfl, fun _ => trivial⟩
    · show Prog.Only _ (if seen.revision ≠ expected then _ else _)
      split
      · trivial
      · exact ⟨hcreates rfl, fun _ => trivial⟩
  · induction casAttempts with
    | zero => trivial
    | succ attempts ih =>
      refine ⟨createsIn_of_none rfl, fun answer => ?_⟩
      rcases answer with e | _ | seen
      · trivial
      · exact hgone
      · show Prog.Only _ (if seen.revision ≠ expected then _ else _)
        split
        · trivial
        · exact hattempt seen ih

theorem implement_creates (e : Call V) (h : e.CreatesIn ids) :
    (implement e).Only (CreatesIn ids) := by
  cases e with
  | registry c => exact ⟨createsIn_of_none rfl, fun _ => trivial⟩
  | identity c => exact ⟨createsIn_of_none rfl, fun _ => trivial⟩
  | deliver key value => exact ⟨createsIn_of_none rfl, fun _ => trivial⟩
  | store c =>
    cases c with
    | load id => exact ⟨createsIn_of_none rfl, fun _ => trivial⟩
    | delete id => exact ⟨createsIn_of_none rfl, fun _ => trivial⟩
    | save id data ttl => exact ⟨h, fun _ => trivial⟩
    | cycle oldId newId data ttl requireOld => exact ⟨h, fun _ => trivial⟩
    | updateIfRevision id expected data ttl => exact casByRevision_creates ..
    | cycleIfRevision oldId newId data ttl requireOld expected =>
      exact cycleByRevision_creates (h newId rfl) ..

end Steps

theorem other_safe [BEq V] [JsonSize V] {req : Request} {others : ι → Party V} {rows : Rows V}
    (hfresh : Fresh i req others rows) (j : ι) (s : State V) :
    (others j).prog.Safe (sem i (.other j)) (Pool.others (guar i req.ids) (.other j))
      (Interferes i req.ids) (fun _ _ => True) s := by
  have hcreates : (others j).prog.Only (CreatesIn (others j).req.ids) :=
    Prog.Within.expand implement
      (respond_creates (others j).layer (others j).req (others j).ops)
      fun e he => implement_creates e he
  refine Prog.Only.safe hcreates (fun e s a s' he hX => ?_) s
  exact interferes_of_sem (by simp) (fun id hid => hfresh.others_apart j id (he id hid)) hX

theorem ender_safe (i : SessionId) (ids : Set SessionId) (s : State V) :
    (enderProg i).Safe (sem (ι := ι) i .ender) (Pool.others (guar (ι := ι) i ids) .ender)
      (Interferes i ids) (fun _ _ => True) s := by
  have honly : (enderProg i : Steps V _).Only fun e => e.creates = none :=
    ⟨rfl, fun _ => trivial⟩
  refine Prog.Only.safe honly (fun e s a s' he hX => ?_) s
  refine interferes_of_sem (by simp) (fun id hid => ?_) hX
  rw [he] at hid
  cases hid

section Request

variable {i : SessionId} {ids : Set SessionId}

structure Quiet (i : SessionId) (ids : Set SessionId) (s : State V) : Prop where
  nothing : ∀ id ∈ ids, s.rows id = none
  gone : s.ended = true → s.rows i = none
  ended : s.late = true → s.ended = true

structure Removed (i : SessionId) (s : State V) : Prop where
  gone : s.rows i = none
  ended : s.ended = false
  late : s.late = false

def Early (s : State V) : Prop := s.late = false

abbrev rely (ι : Type) (i : SessionId) (ids : Set SessionId) : State V → State V → Prop :=
  Pool.others (guar (ι := ι) i ids) .request

omit [DecidableEq ι] in
theorem stable_quiet : Stable (rely ι i ids) (Quiet (V := V) i ids) := by
  intro s s' h hrely
  obtain ⟨hnone, hended, hlate⟩ := rely_interferes i ids hrely
  refine ⟨fun id hid => hnone id (.inr hid) (h.nothing id hid), fun he => ?_, fun hl => ?_⟩
  · rw [hended, Bool.or_eq_true] at he
    rcases he with he | he
    · exact hnone i (.inl rfl) (h.gone he)
    · exact Option.isNone_iff_eq_none.mp (Bool.and_eq_true_iff.mp he).2
  · rw [hlate] at hl
    rw [hended, h.ended hl, Bool.true_or]

omit [DecidableEq ι] in
theorem stable_removed : Stable (rely ι i ids) (Removed (V := V) i) := by
  intro s s' h hrely
  obtain ⟨hnone, hended, hlate⟩ := rely_interferes i ids hrely
  refine ⟨hnone i (.inl rfl) h.gone, ?_, hlate.trans h.late⟩
  rw [hended, h.ended, h.gone]
  rfl

omit [DecidableEq ι] in
theorem stable_early : Stable (rely ι i ids) (Early (V := V)) := by
  intro s s' h hrely
  exact (rely_interferes i ids hrely).2.2.trans h

variable {e : StepCall V} {s s' : State V} {a : e.Answer}

theorem Quiet.step (h : Quiet i ids s) (hX : sem (ι := ι) i .request e s a s')
    (hcreates : e.creates = none) : Quiet i ids s' := by
  obtain ⟨hworld, hended, hlate⟩ := hX
  have hsame : s'.ended = s.ended := by
    rw [hended]
    simp
  have hkeep {id : SessionId} (hid : s.rows id = none) : s'.rows id = none :=
    hworld.none_of_none hid (by rw [hcreates]; simp)
  refine ⟨fun id hid => hkeep (h.nothing id hid), fun he => ?_, fun hl => ?_⟩
  · rw [hsame] at he
    exact hkeep (h.gone he)
  · rw [hlate, Bool.or_eq_true] at hl
    rw [hsame]
    rcases hl with hl | hl
    · exact h.ended hl
    · simp only [Bool.and_eq_true] at hl
      exact hl.1.1

theorem Quiet.early (h : Quiet i ids s) (hX : sem (ι := ι) i .request e s a s')
    (hrow : (s.rows i).isSome = true) : s'.ended = false ∧ Early s' := by
  have hended : s.ended = false := by
    cases he : s.ended with
    | false => rfl
    | true =>
      rw [h.gone he] at hrow
      cases hrow
  have hlate : s.late = false := by
    cases hl : s.late with
    | false => rfl
    | true => exact absurd (h.ended hl) (by rw [hended]; decide)
  refine ⟨?_, ?_⟩
  · rw [hX.2.1, hended]
    simp
  · show s'.late = false
    rw [hX.2.2, hlate, hended]
    rfl

abbrev ReqSafe (ι : Type) [DecidableEq ι] {α : Type} (i : SessionId) (ids : Set SessionId)
    (Q : α → State V → Prop) (p : Steps V α) (s : State V) : Prop :=
  p.Safe (sem (ι := ι) i .request) (rely ι i ids) (guar (ι := ι) i ids .request) Q s

variable {α : Type}

theorem Quiet.ret {r : α} {Q : α → State V → Prop} (h : Quiet i ids s)
    (hQ : ∀ s, Quiet i ids s → Q r s) : ReqSafe ι i ids Q (pure r) s :=
  Prog.Safe.ret _ stable_quiet h hQ

theorem quiet_safe {Q : α → Prop} {p : Steps V α} (hp : p.Within (fun e => e.creates = none) Q)
    {s : State V} (h : Quiet i ids s) : ReqSafe ι i ids (fun a s => Q a ∧ Quiet i ids s) p s := by
  induction p generalizing s with
  | ret a => exact h.ret fun s hs => ⟨hp, hs⟩
  | call e k ih =>
    refine Prog.Safe.call (Quiet i ids) stable_quiet h fun s a s' hs hX => ?_
    exact ⟨trivial, ih a (hp.2 a) (hs.step hX hp.1)⟩

theorem quiet_byRows {Q : α → Prop} {p : Async V α} (hp : p.Within Call.CreatesNone Q) {s : State V}
    (h : Quiet i ids s) : ReqSafe ι i ids (fun a s => Q a ∧ Quiet i ids s) (byRows p) s := by
  refine quiet_safe (Prog.Within.expand implement hp fun e he => ?_) h
  have hnothing : (implement e).Only (CreatesIn ∅) := by
    refine implement_creates e fun id hid => ?_
    rw [show e.creates = none from he] at hid
    cases hid
  refine Prog.Within.mono hnothing (fun c hc => ?_) fun _ hQ => hQ
  cases hcreates : c.creates with
  | none => rfl
  | some id => exact absurd (hc id hcreates) (fun h => h)

/-- A conditional write that landed, or lost to a concurrent write, came before the end. -/
def Conditional (i : SessionId) (ids : Set SessionId)
    (a : Except StoreError ConditionalUpdate) (s : State V) : Prop :=
  Quiet i ids s ∧ (a = .ok .written ∨ a = .ok .conflict → Early s)

omit [DecidableEq ι] in
theorem stable_quiet_early :
    Stable (rely ι i ids) fun s : State V => Quiet i ids s ∧ Early s :=
  stable_quiet.and stable_early

theorem casWrite_safe (seen data : SessionData V) (ttl : Duration) {s : State V}
    (h : Quiet i ids s) :
    ReqSafe ι i ids (fun a s => Quiet i ids s ∧ (a = .ok .done ∨ a = .ok .missed → Early s))
      (casWrite i seen data ttl) s := by
  unfold casWrite
  split
  · refine Prog.Safe.call (Quiet i ids) stable_quiet h fun s a s' hs hX => ⟨trivial, ?_⟩
    have hs' := hs.step hX rfl
    rcases a with e | _ | _ | _
    · exact hs'.ret fun s hs => ⟨hs, by simp⟩
    · exact hs'.ret fun s hs => ⟨hs, by simp⟩
    · have hearly := (hs.early hX (hX.1.deleteIf_found (by decide))).2
      exact Prog.Safe.ret _ stable_quiet_early ⟨hs', hearly⟩ fun s hs => ⟨hs.1, fun _ => hs.2⟩
    · exact hs'.ret fun s hs => ⟨hs, by simp⟩
  · refine Prog.Safe.call (Quiet i ids) stable_quiet h fun s a s' hs hX => ⟨trivial, ?_⟩
    have hs' := hs.step hX rfl
    rcases a with e | written
    · exact hs'.ret fun s hs => ⟨hs, by simp⟩
    · by_cases hgone : written = .gone
      · subst hgone
        exact hs'.ret fun s hs => ⟨hs, by simp⟩
      · have hearly := (hs.early hX (hX.1.replaceIf_found hgone)).2
        exact Prog.Safe.ret _ stable_quiet_early ⟨hs', hearly⟩ fun s hs => ⟨hs.1, fun _ => hs.2⟩

theorem casLoop_safe (expected : UInt64) (data : SessionData V) (ttl : Duration)
    (attempts : Nat) : ∀ {s : State V}, Quiet i ids s → (attempts = 0 → Early s) →
      ReqSafe ι i ids (Conditional i ids) (casLoop i expected data ttl attempts) s := by
  induction attempts with
  | zero =>
    intro s h hearly
    exact Prog.Safe.ret _ stable_quiet_early ⟨h, hearly rfl⟩ fun s hs => ⟨hs.1, fun _ => hs.2⟩
  | succ attempts ih =>
    intro s h _
    refine Prog.Safe.call (Quiet i ids) stable_quiet h fun s a s' hs hX => ⟨trivial, ?_⟩
    have hs' := hs.step hX rfl
    rcases a with e | _ | seen
    · exact hs'.ret fun s hs => ⟨hs, by simp⟩
    · exact hs'.ret fun s hs => ⟨hs, by simp⟩
    · have hearly := (hs.early hX hX.1.read_found).2
      show ReqSafe ι i ids (Conditional i ids) (if seen.revision ≠ expected then _ else _) s'
      split
      · exact Prog.Safe.ret _ stable_quiet_early ⟨hs', hearly⟩ fun s hs => ⟨hs.1, fun _ => hs.2⟩
      · refine Prog.Safe.bind (casWrite_safe seen data ttl hs') fun written t ht => ?_
        rcases written with e | _ | _ | _
        · exact ht.1.ret fun s hs => ⟨hs, by simp⟩
        · exact Prog.Safe.ret _ stable_quiet_early ⟨ht.1, ht.2 (.inl rfl)⟩
            fun s hs => ⟨hs.1, fun _ => hs.2⟩
        · exact ih ht.1 fun _ => ht.2 (.inr rfl)
        · exact ht.1.ret fun s hs => ⟨hs, by simp⟩

theorem Removed.step (h : Removed i s) (hX : sem (ι := ι) i .request e s a s')
    (hcreates : e.creates ≠ some i) : Removed i s' := by
  obtain ⟨hworld, hended, hlate⟩ := hX
  refine ⟨hworld.none_of_none h.gone hcreates, ?_, ?_⟩
  · rw [hended, h.ended]
    simp
  · rw [hlate, h.late, h.ended]
    rfl

theorem Removed.quiet (h : Removed i s) (hnothing : ∀ id ∈ ids, s.rows id = none) :
    Quiet i ids s where
  nothing := hnothing
  gone _ := h.gone
  ended hl := absurd hl (by rw [h.late]; decide)

theorem removed_byRows {p : Async V α} (hp : p.Only Call.CreatesNone) {s : State V}
    (h : Removed i s) : ReqSafe ι i ids (fun _ s => Removed i s) (byRows p) s := by
  have hsteps : (byRows p).Only (CreatesIn (∅ : Set SessionId)) := by
    refine Prog.Within.expand implement hp fun e he => implement_creates e fun id hid => ?_
    rw [show e.creates = none from he] at hid
    cases hid
  generalize byRows p = q at hsteps
  induction q generalizing s with
  | ret a => exact Prog.Safe.ret (Removed i) stable_removed h fun s hs => hs
  | call e k ih =>
    refine Prog.Safe.call (Removed i) stable_removed h fun s a s' hs hX => ?_
    exact ⟨trivial, ih a (hs.step hX fun hid => hsteps.1 i hid) (hsteps.2 a)⟩

def Cycling (i : SessionId) (ids : Set SessionId) (a : Except StoreError CycleOutcome)
    (s : State V) : Prop :=
  (a = .ok .rotated ∧ Removed i s) ∨ (a ≠ .ok .rotated ∧ Quiet i ids s)

theorem ret_quiet {a : Except StoreError CycleOutcome} (ha : a ≠ .ok .rotated) {s : State V}
    (h : Quiet i ids s) : ReqSafe ι i ids (Cycling i ids) (pure a) s :=
  h.ret fun _ hs => .inr ⟨ha, hs⟩

variable {newId : SessionId}

theorem saveRotated_safe (hne : newId ≠ i) (data : SessionData V) (ttl : Duration) {s : State V}
    (h : Quiet i ids s ∧ Removed i s) :
    ReqSafe ι i ids (Cycling i ids) (saveRotated newId data ttl) s := by
  refine Prog.Safe.call _ (stable_quiet.and stable_removed) h fun s a s' hs hX => ⟨trivial, ?_⟩
  have hremoved : Removed i s' := hs.2.step hX fun hid => hne (Option.some.inj hid)
  cases a with
  | ok _ => exact Prog.Safe.ret (Removed i) stable_removed hremoved fun _ hs => .inl ⟨rfl, hs⟩
  | error e =>
    have hrows : s'.rows = s.rows := by
      rcases hX.1 with ⟨-, hrows⟩ | ⟨same, hok, -⟩
      · exact hrows
      · cases hok
    refine ret_quiet (by simp) (hremoved.quiet fun id hid => ?_)
    rw [hrows]
    exact hs.1.nothing id hid

theorem cycleSteps_safe (hne : newId ≠ i) (data : SessionData V) (ttl : Duration)
    (expected : UInt64) (attempts : Nat) : ∀ {s : State V}, Quiet i ids s →
      ReqSafe ι i ids (Cycling i ids) (cycleSteps i newId data ttl true expected attempts) s := by
  induction attempts with
  | zero => exact fun h => ret_quiet (by simp) h
  | succ attempts ih =>
    intro s h
    refine Prog.Safe.call (Quiet i ids) stable_quiet h fun s a s' hs hX => ⟨trivial, ?_⟩
    have hs' := hs.step hX rfl
    rcases a with e | _ | seen
    · exact ret_quiet (by simp) hs'
    · exact ret_quiet (by simp) hs'
    · show ReqSafe ι i ids (Cycling i ids) (if seen.revision ≠ expected then _ else _) s'
      split
      · exact ret_quiet (by simp) hs'
      · unfold cycleAttempt
        rw [if_neg hne.symm]
        refine Prog.Safe.call (Quiet i ids) stable_quiet hs' fun t a t' ht hX => ⟨trivial, ?_⟩
        have ht' := ht.step hX rfl
        rcases a with e | _ | _ | _
        · exact ret_quiet (by simp) ht'
        · -- the request took the row away, so nobody else has or will
          obtain ⟨hended, hlate⟩ := ht.early hX (hX.1.deleteIf_found (by decide))
          have hgone : t'.rows i = none := by
            rw [show t'.rows = _ from hX.1.deleteIf_done]
            exact Rows.drop_self ..
          exact saveRotated_safe hne data ttl ⟨ht', hgone, hended, hlate⟩
        · exact ih ht'
        · exact ret_quiet (by simp) ht'

theorem rowCycle_safe (hne : newId ≠ i) (data : SessionData V) {ttl : Duration} (httl : ttl ≠ 0)
    {s : State V} (h : Quiet i ids s) :
    ReqSafe ι i ids (Cycling i ids) (Row.cycle i newId data ttl true) s := by
  refine Prog.Safe.call (Quiet i ids) stable_quiet h fun s a s' hs hX => ⟨trivial, ?_⟩
  have hsame (hrows : s'.rows = s.rows) : Quiet i ids s' := by
    refine ⟨fun id hid => ?_, fun he => ?_, fun hl => ?_⟩
    · rw [hrows]
      exact hs.nothing id hid
    · rw [hX.2.1] at he
      rw [hrows]
      exact hs.gone (by simpa using he)
    · rw [hX.2.2] at hl
      rw [hX.2.1]
      rcases Bool.or_eq_true_iff.mp hl with hl | hl
      · simp [hs.ended hl]
      · simp only [Bool.and_eq_true] at hl
        simp [hl.1.1]
  rcases hX.1 with ⟨rfl, hrows⟩ | ⟨same, rfl, hrows⟩
  · exact ret_quiet (by simp) (hsame hrows)
  · have hcycle := Rows.cycle_of_ttl httl s.rows i newId data true
    cases hrow : s.rows i with
    | none =>
      rw [hrow] at hcycle
      have hanswer : (Rows.performStep same (.cycle i newId data ttl true) s.rows) =
          (.sessionGone, s.rows) := hcycle
      rw [hanswer] at hrows ⊢
      exact ret_quiet (by simp) (hsame hrows)
    | some row =>
      rw [hrow] at hcycle
      have hanswer : (Rows.performStep same (.cycle i newId data ttl true) s.rows) =
          (.rotated, (s.rows.drop i).put newId data) := hcycle
      rw [hanswer] at hrows ⊢
      obtain ⟨hended, hlate⟩ := hs.early hX (by rw [hrow]; rfl)
      have hgone : s'.rows i = none := by
        rw [show s'.rows = _ from hrows]
        show (s.rows.drop i).put newId data i = none
        rw [Rows.put_of_ne _ _ hne.symm, Rows.drop_self]
      exact Prog.Safe.ret (Removed i) stable_removed ⟨hgone, hended, hlate⟩
        fun _ hs => .inl ⟨rfl, hs⟩

theorem cycleAt_safe (config : SessionConfig) (hne : newId ≠ i) (data : SessionData V)
    (merged : Except StoreError (Option UInt64)) {s : State V} (h : Quiet i ids s) :
    ReqSafe ι i ids (Cycling i ids) (byRows (cycleAt config true i newId data merged)) s := by
  have httl : config.ttl ≠ 0 := Nat.ne_of_gt config.ttl_pos
  rcases merged with e | _ | revision
  · exact ret_quiet (by simp) h
  · unfold cycleAt Store.cycle
    rw [byRows_await]
    exact rowCycle_safe hne data httl h
  · unfold cycleAt Store.cycleIfRevision
    rw [byRows_await]
    show ReqSafe ι i ids _ (cycleByRevision i newId data config.ttl true revision) s
    unfold cycleByRevision
    rw [if_neg httl]
    exact cycleSteps_safe hne data config.ttl revision casAttempts h

/-! ## The request -/

variable [BEq V] [JsonSize V]

theorem swapLoop_safe {τ : Type} {swap : Swap V} (hrow : swap.row = i)
    (prepare : SessionData V → Option (SessionData V × τ)) (attempts : Nat) :
    ∀ (expected : UInt64) (next : SessionData V) (taken : τ) {s : State V}, Quiet i ids s →
      ReqSafe ι i ids
        (fun a s => Quiet i ids s ∧ ((∃ data taken, a = .ok (.written data taken)) → Early s))
        (byRows (swapLoop swap prepare attempts expected next taken)) s := by
  induction attempts with
  | zero =>
    intro expected next taken s h
    exact h.ret fun s hs => ⟨hs, by simp⟩
  | succ attempts ih =>
    intro expected next taken s h
    have hquiet {a : Except StoreError (Swapped V τ)} {s : State V}
        (ha : ¬∃ data taken, a = .ok (.written data taken)) (hs : Quiet i ids s) :
        ReqSafe ι i ids
          (fun a s => Quiet i ids s ∧ ((∃ data taken, a = .ok (.written data taken)) → Early s))
          (byRows (pure a)) s :=
      hs.ret fun s hs => ⟨hs, fun h => absurd h ha⟩
    unfold swapLoop
    simp only [byRows_bind]
    rw [hrow, Store.updateIfRevision, byRows_await]
    refine Prog.Safe.bind (casLoop_safe expected _ swap.ttl casAttempts h
      (fun hzero => absurd hzero (by decide))) fun a s ha => ?_
    rcases a with e | _ | _ | _
    · exact hquiet (by simp) ha.1
    · exact Prog.Safe.ret _ stable_quiet_early ⟨ha.1, ha.2 (.inl rfl)⟩
        fun s hs => ⟨hs.1, fun _ => hs.2⟩
    · cases swap.base with
      | none => exact hquiet (by simp) ha.1
      | some base =>
        refine Prog.Safe.call (Quiet i ids) stable_quiet ha.1 fun s a s' hs hX => ⟨trivial, ?_⟩
        have hs' := hs.step hX rfl
        rcases a with e | _ | fresh
        · exact hquiet (by simp) hs'
        · exact hquiet (by simp) hs'
        · dsimp only [Prog.bind]
          cases prepare fresh with
          | none => exact hquiet (by simp) hs'
          | some prepared => exact ih _ _ _ hs'
    · exact hquiet (by simp) ha.1

/-- The write under the loaded id: a cookie for that id is set only by a write that came before
the end. -/
theorem storeUnderId_safe (config : SessionConfig) {t : SessionInner V} (hid : t.id = i)
    (touchDue : Bool) (loadedRevision : UInt64) {s : State V} (h : Quiet i ids s) :
    ReqSafe ι i ids
      (fun r s => Quiet i ids s ∧
        ((storedOutcome touchDue r.2 r.1).1.sessionChanged = true → Early s))
      (byRows (storeUnderId config t touchDue loadedRevision)) s := by
  unfold storeUnderId
  split
  · rename_i htouch
    simp only [byRows_bind]
    rw [hid, Store.updateIfRevision, byRows_await]
    refine Prog.Safe.bind (casLoop_safe loadedRevision _ config.ttl casAttempts h
      (fun hzero => absurd hzero (by decide))) fun a s ha => ?_
    rcases a with e | _ | _ | _
    · exact ha.1.ret fun s hs => ⟨hs, fun hc => by cases hc⟩
    · exact Prog.Safe.ret _ stable_quiet_early ⟨ha.1, ha.2 (.inl rfl)⟩
        fun s hs => ⟨hs.1, fun _ => hs.2⟩
    · exact Prog.Safe.ret _ stable_quiet_early ⟨ha.1, ha.2 (.inr rfl)⟩
        fun s hs => ⟨hs.1, fun _ => hs.2⟩
    · exact ha.1.ret fun s hs => ⟨hs, fun hc => by cases hc⟩
  · rename_i htouch
    unfold writeChanges swapMerging
    simp only [byRows_bind]
    refine Prog.Safe.bind (swapLoop_safe hid _ _ _ _ _ h) fun a s ha => ?_
    have hsame {r : Except StoreError ConditionalUpdate × SessionInner V}
        (hr : (storedOutcome touchDue r.2 r.1).1.sessionChanged = false) :
        ReqSafe ι i ids
          (fun r s => Quiet i ids s ∧
            ((storedOutcome touchDue r.2 r.1).1.sessionChanged = true → Early s))
          (byRows (pure r)) s :=
      ha.1.ret fun s hs => ⟨hs, fun hc => by
        rw [hr] at hc
        cases hc⟩
    have hno : touchDue = false := by simpa using htouch
    rcases a with e | ⟨data, taken⟩ | _ | _ | _
    · exact hsame rfl
    · exact Prog.Safe.ret _ stable_quiet_early ⟨ha.1, ha.2 ⟨data, taken, rfl⟩⟩
        fun s hs => ⟨hs.1, fun _ => hs.2⟩
    · exact hsame rfl
    · exact hsame hno
    · exact hsame hno

theorem mergeExisting_creates_none (config : SessionConfig) (t : SessionInner V) (i : SessionId) :
    (mergeExisting config true t i).Within Call.CreatesNone fun _ => True := by
  show (mergeConcurrentWrites config t i).Only Call.CreatesNone
  unfold mergeConcurrentWrites
  cases t.base with
  | none => trivial
  | some base =>
    refine ⟨rfl, fun answer => ?_⟩
    rcases answer with e | _ | fresh
    · trivial
    · trivial
    · show Prog.Only _ (if fresh.revision != base.revision then _ else _)
      split <;> trivial

theorem cycleOnce_safe (config : SessionConfig) (hne : newId ≠ i) (t : SessionInner V)
    {s : State V} (h : Quiet i ids s) :
    ReqSafe ι i ids (fun r s => Cycling i ids r.1 s) (byRows (cycleOnce config true i newId t))
      s := by
  unfold cycleOnce
  simp only [byRows_bind]
  refine Prog.Safe.bind (quiet_byRows (mergeExisting_creates_none config t i) h)
    fun merged s hs => ?_
  refine Prog.Safe.bind (cycleAt_safe config hne merged.2.data merged.1 hs.2) fun cycled s hc => ?_
  rcases hc with ⟨rfl, hr⟩ | ⟨hne, hq⟩
  · exact Prog.Safe.ret (Removed i) stable_removed hr fun _ hs => .inl ⟨rfl, hs⟩
  · exact hq.ret fun _ hs => .inr ⟨hne, hs⟩

theorem cycleLoop_safe (config : SessionConfig) (hne : newId ≠ i) (attempts : Nat) :
    ∀ (t : SessionInner V) {s : State V}, Quiet i ids s →
      ReqSafe ι i ids (fun r s => Cycling i ids r.1 s)
        (byRows (cycleLoop config true i newId attempts t)) s := by
  induction attempts with
  | zero =>
    intro t s h
    exact h.ret fun _ hs => .inr ⟨by simp, hs⟩
  | succ attempts ih =>
    intro t s h
    unfold cycleLoop
    simp only [byRows_bind]
    refine Prog.Safe.bind (cycleOnce_safe config hne t h) fun cycled s hc => ?_
    obtain ⟨cycled, t'⟩ := cycled
    rcases hc with ⟨hrot, hr⟩ | ⟨hne, hq⟩
    · have hcycled : cycled = .ok .rotated := hrot
      subst hcycled
      exact Prog.Safe.ret (Removed i) stable_removed hr fun _ hs => .inl ⟨rfl, hs⟩
    · rcases cycled with e | _ | _ | _
      · exact hq.ret fun _ hs => .inr ⟨by simp, hs⟩
      · exact absurd rfl hne
      · exact hq.ret fun _ hs => .inr ⟨by simp, hs⟩
      · exact ih t' hq

/-- How the end of the request leaves things: the request moved the row itself, or it created
nothing, and a cookie it sets is for a new id unless it made no write after the end. -/
def Finished (i : SessionId) (ids : Set SessionId) (outcome : FinalizeOutcome) (s : State V) :
    Prop :=
  Removed i s ∨ (Quiet i ids s ∧ outcome.rotation = none ∧
    (Early s ∨ (outcome.sessionChanged = true → outcome.finalId ∈ ids)))

theorem cycleSession_safe (config : SessionConfig) {t : SessionInner V}
    (hold : t.preCycleId.getD t.id = i) (hnew : t.moved.id ∈ ids) (hne : t.moved.id ≠ i)
    {existingId : Option SessionId} (hexisting : existingId.isSome = true) {s : State V}
    (h : Quiet i ids s) :
    ReqSafe ι i ids
      (fun r s => Finished i ids ⟨r.1.id, r.1.cookie, r.1.rotation⟩ s)
      (byRows (cycleSession config t existingId)) s := by
  have hfail (u : SessionInner V) {s : State V} (h : Quiet i ids s) :
      ReqSafe ι i ids (fun r s => Finished i ids ⟨r.1.id, r.1.cookie, r.1.rotation⟩ s)
        (byRows (failClosed u i t.moved.id)) s := by
    refine Prog.Safe.call (Quiet i ids) stable_quiet h fun s a s' hs hX => ⟨trivial, ?_⟩
    exact (hs.step hX rfl).ret fun _ hs => .inr ⟨hs, rfl, .inr fun _ => hnew⟩
  unfold cycleSession
  simp only [hold, hexisting, byRows_bind]
  refine Prog.Safe.bind (cycleLoop_safe config hne cycleAttempts t.moved h) fun cycled s hc => ?_
  obtain ⟨cycled, u⟩ := cycled
  rcases hc with ⟨hrot, hr⟩ | ⟨hno, hq⟩
  · have hcycled : cycled = .ok .rotated := hrot
    subst hcycled
    exact Prog.Safe.ret (Removed i) stable_removed hr fun _ hs => .inl hs
  · rcases cycled with e | _ | _ | _
    · exact hfail u hq
    · exact absurd rfl hno
    · exact hq.ret fun _ hs => .inr ⟨hs, rfl, .inr fun hc => by cases hc⟩
    · exact hfail u hq

theorem finalizeSession_safe (config : SessionConfig) (now : Instant) {req : Request}
    {t₀ t : SessionInner V} (hloaded : Loaded req t₀ (some i)) (h : t₀.Descends t)
    (hapart : i ∉ req.ids) {s : State V} (hs : Quiet i req.ids s) :
    ReqSafe ι i req.ids (fun r s => Finished i req.ids r.1 s)
      (byRows (finalizeSession config now t (some i))) s := by
  have hstamped : t₀.Descends (t.stamped config now) := h.stays ⟨rfl, rfl, rfl, rfl⟩
  have hfirst : t₀.id = i := (hloaded.existing i rfl).1
  have hold : (t.stamped config now).preCycleId.getD (t.stamped config now).id = i :=
    hstamped.oldId.trans hfirst
  have hnew := hstamped.moved_id hloaded
  unfold finalizeSession
  simp only
  split
  · unfold persist
    split
    · simp only [byRows_bind]
      refine Prog.Safe.bind (cycleSession_safe config hold hnew
        (fun heq => hapart (heq ▸ hnew)) rfl hs) fun r s hr => ?_
      rcases hr with hr | ⟨hq, hrot, hcookie | hcookie⟩
      · exact Prog.Safe.ret (Removed i) stable_removed hr fun _ hs => .inl hs
      · exact Prog.Safe.ret _ stable_quiet_early ⟨hq, hcookie⟩
          fun _ hs => .inr ⟨hs.1, hrot, .inl hs.2⟩
      · exact Prog.Safe.ret (Quiet i req.ids) stable_quiet hq
          fun _ hs => .inr ⟨hs, hrot, .inr hcookie⟩
    · rename_i hregen
      -- the id has not rotated, so it is the loaded one
      have hid : (t.stamped config now).id = i := by
        cases hpre : (t.stamped config now).preCycleId with
        | none => exact (hstamped.unrotated hpre).trans hfirst
        | some old => exact absurd (hstamped.rotated old hpre).2.1 hregen
      rw [if_pos (Option.isSome_some (a := i))]
      simp only [byRows_bind]
      refine Prog.Safe.bind (storeUnderId_safe config hid _ _ hs) fun r s hr => ?_
      have hrot : ∀ b u w, (storedOutcome (V := V) b u w).1.rotation = none := by
        intro b u w
        rcases w with e | _ | _ | _ <;> rfl
      by_cases hearly : Early s
      · exact Prog.Safe.ret _ stable_quiet_early ⟨hr.1, hearly⟩
          fun _ hs => .inr ⟨hs.1, hrot .., .inl hs.2⟩
      · exact Prog.Safe.ret (Quiet i req.ids) stable_quiet hr.1
          fun _ hs => .inr ⟨hs, hrot .., .inr fun hc => absurd (hr.2 hc) hearly⟩
  · exact Prog.Safe.ret (Quiet i req.ids) stable_quiet hs
      fun _ hs => .inr ⟨hs, rfl, .inr fun hc => by cases hc⟩

/-- What a request that loaded the row under `i` leaves when it made a write after somebody else
had taken the row away. -/
def Final (i : SessionId) (ids : Set SessionId) (r : Option SessionId × Option SessionId)
    (s : State V) : Prop :=
  r.1 = some i → s.late = true →
    s.rows i = none ∧ (∀ id ∈ ids, s.rows id = none) ∧
      ∀ id, r.2 = some id → s.rows id = none ∧ id ≠ i

theorem finishRequest_safe (layer : SessionLayer) {req : Request} {t₀ t : SessionInner V}
    (hloaded : Loaded req t₀ (some i)) (h : t₀.Descends t) (hapart : i ∉ req.ids) {s : State V}
    (hs : Quiet i req.ids s) :
    ReqSafe ι i req.ids (fun cookie s => Final i req.ids (some i, cookie) s)
      (byRows (finishRequest layer req t (some i))) s := by
  have hvacuous {cookie : Option SessionId} {s : State V} (hearly : Early s) :
      Final i req.ids (some i, cookie) s := by
    intro _ hlate
    rw [show s.late = false from hearly] at hlate
    cases hlate
  unfold finishRequest
  simp only [byRows_bind]
  refine Prog.Safe.bind (finalizeSession_safe layer.config req.finishedAt hloaded h hapart hs)
    fun r s hr => ?_
  rcases hr with hr | ⟨hq, hrot, hcookie⟩
  · refine Prog.Safe.bind (removed_byRows (settleRegistry_creates _ _) hr) fun registered s hs => ?_
    exact Prog.Safe.ret (Removed i) stable_removed hs fun _ hs => hvacuous hs.late
  · have hsettle : (settleRegistry (layer.policy req.finishedAt) r.1 : Async V Bool) =
        pure true := by
      unfold settleRegistry
      rw [hrot]
    rw [hsettle]
    rcases hcookie with hearly | hcookie
    · exact Prog.Safe.ret _ stable_quiet_early ⟨hq, hearly⟩ fun _ hs => hvacuous hs.2
    · refine Prog.Safe.ret (Quiet i req.ids) stable_quiet hq fun s hs _ hlate => ?_
      refine ⟨hs.gone (hs.ended hlate), hs.nothing, fun id hid => ?_⟩
      -- the cookie is for an id of the request's own
      have hmem : id ∈ req.ids := by
        cases hchanged : r.1.sessionChanged with
        | false =>
          simp [hchanged] at hid
        | true =>
          simp only [hchanged, Bool.and_self, if_true, Option.some.injEq] at hid
          rw [← hid]
          exact hcookie hchanged
      exact ⟨hs.nothing id hmem, fun heq => hapart (heq ▸ hmem)⟩

theorem request_safe {party : Party V} (hapart : i ∉ party.req.ids) {s : State V}
    (hs : Quiet i party.req.ids s) :
    ReqSafe ι i party.req.ids (Final i party.req.ids) party.prog s := by
  unfold Party.prog respond
  simp only [byRows_bind]
  refine Prog.Safe.bind (quiet_byRows (beginRequest_creates party.layer party.req) hs)
    fun b s hb => ?_
  obtain ⟨t₀, existingId⟩ := b
  by_cases hexisting : existingId = some i
  · subst hexisting
    refine Prog.Safe.bind (quiet_byRows (runOps_creates party.ops (.refl hb.1.preCycleId)) hb.2)
      fun t s ht => ?_
    exact Prog.Safe.map (finishRequest_safe party.layer hb.1 ht.1 hapart ht.2)
  · -- it loaded another session, or none: nothing is claimed of it
    refine Prog.Safe.bind (Prog.Safe.of_true (fun _ _ => trivial) (fun _ _ => trivial) _ s)
      fun t s _ => ?_
    refine Prog.Safe.bind (Prog.Safe.of_true (fun _ _ => trivial) (fun _ _ => trivial) _ s)
      fun cookie s _ => ?_
    exact fun _ _ heq => absurd heq hexisting

end Request

variable [BEq V] [JsonSize V]

theorem allSafe {party : Party V} {others : ι → Party V} {w : World V}
    (hfresh : Finality.Fresh i party.req others w.rows) :
    Pool.AllSafe (sem i) (guar i party.req.ids)
      (fun m r s => m = .request → Final i party.req.ids r s)
      ⟨prog i party others, ⟨w, false, false⟩⟩ := by
  intro m
  cases m with
  | request =>
    have hquiet : Quiet i party.req.ids (⟨w, false, false⟩ : State V) :=
      ⟨hfresh.unused, fun h => absurd h (by simp), fun h => absurd h (by simp)⟩
    exact (request_safe hfresh.apart hquiet).conseq fun _ _ hfinal _ => hfinal
  | ender => exact (ender_safe i party.req.ids _).conseq fun _ _ _ h => by cases h
  | other j => exact (other_safe hfresh j _).conseq fun _ _ _ h => by cases h

/-- Whatever the cookies name, and however the steps of the store calls interleave and fail: a row
is stored under no id but those that had one and those the generators gave out. -/
theorem stored_ids_are_minted (parties : ι → Party V) (w : World V) :
    { i | ∃ s, Pool.Reaches (fun _ => World.AllowsStep) ⟨fun j => (parties j).prog, w⟩ s ∧
      (s.state.rows i).isSome } ⊆ { i | (w.rows i).isSome } ∪ ⋃ j, (parties j).req.ids := by
  rintro i ⟨s, hr, hi⟩
  by_contra hnew
  rw [Set.mem_union, Set.mem_iUnion, not_or, not_exists] at hnew
  have hw : w.rows i = none := Option.not_isSome_iff_eq_none.mp hnew.1
  have hsafe : Pool.AllSafe (fun _ => World.AllowsStep)
      (fun _ w w' => w.rows i = none → w'.rows i = none) (fun _ _ _ => True)
      ⟨fun j => (parties j).prog, w⟩ := by
    intro j
    have honly := (respond_creates (parties j).layer (parties j).req (parties j).ops).expand
      implement implement_creates
    exact Prog.Only.safe honly (fun e w a w' he hX hnone =>
      hX.none_of_none hnone fun hid => hnew.2 j (he i hid)) w
  have hnone := hr.invariant hsafe (I := fun w => w.rows i = none) (fun _ _ _ hG => hG) hw
  rw [hnone] at hi
  cases hi

end Finality

open Finality in
/-- Whatever the request does, and whatever others write meanwhile: when its session ended in the
store before its last write, the request leaves no row under the id it loaded or under one it
minted, and a cookie it sets is for an id without a row. -/
theorem delete_is_final [DecidableEq ι] [BEq V] [JsonSize V] {i : SessionId} {party : Finality.Party V}
    {others : ι → Finality.Party V} {w : World V} (hfresh : Finality.Fresh i party.req others w.rows)
    {s : Pool (Member ι) (StepCall V) StepCall.Answer (Option SessionId × Option SessionId)
      (State V)}
    (hrun : Pool.Reaches (sem i) ⟨prog i party others, ⟨w, false, false⟩⟩ s)
    {cookie : Option SessionId} (hret : s.prog .request = .ret (some i, cookie))
    (hlate : s.state.late = true) :
    s.state.rows i = none ∧ (∀ id ∈ party.req.ids, s.state.rows id = none) ∧
      ∀ id, cookie = some id → s.state.rows id = none ∧ id ≠ i :=
  hrun.post (allSafe hfresh) hret rfl rfl hlate

namespace Finality

variable [DecidableEq ι]

def answering (i : SessionId) :
    Pool.Answerer (Member ι) Unit (StepCall V) StepCall.Answer (State V) :=
  fun m _ e s =>
    let r := World.performStep (fun _ _ => true) e s.world
    (r.1, ⟨r.2, s.ended || (m != .request && (s.rows i).isSome && (r.2.rows i).isNone),
      s.late || (s.ended && m == .request && e.isWrite)⟩)

theorem sem_answering (i : SessionId) (m : Member ι) (c : Unit) (e : StepCall V) (s : State V) :
    sem i m e s (answering i m c e s).1 (answering i m c e s).2 := by
  refine ⟨?_, rfl, rfl⟩
  cases e with
  | row c => exact .inr ⟨_, rfl, rfl⟩
  | registry c => rfl
  | identity c => rfl
  | deliver key value => rfl

def loginParty : Party Nat :=
  ⟨.plain, .counting (some ⟨⟨1⟩, false⟩) 10, [.transition (.setAuthenticated ⟨7⟩ ⟨1⟩ 5 [])]⟩

def writer : Unit → Party Nat := fun _ =>
  ⟨.plain, ⟨some ⟨⟨1⟩, false⟩, none, none, fun _ => ⟨3⟩, 0, 0⟩, [.custom .clearCustom]⟩

def storedWorld : World Nat :=
  { (World.empty : World Nat) with rows := fun i => if i = ⟨1⟩ then some .default else none }

/-- The login loads the session, the other request writes it, and the row is deleted between the
first round of the rotation and the second. -/
def schedule : List (Member Unit × Unit) :=
  [.request, .other (), .other (), .other (), .request, .request, .ender, .request].map (·, ())

end Finality

open Finality in
theorem delete_is_final_login :
    let start := ⟨prog ⟨1⟩ loginParty writer, ⟨storedWorld, false, false⟩⟩
    let s := Pool.replay (answering ⟨1⟩) schedule start
    s.prog .request = .ret (some ⟨1⟩, none) ∧ s.state.rows ⟨1⟩ = none ∧
      ∀ id ∈ loginParty.req.ids, s.state.rows id = none := by
  intro start s
  have hfresh : Finality.Fresh ⟨1⟩ loginParty.req writer storedWorld.rows := by
    refine ⟨?_, ?_, ?_⟩
    · rintro id ⟨n, rfl⟩
      have hne : (⟨10 + n⟩ : SessionId) ≠ ⟨1⟩ := by
        intro h
        have huuid : 10 + n = 1 := congrArg SessionId.uuid h
        omega
      exact if_neg hne
    · rintro ⟨n, h⟩
      have huuid : 1 = 10 + n := congrArg SessionId.uuid h
      omega
    · rintro j id ⟨n, rfl⟩
      refine ⟨show (⟨3⟩ : SessionId) ≠ ⟨1⟩ by decide, ?_⟩
      rintro ⟨m, h⟩
      have huuid : 3 = 10 + m := congrArg SessionId.uuid h
      omega
  have hret : s.prog .request = .ret (some ⟨1⟩, none) := by rfl
  have hlate : s.state.late = true := by decide +kernel
  have hrun : Pool.Reaches (sem ⟨1⟩) start s := Pool.reaches_replay (sem_answering ⟨1⟩) schedule _
  have hfinal := delete_is_final hfresh hrun hret hlate
  exact ⟨hret, hfinal.1, hfinal.2.1⟩

end Axess
