import Axess.Session.Alone

/-!
# Where a request creates rows

A request creates a row only under an id its own generator gave it (`respond_creates`): what it
loaded it can only overwrite or remove, whatever other requests do meanwhile.
-/

namespace Axess

open Calls

variable {V : Type}

def Call.creates : Call V → Option SessionId
  | .store (.save id _ _) => some id
  | .store (.cycle _ newId _ _ _) => some newId
  | .store (.cycleIfRevision _ newId _ _ _ _) => some newId
  | _ => none

def Call.CreatesNone (e : Call V) : Prop := e.creates = none

/-- A call that creates rows under these ids only. -/
def Call.CreatesIn (ids : Set SessionId) (e : Call V) : Prop := ∀ id, e.creates = some id → id ∈ ids

theorem Call.createsIn_of_none {e : Call V} {ids : Set SessionId} (h : e.creates = none) :
    e.CreatesIn ids := by
  intro id hid
  rw [h] at hid
  cases hid

def Call.OnRows : Call V → Prop
  | .store _ => True
  | .deliver .. => True
  | _ => False

structure Call.Edits (e : Call V) : Prop where
  onRows : e.OnRows
  createsNone : e.CreatesNone

structure Call.CreatesAt (id : SessionId) (e : Call V) : Prop where
  onRows : e.OnRows
  createsIn : e.CreatesIn {id}

def Call.AsksRegistry (e : Call V) : Prop := ∃ c, e = .registry c

def Call.Removes : Call V → Prop
  | .registry _ => True
  | .store (.load _) => True
  | .store (.delete _) => True
  | _ => False

theorem Call.AsksRegistry.removes {e : Call V} (h : e.AsksRegistry) : e.Removes := by
  obtain ⟨c, rfl⟩ := h
  trivial

theorem Call.Removes.createsNone {e : Call V} (h : e.Removes) : e.CreatesNone := by
  cases e with
  | store c => cases c <;> first | rfl | cases h
  | registry c => rfl
  | identity c => cases h
  | deliver key value => cases h

def Request.ids (req : Request) : Set SessionId := { id | ∃ n, id = req.rng.get n }

structure SessionInner.Descends (s₀ s : SessionInner V) : Prop where
  rng : ∀ n, ∃ m, s.rng.get n = s₀.rng.get m
  unrotated : s.preCycleId = none → s.id = s₀.id
  rotated : ∀ old, s.preCycleId = some old →
    old = s₀.id ∧ s.regenerate = true ∧ ∃ m, s.id = s₀.rng.get m

namespace SessionInner.Descends

variable {s₀ s t : SessionInner V}

theorem refl (h : s₀.preCycleId = none) : s₀.Descends s₀ where
  rng n := ⟨n, rfl⟩
  unrotated _ := rfl
  rotated old hold := by rw [h] at hold; cases hold

theorem oldId (h : s₀.Descends s) : s.preCycleId.getD s.id = s₀.id := by
  cases hpre : s.preCycleId with
  | none => exact h.unrotated hpre
  | some old => exact (h.rotated old hpre).1

theorem stays (h : s₀.Descends s) (hstay : s.Stays t) : s₀.Descends t where
  rng := by rw [hstay.rng]; exact h.rng
  unrotated hnone := by
    rw [hstay.id]
    exact h.unrotated (hstay.preCycleId.symm.trans hnone)
  rotated old hold := by
    rw [hstay.id, hstay.regenerate]
    exact h.rotated old (hstay.preCycleId.symm.trans hold)

theorem rotates (h : s₀.Descends s) (hrot : s.Rotates t) : s₀.Descends t where
  rng n := by
    rw [hrot.rng]
    exact h.rng (n + 1)
  unrotated hpre := absurd (hrot.preCycleId.symm.trans hpre) (by simp)
  rotated old hold := by
    have hid := hrot.preCycleId.symm.trans hold
    rw [h.oldId] at hid
    refine ⟨(Option.some.inj hid).symm, hrot.regenerate, ?_⟩
    rw [hrot.id]
    exact h.rng 0

end SessionInner.Descends

/-- What a load hands to the handler, whatever the store answered: a new guest under the next id
of the generator, or the session of the cookie. -/
structure Loaded (req : Request) (s : SessionInner V) (existingId : Option SessionId) : Prop where
  preCycleId : s.preCycleId = none
  rng : ∀ n, ∃ m, s.rng.get n = req.rng.get m
  fresh : existingId = none → s.id = req.rng.get 0
  existing : ∀ id, existingId = some id → s.id = id ∧ ∃ c, req.cookie = some c ∧ c.id = id

theorem loaded_beginStored (layer : SessionLayer) {req : Request} {stored : StoredSession V}
    (h : ∀ id, stored.existingId = some id → ∃ c, req.cookie = some c ∧ c.id = id) :
    Loaded req (beginStored layer req stored).1 (beginStored layer req stored).2 := by
  let loaded := loadOutcome req.cookie (layer.fingerprints req) req.rng stored
  have hid : (beginStored layer req stored).1.id = loaded.1.id := by
    show (resolveDevice loaded.1 req.device).1.id = _
    unfold resolveDevice
    split
    · split <;> rfl
    · rfl
  have hloaded : loaded.1.id = loaded.1.existingId.getD (req.rng.get 0) := rfl
  refine ⟨rfl, fun n => ?_, fun hnone => ?_, fun id hsome => ?_⟩
  · show ∃ m, (if loaded.1.existingId.isSome then req.rng else req.rng.tail).get n = _
    split
    · exact ⟨n, rfl⟩
    · exact ⟨n + 1, rfl⟩
  · have hexisting : loaded.1.existingId = none := hnone
    rw [hid, hloaded, hexisting]
    rfl
  · have hexisting : loaded.1.existingId = some id := hsome
    refine ⟨by rw [hid, hloaded, hexisting]; rfl, h id ?_⟩
    have hstored : (if (checkBinding stored.data (layer.fingerprints req)).invalidated then none
        else stored.existingId) = some id := hexisting
    split at hstored
    · cases hstored
    · exact hstored

theorem authenticatedSessionVerdict_asks (data : SessionData V) (config : SessionConfig)
    (policy : LoadPolicy) (id : SessionId) :
    (authenticatedSessionVerdict data config policy id).Only Call.AsksRegistry := by
  unfold authenticatedSessionVerdict
  split
  · split
    · trivial
    · split
      · trivial
      · split
        · trivial
        · refine ⟨⟨_, rfl⟩, fun answer => ?_⟩
          cases answer
          · trivial
          · trivial
          · cases policy.unknown <;> trivial
  · trivial

theorem loadStoredSession_removes (id : SessionId) (config : SessionConfig) (policy : LoadPolicy) :
    (loadStoredSession id config policy : Async V _).Within Call.Removes
      fun stored => ∀ i, stored.existingId = some i → i = id := by
  refine ⟨trivial, fun answer => ?_⟩
  rcases answer with e | _ | row
  · intro i hi
    cases hi
  · intro i hi
    cases hi
  · refine Prog.Within.bind (p := authenticatedSessionVerdict row.migrate.1 config policy id)
      ((authenticatedSessionVerdict_asks row.migrate.1 config policy id).mono
        (fun _ he => he.removes) fun _ h => h) fun verdict _ => ?_
    cases verdict with
    | keep =>
      intro i hi
      cases hi
      rfl
    | ended =>
      refine ⟨trivial, fun _ i hi => ?_⟩
      cases hi
    | distrust =>
      intro i hi
      cases hi

theorem beginRequest_creates (layer : SessionLayer) (req : Request) :
    (beginRequest layer req : Async V _).Within Call.CreatesNone fun b => Loaded req b.1 b.2 := by
  cases hcookie : req.cookie with
  | none =>
    rw [beginRequest_of_none layer hcookie]
    exact loaded_beginStored layer fun id hid => by cases (hid : none = some id)
  | some cookie =>
    rw [beginRequest_of_cookie layer hcookie]
    refine Prog.Within.bind ((loadStoredSession_removes cookie.id layer.config
      (layer.policy req.loadedAt)).mono (fun _ he => he.createsNone) fun _ hs => hs)
      fun stored hstored => ?_
    exact loaded_beginStored layer fun id hid => ⟨cookie, hcookie, (hstored id hid).symm⟩

section

variable [BEq V] [JsonSize V]

theorem swapLoop_edits {τ : Type} (swap : Swap V)
    (prepare : SessionData V → Option (SessionData V × τ)) (attempts : Nat) :
    ∀ (expected : UInt64) (next : SessionData V) (taken : τ),
      (swapLoop swap prepare attempts expected next taken).Only Call.Edits := by
  induction attempts with
  | zero => exact fun _ _ _ => trivial
  | succ attempts ih =>
    intro expected next taken
    refine ⟨⟨trivial, rfl⟩, fun answer => ?_⟩
    rcases answer with e | _ | _ | _
    · trivial
    · trivial
    · cases swap.base with
      | none => trivial
      | some base =>
        refine ⟨⟨trivial, rfl⟩, fun answer => ?_⟩
        rcases answer with e | _ | fresh
        · trivial
        · trivial
        · dsimp only [Prog.bind]
          cases prepare fresh with
          | none => trivial
          | some taken => exact ih _ _ _
    · trivial

theorem consumeCustom_stays (s : SessionInner V) (key : String) :
    (s.consumeCustom key).Within Call.Edits fun r => s.Stays r.2 := by
  unfold SessionInner.consumeCustom
  split
  · exact .refl s
  · simp only
    split
    · split
      · exact ⟨rfl, rfl, rfl, rfl⟩
      · refine Prog.Within.bind (swapLoop_edits _ _ _ _ _ _) fun swapped _ => ?_
        rcases swapped with e | ⟨written, taken⟩ | _ | _ | _ <;> exact ⟨rfl, rfl, rfl, rfl⟩
    · exact ⟨rfl, rfl, rfl, rfl⟩

theorem takeCustom_stays (s : SessionInner V) (key : String) :
    (AuthSession.takeCustom key s).Within Call.Edits fun r => s.Stays r.2 := by
  refine Prog.Within.bind (consumeCustom_stays s key) fun r hr => ?_
  obtain ⟨taken, t⟩ := r
  cases taken with
  | none => exact hr
  | some value => exact ⟨⟨trivial, rfl⟩, fun _ => hr⟩

theorem op_moves (op : Op V) (s : SessionInner V) :
    (op.run s).Within Call.Edits fun t => s.Stays t ∨ s.Rotates t := by
  cases op with
  | transition t =>
    rcases t.apply_cases s with hrot | ⟨hkeep, -⟩
    · exact .inr hrot
    · exact .inl hkeep.stays
  | custom c => exact .inl (c.apply_keepsId s).1.stays
  | takeCustom key => exact Prog.Within.bind (takeCustom_stays s key) fun r hr => .inl hr
  | beginStepUp steps stamp => exact .inl (beginStepUp_keepsId steps stamp s).stays
  | setImpersonator admin since => exact .inl (setImpersonator_keepsId admin since s).stays
  | recordAttemptAt now => exact .inl ⟨rfl, rfl, rfl, rfl⟩
  | sessionId => exact .inl ⟨rfl, rfl, rfl, rfl⟩

theorem op_creates (op : Op V) {s₀ s : SessionInner V} (h : s₀.Descends s) :
    (op.run s).Within Call.CreatesNone s₀.Descends :=
  (op_moves op s).mono (fun _ he => he.createsNone) fun _ ht => ht.elim h.stays h.rotates

theorem runOps_creates (ops : List (Op V)) {s₀ : SessionInner V} :
    ∀ {s : SessionInner V}, s₀.Descends s →
      (runOps ops s).Within Call.CreatesNone s₀.Descends := by
  induction ops with
  | nil => exact fun h => h
  | cons op ops ih => exact fun h => (op_creates op h).bind fun _ ht => ih ht

/-! ## The end of a request -/

omit [BEq V] [JsonSize V] in
theorem moveRegistryEntry_removes (rotation : Rotation) (unknown : UnknownLiveness) :
    (moveRegistryEntry rotation unknown : Async V _).Only Call.Removes := by
  have hend (id : SessionId) : (endUntracked id : Async V _).Only Call.Removes :=
    ⟨trivial, fun _ => trivial⟩
  have huntracked (id : SessionId) : (onUntracked unknown id : Async V _).Only Call.Removes := by
    unfold onUntracked
    cases unknown
    · trivial
    · exact hend id
  have hrevoked : (endRevokedRotation rotation : Async V _).Only Call.Removes :=
    ⟨trivial, fun _ => hend rotation.newId⟩
  have hreread : (rereadOldId rotation unknown : Async V _).Only Call.Removes := by
    refine ⟨trivial, fun answer => ?_⟩
    cases answer
    · trivial
    · exact hrevoked.bind fun _ => trivial
    · cases unknown
      · trivial
      · exact hrevoked.bind fun _ => trivial
  have hregister : (registerRotated rotation unknown : Async V _).Only Call.Removes := by
    refine ⟨trivial, fun registered => ?_⟩
    cases registered
    · exact huntracked rotation.newId
    · refine hreread.bind fun answer => ?_
      cases answer
      · exact ⟨trivial, fun _ => trivial⟩
      · trivial
  refine ⟨trivial, fun old => ?_⟩
  cases old
  · exact hregister
  · refine ⟨trivial, fun new => ?_⟩
    cases new
    · show Prog.Only _ (if rotation.wasAuthenticated then _ else _)
      split
      · exact hrevoked
      · trivial
    · exact hend rotation.newId
    · exact huntracked rotation.newId
  · exact hregister

omit [BEq V] [JsonSize V] in
theorem settleRegistry_removes (policy : LoadPolicy) (outcome : FinalizeOutcome) :
    (settleRegistry policy outcome : Async V _).Only Call.Removes := by
  unfold settleRegistry
  split
  · split
    · exact moveRegistryEntry_removes ..
    · trivial
  · trivial

omit [BEq V] [JsonSize V] in
theorem settleRegistry_creates (policy : LoadPolicy) (outcome : FinalizeOutcome) :
    (settleRegistry policy outcome : Async V _).Only Call.CreatesNone :=
  (settleRegistry_removes policy outcome).mono (fun _ he => he.createsNone) fun _ h => h

theorem cycleLoop_creates (config : SessionConfig) (existing : Bool) (oldId newId : SessionId)
    (attempts : Nat) : ∀ s : SessionInner V,
      (cycleLoop config existing oldId newId attempts s).Only (Call.CreatesAt newId) := by
  have hmerge (s : SessionInner V) : (mergeConcurrentWrites config s oldId).Only
      (Call.CreatesAt newId) := by
    unfold mergeConcurrentWrites
    cases s.base with
    | none => trivial
    | some base =>
      refine ⟨⟨trivial, Call.createsIn_of_none rfl⟩, fun answer => ?_⟩
      rcases answer with e | _ | fresh
      · trivial
      · trivial
      · show Prog.Only _ (if fresh.revision != base.revision then _ else _)
        split <;> trivial
  have hcycle (data : SessionData V) (merged : Except StoreError (Option UInt64)) :
      (cycleAt config existing oldId newId data merged).Only (Call.CreatesAt newId) := by
    have hnew (e : Call V) (h : e.creates = some newId) : e.CreatesIn {newId} := by
      intro id hid
      exact Option.some.inj (hid.symm.trans h)
    rcases merged with e | _ | revision
    · trivial
    · exact ⟨⟨trivial, hnew _ rfl⟩, fun _ => trivial⟩
    · exact ⟨⟨trivial, hnew _ rfl⟩, fun _ => trivial⟩
  have honce (s : SessionInner V) : (cycleOnce config existing oldId newId s).Only
      (Call.CreatesAt newId) := by
    refine Prog.Only.bind (p := mergeExisting config existing s oldId) ?_ fun merged => ?_
    · unfold mergeExisting
      split
      · exact hmerge s
      · trivial
    · exact (hcycle merged.2.data merged.1).bind fun _ => trivial
  induction attempts with
  | zero => exact fun _ => trivial
  | succ attempts ih =>
    intro s
    refine (honce s).bind fun cycled => ?_
    obtain ⟨cycled, t⟩ := cycled
    rcases cycled with e | _ | _ | _
    · trivial
    · trivial
    · trivial
    · exact ih t

structure Rotation.Moves (rotation : Rotation) (s : SessionInner V) : Prop where
  oldId : rotation.oldId = s.preCycleId.getD s.id
  newId : rotation.newId = s.moved.id

theorem rotationOf_moves {wasAuthenticated : Bool} {state : AuthState} {oldId newId : SessionId}
    {rotation : Rotation} (h : rotationOf wasAuthenticated state oldId newId = some rotation) :
    rotation.oldId = oldId ∧ rotation.newId = newId := by
  unfold rotationOf at h
  split at h
  · split at h
    · cases h
      exact ⟨rfl, rfl⟩
    · cases h
  · cases h

theorem cycleSession_creates (config : SessionConfig) (s : SessionInner V)
    (existingId : Option SessionId) :
    (cycleSession config s existingId).Within (Call.CreatesAt s.moved.id) fun r =>
      r.1.id = s.moved.id ∧ ∀ rotation, r.1.rotation = some rotation → rotation.Moves s := by
  have hfail (t : SessionInner V) (oldId : SessionId) :
      (failClosed t oldId s.moved.id).Within (Call.CreatesAt s.moved.id) fun r =>
        r.1.id = s.moved.id ∧ ∀ rotation, r.1.rotation = some rotation → rotation.Moves s :=
    ⟨⟨trivial, Call.createsIn_of_none rfl⟩, fun _ => ⟨rfl, fun _ h => by cases h⟩⟩
  refine Prog.Within.bind (cycleLoop_creates ..) fun cycled _ => ?_
  obtain ⟨cycled, t⟩ := cycled
  rcases cycled with e | _ | _ | _
  · exact hfail t _
  · refine ⟨rfl, fun rotation h => ?_⟩
    obtain ⟨hold, hnew⟩ := rotationOf_moves h
    exact ⟨hold, hnew⟩
  · exact ⟨rfl, fun _ h => by cases h⟩
  · exact hfail t _

theorem storeUnderId_creates (config : SessionConfig) (s : SessionInner V) (touchDue : Bool)
    (loadedRevision : UInt64) :
    (storeUnderId config s touchDue loadedRevision).Within Call.Edits
      fun r => r.2.id = s.id := by
  unfold storeUnderId
  split
  · exact ⟨⟨trivial, rfl⟩, fun _ => rfl⟩
  · refine Prog.Within.bind (swapLoop_edits _ _ _ _ _ _) fun swapped _ => ?_
    rcases swapped with e | ⟨written, taken⟩ | _ | _ | _ <;> exact rfl

omit [BEq V] [JsonSize V] in
theorem SessionInner.Descends.moved_id {req : Request} {s₀ s : SessionInner V}
    {existingId : Option SessionId} (hloaded : Loaded req s₀ existingId) (h : s₀.Descends s) :
    s.moved.id ∈ req.ids := by
  unfold SessionInner.moved
  cases hpre : s.preCycleId with
  | none =>
    obtain ⟨m, hm⟩ := h.rng 0
    obtain ⟨n, hn⟩ := hloaded.rng m
    exact ⟨n, hm.trans hn⟩
  | some old =>
    obtain ⟨-, -, m, hm⟩ := h.rotated old hpre
    obtain ⟨n, hn⟩ := hloaded.rng m
    exact ⟨n, hm.trans hn⟩

omit [BEq V] [JsonSize V] in
theorem SessionInner.Descends.id_fresh {req : Request} {s₀ s : SessionInner V}
    (hloaded : Loaded req s₀ none) (h : s₀.Descends s) : s.id ∈ req.ids := by
  cases hpre : s.preCycleId with
  | none => exact ⟨0, (h.unrotated hpre).trans (hloaded.fresh rfl)⟩
  | some old =>
    obtain ⟨-, -, m, hm⟩ := h.rotated old hpre
    obtain ⟨n, hn⟩ := hloaded.rng m
    exact ⟨n, hm.trans hn⟩

def SessionInner.finalId (s : SessionInner V) : SessionId :=
  if s.regenerate then s.moved.id else s.id

/-- The end of a request works on the rows, leaves the session under its final id, and reports a
rotation only from the id the request arrived with. -/
theorem finalizeSession_onRows (config : SessionConfig) (now : Instant) (s : SessionInner V)
    (existingId : Option SessionId) :
    (finalizeSession config now s existingId).Within Call.OnRows fun r =>
      (r.1.sessionChanged = true → r.1.finalId = s.finalId) ∧
        ∀ rotation, r.1.rotation = some rotation → rotation.Moves s := by
  have hmoved : (s.stamped config now).moved.id = s.moved.id := by
    unfold SessionInner.moved
    cases hpre : s.preCycleId <;> simp [SessionInner.stamped, hpre]
  have hregen : (s.stamped config now).regenerate = s.regenerate := rfl
  unfold finalizeSession
  simp only
  split
  · unfold persist
    split
    next h =>
      refine Prog.Within.bind ((cycleSession_creates config _ existingId).mono
        (fun _ he => he.onRows) fun _ hr => hr) fun r hr => ⟨fun _ => ?_, fun rotation hrot => ?_⟩
      · rw [SessionInner.finalId, if_pos (hregen.symm.trans h)]
        exact hr.1.trans hmoved
      · obtain ⟨hold, hnew⟩ := hr.2 rotation hrot
        exact ⟨hold, hnew.trans hmoved⟩
    next h =>
      have hid : s.finalId = s.id := if_neg fun hs => h (hregen.trans hs)
      rw [hid]
      split
      · refine Prog.Within.bind ((storeUnderId_creates config _ _ _).mono
          (fun _ he => he.onRows) fun _ hr => hr) fun r hr => ?_
        obtain ⟨written, t⟩ := r
        rcases written with e | _ | _ | _ <;> exact ⟨fun _ => hr, fun _ h => by cases h⟩
      · refine ⟨trivial, fun answer => ?_⟩
        cases answer <;> exact ⟨fun _ => rfl, fun _ h => by cases h⟩
  · exact ⟨fun h => (by cases h), fun _ h => by cases h⟩

theorem finalizeSession_creates (config : SessionConfig) (now : Instant) {req : Request}
    {s₀ s : SessionInner V} {existingId : Option SessionId} (hloaded : Loaded req s₀ existingId)
    (h : s₀.Descends s) :
    (finalizeSession config now s existingId).Only (Call.CreatesIn req.ids) := by
  have hstamped : s₀.Descends (s.stamped config now) := h.stays ⟨rfl, rfl, rfl, rfl⟩
  unfold finalizeSession
  simp only
  split
  · unfold persist
    split
    · refine Prog.Only.bind (Prog.Within.mono (cycleSession_creates config _ existingId) ?_
        fun _ _ => trivial) fun _ => trivial
      intro e he id hid
      have hnew : id = (s.stamped config now).moved.id := he.createsIn id hid
      rw [hnew]
      exact hstamped.moved_id hloaded
    · split
      · exact Prog.Only.bind (Prog.Within.mono (storeUnderId_creates ..)
          (fun e he => Call.createsIn_of_none he.createsNone) fun _ _ => trivial) fun _ => trivial
      · rename_i hnone
        have hexisting : existingId = none := by simpa using hnone
        subst hexisting
        refine ⟨fun id hid => ?_, fun answer => ?_⟩
        · cases hid
          exact hstamped.id_fresh hloaded
        · cases answer <;> trivial
  · trivial

theorem respond_creates (layer : SessionLayer) (req : Request) (ops : List (Op V)) :
    (respond layer req ops).Only (Call.CreatesIn req.ids) := by
  have hnone : ∀ e : Call V, e.CreatesNone → e.CreatesIn req.ids :=
    fun e he => Call.createsIn_of_none he
  refine Prog.Within.bind ((beginRequest_creates layer req).mono hnone fun _ hb => hb)
    fun b hloaded => ?_
  refine Prog.Within.bind ((runOps_creates ops (.refl hloaded.preCycleId)).mono hnone
    fun _ hs => hs) fun s hs => ?_
  refine Prog.Only.bind ?_ fun _ => trivial
  refine Prog.Only.bind (finalizeSession_creates layer.config req.finishedAt hloaded hs)
    fun outcome => ?_
  exact Prog.Only.bind (Prog.Within.mono (settleRegistry_creates ..) hnone fun _ _ => trivial)
    fun _ => trivial

end

end Axess
