import Axess.Session.Service

/-!
# A request alone

What a request does when no other request writes its row meanwhile and every call succeeds: the
row it sees stored is the row that is stored (`SessionInner.Alone`), so a merging write lands at
the first attempt and a rotation finds its old row.
-/

namespace Axess

open Calls

variable {V : Type}

/-- The rows hold, under the id the request arrived with, what the session takes to be stored
there; until the id rotates, the data carries the revision of that row. -/
structure SessionInner.Alone (s : SessionInner V) (ttl : Duration) (rows : Rows V)
    (arrival : SessionId) : Prop where
  target : s.consume = some ⟨ttl, rows arrival⟩
  unrotated : s.preCycleId = none → s.id = arrival
  rotated : ∀ id, s.preCycleId = some id → id = arrival
  revision : s.preCycleId = none → ∀ row, rows arrival = some row →
    s.data.revision = row.revision

namespace SessionInner.Alone

variable {s t : SessionInner V} {ttl : Duration} {rows : Rows V} {arrival : SessionId}

theorem oldId (h : s.Alone ttl rows arrival) : s.preCycleId.getD s.id = arrival := by
  cases hpre : s.preCycleId with
  | none => exact h.unrotated hpre
  | some id => exact h.rotated id hpre

theorem keeps (h : s.Alone ttl rows arrival) (hkeep : s.KeepsId t) : t.Alone ttl rows arrival where
  target := hkeep.consume.trans h.target
  unrotated hpre := hkeep.id.trans (h.unrotated (hkeep.preCycleId.symm.trans hpre))
  rotated id hpre := h.rotated id (hkeep.preCycleId.symm.trans hpre)
  revision hpre row hrow :=
    hkeep.revision.trans (h.revision (hkeep.preCycleId.symm.trans hpre) row hrow)

theorem rotates (h : s.Alone ttl rows arrival) (hrot : s.Rotates t) : t.Alone ttl rows arrival where
  target := hrot.consume.trans h.target
  unrotated hpre := absurd (hrot.preCycleId.symm.trans hpre) (by simp)
  rotated id hpre := by
    have hid := hrot.preCycleId.symm.trans hpre
    rw [h.oldId] at hid
    exact (Option.some.inj hid).symm
  revision hpre := absurd (hrot.preCycleId.symm.trans hpre) (by simp)

end SessionInner.Alone

section

variable [BEq V] [JsonSize V]

variable {w : World V}

theorem swapMerging_alone {τ : Type} {swap : Swap V} {row : SessionData V} (taken : τ)
    (prepare : SessionData V → Option (SessionData V × τ)) (hrow : w.rows swap.row = some row)
    (hrev : swap.expected = row.revision) (httl : swap.ttl ≠ 0) :
    (swapMerging swap taken prepare).eval World.perform w =
      (.ok (.written (swap.sealed swap.expected swap.mine) taken),
        { w with rows := w.rows.put swap.row (swap.sealed swap.expected swap.mine) }) := by
  have hupdate : w.rows.updateIfRevision swap.row swap.expected
      (swap.sealed swap.expected swap.mine) swap.ttl =
        (.written, w.rows.put swap.row (swap.sealed swap.expected swap.mine)) := by
    unfold Rows.updateIfRevision
    rw [hrow, hrev]
    simp [httl]
  unfold swapMerging swapAttempts swapLoop
  simp only [Prog.eval_bind, Store.eval_updateIfRevision, hupdate]
  rfl

/-- What taking a value changes: the row the request arrived with, if anything, and in memory
only the bag and the revision. A row keeps its authentication state, or gets that of a session
that has not rotated. -/
structure SessionInner.Takes (arrival : SessionId) (s : SessionInner V) (w : World V)
    (t : SessionInner V) (w' : World V) : Prop where
  id : t.id = s.id
  preCycleId : t.preCycleId = s.preCycleId
  rng : t.rng = s.rng
  regenerate : t.regenerate = s.regenerate
  authState : t.data.authState = s.data.authState
  world : w' = w ∨ ∃ row row', w.rows arrival = some row ∧
    w' = { w with rows := w.rows.put arrival row' } ∧
    row'.authState = if s.preCycleId.isSome then row.authState else s.data.authState

variable {base : SessionData V}

omit [JsonSize V] in
/-- A request that merges its rotated session with a row that changed nothing but the bag keeps
its own authentication state. -/
theorem mergeRotating_authState {mine fresh : SessionData V} (h : fresh.authState = base.authState) :
    (mergeRotating base mine fresh).authState = mine.authState := by
  show pick base.authState mine.authState fresh.authState = mine.authState
  unfold pick
  rw [h]
  by_cases heq : mine.authState = base.authState
  · simp [heq]
  · simp [heq]

variable {s : SessionInner V} {ttl : Duration} {arrival : SessionId}

omit [BEq V] [JsonSize V] in
/-- A consumption writes over the revision that is stored, and changes the authentication state
of the row only to that of a session that has not rotated. -/
theorem consumeWrite_alone {rows : Rows V} {mine : SessionData V} {key : String} {expected : UInt64}
    (h : s.Alone ttl rows arrival) (hrow : rows arrival = some base)
    (hwrite : s.consumeWrite base key = some (mine, expected)) :
    expected = base.revision ∧
      mine.authState = if s.preCycleId.isSome then base.authState else s.data.authState := by
  unfold SessionInner.consumeWrite at hwrite
  cases hpre : s.preCycleId with
  | none =>
    rw [hpre] at hwrite
    cases hwrite
    exact ⟨h.revision hpre base hrow, rfl⟩
  | some id =>
    rw [hpre] at hwrite
    simp only [Option.isSome_some, if_true, Option.map_eq_some_iff] at hwrite
    obtain ⟨taken, -, hpair⟩ := hwrite
    cases hpair
    exact ⟨rfl, rfl⟩

omit [JsonSize V] in
theorem consumed_alone {rows : Rows V} {written : SessionData V} (h : s.Alone ttl rows arrival) :
    (s.consumed ttl base written).Alone ttl (rows.put arrival written) arrival where
  target := by
    rw [Rows.put_self]
    rfl
  unrotated := h.unrotated
  rotated := h.rotated
  revision hpre row hput := by
    have hnone : s.preCycleId = none := hpre
    rw [Rows.put_self] at hput
    cases hput
    simp [SessionInner.consumed, hnone]

omit [JsonSize V] in
theorem consumed_authState {written : SessionData V}
    (h : written.authState = if s.preCycleId.isSome then base.authState else s.data.authState) :
    (s.consumed ttl base written).data.authState = s.data.authState := by
  cases hpre : s.preCycleId with
  | none =>
    rw [hpre] at h
    simpa [SessionInner.consumed, hpre] using h
  | some id =>
    rw [hpre] at h
    simpa [SessionInner.consumed, hpre] using mergeRotating_authState h

theorem consumeCustom_alone (h : s.Alone ttl w.rows arrival) (httl : ttl ≠ 0) (key : String) :
    let r := (s.consumeCustom key).eval World.perform w
    r.1.2.Alone ttl r.2.rows arrival ∧ s.Takes arrival w r.1.2 r.2 := by
  intro r
  cases htake : s.data.custom.take key with
  | none =>
    have hr : r = ((none, s), w) := by
      simp only [r, SessionInner.consumeCustom, htake]
      rfl
    rw [hr]
    exact ⟨h, rfl, rfl, rfl, rfl, rfl, .inl rfl⟩
  | some taken =>
    obtain ⟨value, rest⟩ := taken
    let s' := (s.setCustom rest).touch
    have h' : s'.Alone ttl w.rows arrival :=
      h.keeps ((SessionInner.keepsId_setCustom s rest).trans (SessionInner.keepsId_touch _))
    -- only the copy in memory changes when no row holds the value
    have hmemory : s'.Alone ttl w.rows arrival ∧ s.Takes arrival w s' w :=
      ⟨h', rfl, rfl, rfl, rfl, rfl, .inl rfl⟩
    cases hrow : w.rows arrival with
    | none =>
      have hr : r = ((some value, s'), w) := by
        simp only [r, SessionInner.consumeCustom, htake]
        rw [show (s.setCustom rest).touch.consume = some ⟨ttl, none⟩ from hrow ▸ h'.target]
        rfl
      rw [hr]
      exact hmemory
    | some base =>
      have hcons : s'.consume = some ⟨ttl, some base⟩ := hrow ▸ h'.target
      cases hwrite : s'.consumeWrite base key with
      | none =>
        have hr : r = ((some value, s'), w) := by
          simp only [r, SessionInner.consumeCustom, htake]
          rw [show (s.setCustom rest).touch.consume = _ from hcons]
          simp only [show (s.setCustom rest).touch.consumeWrite base key = none from hwrite]
          rfl
        rw [hr]
        exact hmemory
      | some write =>
        obtain ⟨mine, expected⟩ := write
        obtain ⟨hexpected, hmine⟩ := consumeWrite_alone h' hrow hwrite
        let swap : Swap V :=
          ⟨s'.preCycleId.getD s'.id, some base, mine, expected, ttl, s'.maxCustomBytes⟩
        let written := swap.sealed expected mine
        have hswapRow : w.rows swap.row = some base :=
          (congrArg w.rows h'.oldId).trans hrow
        have hswap := swapMerging_alone value (SessionInner.takeFrom key) hswapRow hexpected httl
        have hr : r = ((some value, s'.consumed ttl base written),
            { w with rows := w.rows.put arrival written }) := by
          simp only [r, SessionInner.consumeCustom, htake]
          rw [show (s.setCustom rest).touch.consume = _ from hcons]
          simp only [show (s.setCustom rest).touch.consumeWrite base key = _ from hwrite]
          rw [Prog.eval_bind]
          erw [hswap]
          rw [show swap.row = arrival from h'.oldId]
          rfl
        rw [hr]
        have hstate : written.authState =
            if s.preCycleId.isSome then base.authState else s.data.authState := hmine
        refine ⟨consumed_alone h', rfl, rfl, rfl, rfl, ?_, .inr ⟨base, written, hrow, rfl,
          hstate⟩⟩
        exact consumed_authState hstate

omit [BEq V] [JsonSize V] in
theorem Rows.cycle_alone (rows : Rows V) (oldId newId : SessionId) (data : SessionData V)
    {ttl : Duration} (httl : ttl ≠ 0) :
    rows.cycle oldId newId data ttl (rows oldId).isSome =
      (.rotated, (rows.drop oldId).put newId data) := by
  unfold Rows.cycle
  cases hrow : rows oldId <;> simp [httl]

variable {config : SessionConfig}

variable {oldId : SessionId}

theorem mergeConcurrentWrites_alone {row : SessionData V} (hbase : s.base = some row)
    (hrow : w.rows oldId = some row) :
    (mergeConcurrentWrites config s oldId).eval World.perform w =
      ((.ok (some row.revision), s), w) := by
  unfold mergeConcurrentWrites
  rw [hbase]
  simp only [Prog.eval_bind, Store.eval_load, hrow, bne_self_eq_false, Bool.false_eq_true,
    if_false]
  rfl

theorem cycleOnce_alone (newId : SessionId) (hbase : s.base = w.rows oldId) :
    (cycleOnce config (w.rows oldId).isSome oldId newId s).eval World.perform w =
      ((.ok .rotated, s), { w with rows := (w.rows.drop oldId).put newId s.data }) := by
  have hcycle := w.rows.cycle_alone oldId newId s.data (Nat.ne_of_gt config.ttl_pos)
  unfold cycleOnce mergeExisting
  cases hrow : w.rows oldId with
  | none =>
    rw [hrow] at hcycle
    have hplain : (cycleAt config false oldId newId s.data (.ok none)).eval World.perform w =
        (.ok .rotated, { w with rows := (w.rows.drop oldId).put newId s.data }) := by
      simp only [cycleAt, Store.eval_cycle]
      rw [show w.rows.cycle oldId newId s.data config.ttl false = _ from hcycle]
    simp only [Option.isSome_none, Bool.false_eq_true, if_false, Prog.pure_eq_ret, Prog.ret_bind,
      Prog.eval_bind, hplain]
    rfl
  | some row =>
    have hmerge : (mergeConcurrentWrites config s oldId).eval World.perform w = _ :=
      mergeConcurrentWrites_alone (hbase.trans hrow) hrow
    have hconditional : w.rows.cycleIfRevision oldId newId s.data config.ttl true row.revision =
        (.rotated, (w.rows.drop oldId).put newId s.data) := by
      unfold Rows.cycleIfRevision
      rw [hrow] at hcycle ⊢
      simpa using hcycle
    simp only [Option.isSome_some, if_true, Prog.eval_bind, hmerge, cycleAt,
      Store.eval_cycleIfRevision, hconditional]
    rfl

theorem cycleLoop_alone (newId : SessionId) (hbase : s.base = w.rows oldId) (attempts : Nat) :
    (cycleLoop config (w.rows oldId).isSome oldId newId (attempts + 1) s).eval World.perform w =
      ((.ok .rotated, s), { w with rows := (w.rows.drop oldId).put newId s.data }) := by
  unfold cycleLoop
  rw [Prog.eval_bind, cycleOnce_alone newId hbase]
  rfl

omit [BEq V] [JsonSize V] in
theorem SessionInner.moved_consume (s : SessionInner V) : s.moved.consume = s.consume := by
  unfold SessionInner.moved
  cases s.preCycleId <;> rfl

omit [BEq V] [JsonSize V] in
@[simp] theorem SessionInner.moved_data (s : SessionInner V) : s.moved.data = s.data := by
  unfold SessionInner.moved
  cases s.preCycleId <;> rfl

omit [BEq V] [JsonSize V] in
theorem SessionInner.moved_id {id : SessionId} (h : s.preCycleId = some id) :
    s.moved.id = s.id := by
  unfold SessionInner.moved
  rw [h]

theorem cycleSession_alone {existingId : Option SessionId}
    (htarget : s.consume = some ⟨config.ttl, w.rows arrival⟩)
    (hold : s.preCycleId.getD s.id = arrival)
    (hexisting : existingId.isSome = (w.rows arrival).isSome) :
    (cycleSession config s existingId).eval World.perform w =
      ((⟨s.moved.id, rotationOf ((w.rows arrival).any (·.authState.isAuthenticated))
          s.data.authState arrival s.moved.id, true⟩, s.moved),
        { w with rows := (w.rows.drop arrival).put s.moved.id s.data }) := by
  have hbase : s.moved.base = w.rows arrival := by
    unfold SessionInner.base
    rw [s.moved_consume, htarget]
    rfl
  unfold cycleSession cycleAttempts
  simp only [hold, hexisting, hbase, Prog.eval_bind, cycleLoop_alone s.moved.id hbase 3]
  simp only [Prog.pure_eq_ret, Prog.eval_ret, s.moved_data]

theorem finalizeSession_regenerate {existingId : Option SessionId} (now : Instant)
    (h : s.Alone config.ttl w.rows arrival)
    (hexisting : existingId.isSome = (w.rows arrival).isSome) (hregen : s.regenerate = true) :
    (finalizeSession config now s existingId).eval World.perform w =
      ((⟨s.moved.id, true, rotationOf ((w.rows arrival).any (·.authState.isAuthenticated))
          s.data.authState arrival s.moved.id⟩, (s.stamped config now).moved),
        { w with
          rows := (w.rows.drop arrival).put s.moved.id (s.stamped config now).data }) := by
  have hid : (s.stamped config now).moved.id = s.moved.id := by
    unfold SessionInner.moved
    cases hpre : s.preCycleId <;> simp [SessionInner.stamped, hpre]
  have hcycle := cycleSession_alone (s := s.stamped config now) h.target h.oldId hexisting
  rw [hid] at hcycle
  have hregen' : (s.stamped config now).regenerate = true := hregen
  unfold finalizeSession persist
  simp only [hregen, hregen', Bool.or_true, Bool.true_or, if_true, Prog.eval_bind, hcycle]
  rfl

end

/-! ## Loading -/

/-- The generator gives this request ids that are new: different from each other and from the
one in its cookie, and no row is stored under them. -/
structure Request.Mints (req : Request) (rows : Rows V) : Prop where
  injective : Function.Injective req.rng.get
  apart : ∀ cookie, req.cookie = some cookie → ∀ n, req.rng.get n ≠ cookie.id
  unused : ∀ n, rows (req.rng.get n) = none

theorem authenticatedSessionVerdict_world (data : SessionData V) (config : SessionConfig)
    (policy : LoadPolicy) (id : SessionId) (w : World V) :
    ((authenticatedSessionVerdict data config policy id).eval World.perform w).2 = w := by
  unfold authenticatedSessionVerdict
  split
  · split
    · rfl
    · split
      · rfl
      · split
        · rfl
        · rw [Prog.eval_bind, Reg.eval_liveness]
          simp only
          split
          · rfl
          · rfl
          · cases policy.unknown <;> rfl
  · rfl

theorem loadStoredSession_cases (id : SessionId) (config : SessionConfig) (policy : LoadPolicy)
    (w : World V) :
    let r := (loadStoredSession id config policy).eval World.perform w
    (∃ row, w.rows id = some row ∧ r = (⟨some id, row.migrate.1, some row, false⟩, w)) ∨
      (∃ ended, r.1 = ⟨none, .default, none, ended⟩) ∧
        (r.2 = w ∨ r.2 = { w with rows := w.rows.drop id }) := by
  intro r
  cases hrow : w.rows id with
  | none =>
    have hr : r = (.fresh, w) := by
      simp only [r, loadStoredSession, Prog.eval_bind, Store.eval_load, hrow]
      rfl
    rw [hr]
    exact .inr ⟨⟨false, rfl⟩, .inl rfl⟩
  | some row =>
    have hworld := authenticatedSessionVerdict_world row.migrate.1 config policy id w
    cases hverdict : ((authenticatedSessionVerdict row.migrate.1 config policy id).eval
      World.perform w).1 with
    | keep =>
      refine .inl ⟨row, rfl, ?_⟩
      simp only [r, loadStoredSession, Prog.eval_bind, Store.eval_load, hrow, hverdict, hworld]
      rfl
    | ended =>
      have hr : r = ({ StoredSession.fresh with sessionEnded := true },
          { w with rows := w.rows.drop id }) := by
        simp only [r, loadStoredSession, Prog.eval_bind, Store.eval_load, hrow, hverdict, hworld]
        rfl
      rw [hr]
      exact .inr ⟨⟨true, rfl⟩, .inr rfl⟩
    | distrust =>
      have hr : r = (.fresh, w) := by
        simp only [r, loadStoredSession, Prog.eval_bind, Store.eval_load, hrow, hverdict, hworld]
        rfl
      rw [hr]
      exact .inr ⟨⟨false, rfl⟩, .inl rfl⟩

theorem SessionData.migrate_keeps (data : SessionData V) :
    data.migrate.1.revision = data.revision ∧ data.migrate.1.authState = data.authState := by
  unfold SessionData.migrate
  split
  · exact ⟨rfl, rfl⟩
  · split <;> exact ⟨rfl, rfl⟩

/-- A session that passes the binding check is the one that was stored, but for the
fingerprint. -/
theorem checkBinding_keeps (data : SessionData V) (fingerprints : Fingerprints) :
    (checkBinding data fingerprints).invalidated = true ∨
      (checkBinding data fingerprints).data.revision = data.revision ∧
        (checkBinding data fingerprints).data.authState = data.authState := by
  unfold checkBinding
  split
  · split
    · exact .inr ⟨rfl, rfl⟩
    · split
      · split
        · exact .inr ⟨rfl, rfl⟩
        · exact .inl rfl
      · exact .inl rfl
  · split
    · split <;> exact .inr ⟨rfl, rfl⟩
    · exact .inr ⟨rfl, rfl⟩

/-- What a handler starts with: a session whose row is the stored one, or a new guest under an id
no row is stored under. -/
structure Begun (layer : SessionLayer) (w : World V) (s : SessionInner V)
    (existingId : Option SessionId) : Prop where
  alone : s.Alone layer.config.ttl w.rows s.id
  existing : existingId.isSome = (w.rows s.id).isSome
  authState : ∀ row, w.rows s.id = some row → s.data.authState = row.authState
  preCycleId : s.preCycleId = none
  fresh : ∀ n, s.rng.get n ≠ s.id

variable {req : Request} {layer : SessionLayer}

variable {w : World V}

theorem begun_seedRequest {load : LoadOutcome V} {rng : Stream' SessionId}
    (hrow : load.loadedRow = w.rows load.id)
    (hexisting : load.existingId.isSome = (w.rows load.id).isSome)
    (hdata : ∀ row, w.rows load.id = some row →
      load.data.revision = row.revision ∧ load.data.authState = row.authState)
    (hfresh : ∀ n, rng.get n ≠ load.id) :
    Begun layer w (seedRequest layer req load rng) load.existingId := by
  have hdevice : (resolveDevice load req.device).1.id = load.id ∧
      (resolveDevice load req.device).1.loadedRow = load.loadedRow ∧
      (resolveDevice load req.device).1.data.revision = load.data.revision ∧
      (resolveDevice load req.device).1.data.authState = load.data.authState := by
    unfold resolveDevice
    split
    · split <;> exact ⟨rfl, rfl, rfl, rfl⟩
    · exact ⟨rfl, rfl, rfl, rfl⟩
  obtain ⟨hid, hloaded, hrev, hstate⟩ := hdevice
  have hseedId : (seedRequest layer req load rng).id = load.id := hid
  refine ⟨⟨?_, fun _ => rfl, fun id hpre => absurd hpre (by simp [seedRequest, seedSessionState]),
    ?_⟩, ?_, ?_, rfl, ?_⟩
  · rw [hseedId, ← hrow, ← hloaded]
    rfl
  · intro _ row hsome
    rw [hseedId] at hsome
    exact hrev.trans (hdata row hsome).1
  · rw [hseedId]
    exact hexisting
  · intro row hsome
    rw [hseedId] at hsome
    exact hstate.trans (hdata row hsome).2
  · rw [hseedId]
    exact hfresh

theorem begun_fresh {w' : World V} (hmint : req.Mints w.rows)
    (hworld : ∀ i, w.rows i = none → w'.rows i = none) {stored : StoredSession V}
    (hnone : (if (checkBinding stored.data (layer.fingerprints req)).invalidated then none
      else stored.existingId) = none) :
    let loaded := loadOutcome req.cookie (layer.fingerprints req) req.rng stored
    Begun layer w' (seedRequest layer req loaded.1 loaded.2) loaded.1.existingId := by
  intro loaded
  have hexisting : loaded.1.existingId = none := hnone
  have hid : loaded.1.id = req.rng.get 0 := by
    show (Option.getD _ _) = _
    rw [hnone]
    rfl
  have hrow : w'.rows loaded.1.id = none := hworld _ (hid ▸ hmint.unused 0)
  refine begun_seedRequest ?_ ?_ ?_ ?_
  · rw [hrow]
    show Option.bind _ _ = none
    rw [hnone]
    rfl
  · rw [hrow, hexisting]
    rfl
  · intro row hsome
    rw [hrow] at hsome
    cases hsome
  · intro n heq
    have hrng : loaded.2 = req.rng.tail := by
      show (if Option.isSome _ then _ else _) = _
      rw [hnone]
      rfl
    rw [hid, hrng] at heq
    exact absurd (hmint.injective heq) (by omega)

theorem begun_stored {cookie : VerifiedCookie} {row : SessionData V} (hmint : req.Mints w.rows)
    (hcookie : req.cookie = some cookie) (hrow : w.rows cookie.id = some row)
    (hvalid : (checkBinding row.migrate.1 (layer.fingerprints req)).invalidated = false) :
    let loaded := loadOutcome req.cookie (layer.fingerprints req) req.rng
      ⟨some cookie.id, row.migrate.1, some row, false⟩
    Begun layer w (seedRequest layer req loaded.1 loaded.2) loaded.1.existingId := by
  intro loaded
  have hloaded : loaded.1.existingId = some cookie.id ∧ loaded.1.id = cookie.id ∧
      loaded.1.loadedRow = some row ∧ loaded.2 = req.rng ∧
      loaded.1.data = (checkBinding row.migrate.1 (layer.fingerprints req)).data := by
    simp [loaded, loadOutcome, hvalid]
  obtain ⟨hexisting, hid, hloadedRow, hrng, hdata⟩ := hloaded
  refine begun_seedRequest ?_ ?_ ?_ ?_
  · rw [hid, hrow, hloadedRow]
  · rw [hid, hrow, hexisting]
    rfl
  · intro row' hsome
    rw [hid, hrow] at hsome
    cases hsome
    obtain ⟨hrev, hstate⟩ := (checkBinding_keeps row.migrate.1
      (layer.fingerprints req)).resolve_left (by rw [hvalid]; decide)
    rw [hdata]
    exact ⟨hrev.trans row.migrate_keeps.1, hstate.trans row.migrate_keeps.2⟩
  · rw [hid, hrng]
    exact hmint.apart cookie hcookie

/-- What a handler starts with when the load found `stored`. -/
def beginStored (layer : SessionLayer) (req : Request) (stored : StoredSession V) :
    SessionInner V × Option SessionId :=
  let loaded := loadOutcome req.cookie (layer.fingerprints req) req.rng stored
  (seedRequest layer req loaded.1 loaded.2, loaded.1.existingId)

theorem beginRequest_of_cookie (layer : SessionLayer) {cookie : VerifiedCookie}
    (hcookie : req.cookie = some cookie) :
    (beginRequest layer req : Async V _) =
      loadStoredSession cookie.id layer.config (layer.policy req.loadedAt) >>= fun stored =>
        pure (beginStored layer req stored) := by
  unfold beginRequest loadSession beginStored
  simp only [hcookie, Prog.bind_assoc]
  rfl

theorem beginRequest_of_none (layer : SessionLayer) (hcookie : req.cookie = none) :
    (beginRequest layer req : Async V _) = pure (beginStored layer req .fresh) := by
  unfold beginRequest loadSession beginStored
  simp only [hcookie]
  rfl

theorem beginRequest_alone (hmint : req.Mints w.rows) :
    let b := (beginRequest layer req).eval World.perform w
    Begun layer b.2 b.1.1 b.1.2 := by
  intro b
  cases hcookie : req.cookie with
  | none =>
    simp only [b, beginRequest_of_none layer hcookie]
    exact begun_fresh hmint (fun _ h => h) (ite_self none)
  | some cookie =>
    simp only [b, beginRequest_of_cookie layer hcookie, Prog.eval_bind]
    rcases loadStoredSession_cases cookie.id layer.config (layer.policy req.loadedAt) w with
      ⟨row, hrow, hr⟩ | ⟨⟨ended, hstored⟩, hworld⟩
    · rw [hr]
      cases hvalid : (checkBinding row.migrate.1 (layer.fingerprints req)).invalidated with
      | false => exact begun_stored hmint hcookie hrow hvalid
      | true => exact begun_fresh hmint (fun _ h => h) (by simp [hvalid])
    · simp only [hstored]
      refine begun_fresh hmint (fun i hi => ?_) (ite_self none)
      -- the load deleted the row of the cookie, if anything
      rcases hworld with hworld | hworld
      · rw [hworld]
        exact hi
      · rw [hworld]
        show w.rows.drop cookie.id i = none
        rw [Rows.drop_apply]
        split
        · rfl
        · exact hi

/-- The move of a registry entry that nobody interferes with. An old id that is gone while the new
one is registered counts as a revocation if the session was authenticated before. -/
theorem moveRegistryEntry_alone (rotation : Rotation) (unknown : UnknownLiveness) (w : World V) :
    (moveRegistryEntry rotation unknown).eval World.perform w =
      if w.registry.holds rotation.userId rotation.oldId then
        (true, { w with
          registry := (w.registry.register rotation.userId rotation.newId).invalidateSession
            rotation.userId rotation.oldId })
      else if w.registry.holds rotation.userId rotation.newId then
        if rotation.wasAuthenticated then
          (false, { w with
            registry := w.registry.invalidateSession rotation.userId rotation.newId
            rows := w.rows.drop rotation.newId })
        else (true, w)
      else (false, { w with rows := w.rows.drop rotation.newId }) := by
  unfold moveRegistryEntry
  rw [Prog.eval_bind, Reg.eval_liveness]
  cases hold : w.registry.holds rotation.userId rotation.oldId with
  | true =>
    have hvalid : w.registry.liveness rotation.userId rotation.oldId = .valid :=
      Registry.liveness_eq_valid.mpr hold
    have hstill : (w.registry.register rotation.userId rotation.newId).liveness rotation.userId
        rotation.oldId = .valid := by
      rw [Registry.liveness_eq_valid, Registry.holds_register, hold, Bool.true_or]
    simp only [hvalid, if_true, registerRotated, rereadOldId, Prog.eval_bind, Reg.eval_register,
      Reg.eval_liveness, hstill]
    rfl
  | false =>
    have hgone : w.registry.liveness rotation.userId rotation.oldId = .gone :=
      Registry.liveness_eq_gone.mpr hold
    simp only [hgone, Bool.false_eq_true, if_false, Prog.eval_bind, Reg.eval_liveness]
    cases hnew : w.registry.holds rotation.userId rotation.newId with
    | true =>
      rw [Registry.liveness_eq_valid.mpr hnew]
      cases hwas : rotation.wasAuthenticated <;> rfl
    | false =>
      rw [Registry.liveness_eq_gone.mpr hnew]
      rfl

theorem finishRequest_rotation [BEq V] [JsonSize V]
    {s t : SessionInner V} {existingId : Option SessionId} {w w' : World V} {id : SessionId}
    {rotation : Rotation} (hlayer : layer.registry = true)
    (hfinal : (finalizeSession layer.config req.finishedAt s existingId).eval World.perform w =
      ((⟨id, true, some rotation⟩, t), w')) :
    (finishRequest layer req s existingId).eval World.perform w =
      let moved := (moveRegistryEntry rotation layer.unknown).eval World.perform w'
      (if moved.1 then some id else none, moved.2) := by
  simp only [finishRequest, Prog.eval_bind, hfinal, settleRegistry, SessionLayer.policy, hlayer,
    if_true, Bool.true_and]
  rfl

instance : JsonSize Nat where
  jsonByteLen custom := custom.bag.keys.length

def SessionLayer.plain : SessionLayer where
  config := ⟨3600 * 10 ^ 9, by decide, 0, none, none⟩
  registry := true
  unknown := .reject
  binding := none

def Request.counting (cookie : Option VerifiedCookie) (first : Nat) : Request where
  cookie := cookie
  material := none
  device := none
  rng := fun n => ⟨first + n⟩
  loadedAt := 0
  finishedAt := 0

theorem Request.counting_mints {cookie : Option VerifiedCookie} {first : Nat} {rows : Rows V}
    (hcookie : ∀ c, cookie = some c → c.id.uuid < first)
    (hrows : ∀ i : SessionId, first ≤ i.uuid → rows i = none) :
    (Request.counting cookie first).Mints rows where
  injective n m h := by
    have hnm : first + n = first + m := congrArg SessionId.uuid h
    omega
  apart c hc n h := by
    have hid : first + n = c.id.uuid := congrArg SessionId.uuid h
    have hlt := hcookie c hc
    omega
  unused n := hrows _ (Nat.le_add_right first n)

end Axess
