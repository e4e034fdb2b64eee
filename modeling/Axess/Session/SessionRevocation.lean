import Axess.Session.RevocationRace

/-!
# Revoking one session while its id rotates

The revocation of the old id alone, against the move of the registry entry. It is lost when it
lands between the second look at the old id and the removal of the old entry, and when it lands
before the move while the service has registered the new id already; it is caught everywhere
else (`moveRegistryEntry_session_revocation`).
-/

namespace Axess

open Calls

variable {V : Type}

namespace SessionRevocation

open Race

variable (rotation : Rotation)

def revocation : RegistryCall := .invalidateSession rotation.userId rotation.oldId

def HoldsOld (reg : Registry) : Prop := reg.holds rotation.userId rotation.oldId = true

/-- Every call is answered, and the revocation is issued while the registry holds the old
id. -/
def sem : Party → Sem (Call V) Call.Answer (World V)
  | .mover => World.Answers
  | .revoker => fun e w a w' => HoldsOld rotation w.registry ∧ World.Answers e w a w'

abbrev guar : Party → State V → State V → Prop := Race.guar (revocation rotation) (HoldsOld rotation)

abbrev rely : State V → State V → Prop := Race.rely (revocation rotation) (HoldsOld rotation)

def callsBefore (trace : List (Party × Call V)) : Nat :=
  (trace.takeWhile fun entry => entry.1 == .mover).length

theorem callsBefore_append_cons {l : List (Party × Call V)}
    (hl : ∀ entry ∈ l, entry.1 = .mover) (c : Call V) (m : List (Party × Call V)) :
    callsBefore (l ++ (.revoker, c) :: m) = l.length := by
  unfold callsBefore
  rw [List.takeWhile_append_of_pos (by simpa using hl), List.takeWhile_cons]
  simp

theorem callsBefore_append {l : List (Party × Call V)} {c : Call V}
    (hmem : (Party.revoker, c) ∈ l) (m : List (Party × Call V)) :
    callsBefore (l ++ m) = callsBefore l := by
  induction l with
  | nil => cases hmem
  | cons entry l ih =>
    by_cases hentry : entry.1 = .mover
    · have hl : (Party.revoker, c) ∈ l := by
        rcases List.mem_cons.1 hmem with rfl | h
        · cases hentry
        · exact h
      have := ih hl
      unfold callsBefore at this ⊢
      simp only [List.cons_append, List.takeWhile_cons, hentry, beq_self_eq_true, if_true,
        List.length_cons, this]
    · have hne : (entry.1 == Party.mover) = false := by simpa using hentry
      simp [callsBefore, hne]

/-! What the mover knows between its calls: the revocation has not landed, or it has, after so
many calls; or it never can, the old id being gone without it. -/

def Before (k : Nat) (new : Bool) (s : State V) : Prop :=
  (∀ entry ∈ s.trace, entry.1 = .mover) ∧ s.trace.length = k ∧
    s.state.registry.holds rotation.userId rotation.oldId = true ∧
    s.state.registry.holds rotation.userId rotation.newId = new

def After (k : Nat) (new : Bool) (s : State V) : Prop :=
  Revoked (revocation rotation) s ∧ callsBefore s.trace = k ∧
    s.state.registry.holds rotation.userId rotation.oldId = false ∧
    s.state.registry.holds rotation.userId rotation.newId = new

def Never (s : State V) : Prop :=
  ¬ Revoked (revocation rotation) s ∧
    s.state.registry.holds rotation.userId rotation.oldId = false

variable {rotation} {k : Nat} {new : Bool}

variable {s s' : State V}

theorem Before.rely (h : Before rotation k new s) (hR : rely rotation s s') :
    After rotation k new s' := by
  obtain ⟨hall, hlen, hold, hnew⟩ := h
  obtain ⟨-, hreg, htr⟩ := rely_iff.1 hR
  refine ⟨?_, ?_, ?_, ?_⟩
  · unfold Revoked
    rw [htr]
    exact List.mem_append_right _ (List.mem_singleton.2 rfl)
  · rw [htr, callsBefore_append_cons hall, hlen]
  · simp [hreg, revocation, Registry.perform]
  · simp [hreg, revocation, Registry.perform, hnew, rotation.distinct]

theorem stable_after : Stable (rely (V := V) rotation) (After rotation k new) := by
  intro s s' h hR
  obtain ⟨hmay, -, -⟩ := rely_iff.1 hR
  exact absurd (hmay.symm.trans h.2.2.1) (by simp)

theorem stable_never : Stable (rely (V := V) rotation) (Never rotation) := by
  intro s s' h hR
  obtain ⟨hmay, -, -⟩ := rely_iff.1 hR
  exact absurd (hmay.symm.trans h.2) (by simp)

theorem stable_before_or_after (k : Nat) (new : Bool) : Stable (rely (V := V) rotation) fun s =>
    Before rotation k new s ∨ After rotation k new s := by
  rintro s s' (h | h) hR
  · exact .inr (h.rely hR)
  · exact .inr (stable_after h hR)

variable {e : Call V}

theorem Before.step {n : Bool} (h : Before rotation k new s)
    (htr : s'.trace = s.trace ++ [(.mover, e)])
    (hold : s'.state.registry.holds rotation.userId rotation.oldId = true)
    (hnew : s'.state.registry.holds rotation.userId rotation.newId = n) :
    Before rotation (k + 1) n s' := by
  obtain ⟨hall, hlen, -, -⟩ := h
  refine ⟨?_, by simp [htr, hlen], hold, hnew⟩
  intro entry hentry
  rw [htr] at hentry
  rcases List.mem_append.1 hentry with h | h
  · exact hall entry h
  · rw [List.mem_singleton.1 h]

theorem After.step {n : Bool} (h : After rotation k new s)
    (htr : s'.trace = s.trace ++ [(.mover, e)])
    (hold : s'.state.registry.holds rotation.userId rotation.oldId = false)
    (hnew : s'.state.registry.holds rotation.userId rotation.newId = n) :
    After rotation k n s' := by
  obtain ⟨hrev, hk, -, -⟩ := h
  exact ⟨(revoked_append_mover htr).2 hrev, by rw [htr, callsBefore_append hrev, hk], hold, hnew⟩

theorem Never.step (h : Never rotation s) (htr : s'.trace = s.trace ++ [(.mover, e)])
    (hold : s'.state.registry.holds rotation.userId rotation.oldId = false) : Never rotation s' :=
  ⟨fun hrev => h.1 ((revoked_append_mover htr).1 hrev), hold⟩

def Caught (rotation : Rotation) (newBefore : Bool) (k : Nat) : Prop :=
  k ≤ 2 ∧ (k = 0 → rotation.wasAuthenticated = true ∨ newBefore = false)

/-- What holds once the mover is done. -/
def Outcome (rotation : Rotation) (newBefore : Bool) (s : State V) : Prop :=
  Revoked (revocation rotation) s →
    (s.state.registry.holds rotation.userId rotation.newId = false ↔
      Caught rotation newBefore (callsBefore s.trace))

theorem After.outcome {newBefore : Bool} (h : After rotation k new s)
    (hk : new = false ↔ Caught rotation newBefore k) : Outcome rotation newBefore s := by
  intro _
  rw [h.2.2.2, h.2.1]
  exact hk

theorem Never.outcome {newBefore : Bool} (h : Never rotation s) :
    Outcome rotation newBefore s := fun hrev => absurd hrev h.1

variable {newBefore : Bool}

/-- A step of the mover among those of the revoker. -/
abbrev Moves {α : Type} (rotation : Rotation) (p : Async V α) (Q : α → State V → Prop)
    (s : State V) : Prop :=
  p.Safe (traced (sem rotation) .mover) (rely rotation) (guar rotation .mover) Q s

theorem mover_registry {c : RegistryCall} {a : c.Answer}
    (h : traced (sem rotation) .mover (.registry c) s a s') :
    a = (Registry.perform c s.state.registry).1 ∧
      s'.state.registry = (Registry.perform c s.state.registry).2 ∧
      s'.trace = s.trace ++ [(.mover, .registry c)] := by
  obtain ⟨⟨ha, hw⟩, htr⟩ := h
  exact ⟨ha, by rw [hw]; rfl, htr⟩

theorem endUntracked_safe {P : State V → Prop} (hs : Stable (rely rotation) P)
    (hkeep : ∀ s s' e, P s → s'.state.registry = s.state.registry →
      s'.trace = s.trace ++ [(.mover, e)] → P s')
    (id : SessionId) {s : State V} (h : P s) :
    Moves rotation (endUntracked id) (fun _ => P) s := by
  refine Prog.Safe.call P hs h ?_
  rintro s a s' hP ⟨⟨-, hw⟩, htr⟩
  refine ⟨⟨_, htr⟩, Prog.Safe.ret P hs (hkeep s s' _ hP ?_ htr) fun _ h => h⟩
  rw [hw]
  rfl

theorem endUntracked_after (id : SessionId) {s : State V} (h : After rotation k new s) :
    Moves rotation (endUntracked id) (fun _ => After rotation k new) s := by
  refine endUntracked_safe stable_after (fun s s' e h hreg htr => ?_) id h
  exact h.step htr (hreg ▸ h.2.2.1) (hreg ▸ h.2.2.2)

theorem endUntracked_never (id : SessionId) {s : State V} (h : Never rotation s) :
    Moves rotation (endUntracked id) (fun _ => Never rotation) s := by
  refine endUntracked_safe stable_never (fun s s' e h hreg htr => ?_) id h
  exact h.step htr (hreg ▸ h.2)

theorem endRevokedRotation_after (h : After rotation k new s) :
    Moves rotation (endRevokedRotation rotation) (fun _ => After rotation k false) s := by
  refine Prog.Safe.call _ stable_after h ?_
  intro s a s' h hX
  obtain ⟨-, hreg, htr⟩ := mover_registry hX
  refine ⟨⟨_, htr⟩, endUntracked_after rotation.newId (h.step htr ?_ ?_)⟩
  · simp [hreg, Registry.perform, h.2.2.1]
  · simp [hreg, Registry.perform]

theorem endRevokedRotation_never (h : Never rotation s) :
    Moves rotation (endRevokedRotation rotation) (fun _ => Never rotation) s := by
  refine Prog.Safe.call _ stable_never h ?_
  intro s a s' h hX
  obtain ⟨-, hreg, htr⟩ := mover_registry hX
  refine ⟨⟨_, htr⟩, endUntracked_never rotation.newId (h.step htr ?_)⟩
  simp [hreg, Registry.perform, h.2]

def AfterOneOrTwo (rotation : Rotation) (new : Bool) (s : State V) : Prop :=
  ∃ k, 0 < k ∧ k ≤ 2 ∧ After rotation k new s

theorem rereadOldId_safe (unknown : UnknownLiveness) {s : State V}
    (h : Before rotation 2 true s ∨ AfterOneOrTwo rotation true s) :
    Moves rotation (rereadOldId rotation unknown) (fun r s => match r with
        | none => Before rotation 3 true s ∨ After rotation 3 true s
        | some _ => AfterOneOrTwo rotation false s) s := by
  have hstable : Stable (rely (V := V) rotation) fun s =>
      Before rotation 2 true s ∨ AfterOneOrTwo rotation true s := by
    rintro s s' (h | ⟨k, hpos, hle, h⟩) hR
    · exact .inr ⟨2, by decide, by decide, h.rely hR⟩
    · exact .inr ⟨k, hpos, hle, stable_after h hR⟩
  refine Prog.Safe.call _ hstable h ?_
  intro s a s' h hX
  obtain ⟨ha, hreg, htr⟩ := mover_registry hX
  replace hreg : s'.state.registry = s.state.registry := hreg
  refine ⟨⟨_, htr⟩, ?_⟩
  rcases h with h | ⟨k, hpos, hle, h⟩
  · have hvalid : a = .valid := ha.trans (Registry.liveness_eq_valid.2 h.2.2.1)
    subst hvalid
    have hnext : Before rotation 3 true s' := h.step htr (hreg ▸ h.2.2.1) (hreg ▸ h.2.2.2)
    exact Prog.Safe.ret _ (stable_before_or_after 3 true) (.inl hnext) fun _ h => h
  · have hgone : a = .gone := ha.trans (Registry.liveness_eq_gone.2 h.2.2.1)
    subst hgone
    have hnext : After rotation k true s' := h.step htr (hreg ▸ h.2.2.1) (hreg ▸ h.2.2.2)
    refine (endRevokedRotation_after hnext).bind fun b s hb => ?_
    exact Prog.Safe.ret _ stable_after hb fun s h => ⟨k, hpos, hle, h⟩

theorem caught_of_pos (hpos : 0 < k) (hle : k ≤ 2) : Caught rotation newBefore k :=
  ⟨hle, fun h => absurd h (Nat.ne_of_gt hpos)⟩

/-- Registering and looking again: a revocation that landed after the first or the second call
is seen by the second look, one that lands after that look is not. -/
theorem registerRotated_safe (unknown : UnknownLiveness) {s : State V}
    (h : Before rotation 1 new s) :
    Moves rotation (registerRotated rotation unknown) (fun _ s => Outcome rotation newBefore s) s := by
  refine Prog.Safe.call _ (stable_before_or_after 1 new) (.inl h) ?_
  intro s a s' h hX
  obtain ⟨ha, hreg, htr⟩ := mover_registry hX
  have htrue : a = true := ha
  subst htrue
  have hnew : s'.state.registry.holds rotation.userId rotation.newId = true := by
    simp [hreg, Registry.perform]
  have hold : s'.state.registry.holds rotation.userId rotation.oldId =
      s.state.registry.holds rotation.userId rotation.oldId := by
    simp [hreg, Registry.perform, Ne.symm rotation.distinct]
  refine ⟨⟨_, htr⟩, ?_⟩
  have hnext : Before rotation 2 true s' ∨ AfterOneOrTwo rotation true s' := by
    rcases h with h | h
    · exact .inl (h.step htr (hold.trans h.2.2.1) hnew)
    · exact .inr ⟨1, by decide, by decide, h.step htr (hold.trans h.2.2.1) hnew⟩
  refine (rereadOldId_safe unknown hnext).bind fun r s hr => ?_
  cases r with
  | some b =>
    obtain ⟨k, hpos, hle, hafter⟩ := hr
    exact Prog.Safe.ret _ stable_after hafter fun s h =>
      h.outcome (iff_of_true rfl (caught_of_pos hpos hle))
  | none =>
    refine Prog.Safe.call _ (stable_before_or_after 3 true) hr ?_
    intro s a s' h hX
    obtain ⟨-, hreg, htr⟩ := mover_registry hX
    have hold : s'.state.registry.holds rotation.userId rotation.oldId = false := by
      simp [hreg, Registry.perform]
    refine ⟨⟨_, htr⟩, ?_⟩
    rcases h with h | h
    · -- Not revoked up to here: the old id is gone now, so it cannot be revoked any more.
      have hnever : Never rotation s' := by
        refine ⟨fun hrev => ?_, hold⟩
        have hmover := h.1 _ ((revoked_append_mover htr).1 hrev)
        cases hmover
      exact Prog.Safe.ret _ stable_never hnever fun s h => h.outcome
    · have hafter : After rotation 3 true s' := by
        refine h.step htr hold ?_
        simp [hreg, Registry.perform, h.2.2.2, rotation.distinct]
      have hlost : ¬ Caught rotation newBefore 3 := fun hc => absurd hc.1 (by decide)
      exact Prog.Safe.ret _ stable_after hafter fun s h =>
        h.outcome (iff_of_false (by decide) hlost)

theorem lookNew_safe (unknown : UnknownLiveness) {s : State V}
    (h : After rotation 0 newBefore s ∨ Never rotation s) :
    Moves rotation (Reg.liveness rotation.userId rotation.newId >>= fun
      | .valid => if rotation.wasAuthenticated then endRevokedRotation rotation else pure true
      | .gone => endUntracked rotation.newId
      | .unknown => onUntracked unknown rotation.newId)
      (fun _ s => Outcome rotation newBefore s) s := by
  have hstable : Stable (rely (V := V) rotation) fun s =>
      After rotation 0 newBefore s ∨ Never rotation s := by
    rintro s s' (h | h) hR
    · exact .inl (stable_after h hR)
    · exact .inr (stable_never h hR)
  refine Prog.Safe.call _ hstable h ?_
  intro s a s' h hX
  obtain ⟨ha, hreg, htr⟩ := mover_registry hX
  replace hreg : s'.state.registry = s.state.registry := hreg
  refine ⟨⟨_, htr⟩, ?_⟩
  rcases h with h | h
  · have hnext : After rotation 0 newBefore s' := h.step htr (hreg ▸ h.2.2.1) (hreg ▸ h.2.2.2)
    cases newBefore with
    | false =>
      have hgone : a = .gone := ha.trans (Registry.liveness_eq_gone.2 h.2.2.2)
      subst hgone
      have hcaught : Caught rotation false 0 := ⟨by decide, fun _ => .inr rfl⟩
      exact (endUntracked_after _ hnext).conseq fun _ s h => h.outcome (iff_of_true rfl hcaught)
    | true =>
      have hvalid : a = .valid := ha.trans (Registry.liveness_eq_valid.2 h.2.2.2)
      subst hvalid
      by_cases hwas : rotation.wasAuthenticated = true
      · have hcaught : Caught rotation true 0 := ⟨by decide, fun _ => .inl hwas⟩
        simp only [hwas, if_true]
        exact (endRevokedRotation_after hnext).conseq fun _ s h =>
          h.outcome (iff_of_true rfl hcaught)
      · have hlost : ¬ Caught rotation true 0 := fun hc =>
          (hc.2 rfl).elim hwas (by decide)
        simp only [hwas]
        exact Prog.Safe.ret _ stable_after hnext fun s h =>
          h.outcome (iff_of_false (by decide) hlost)
  · have hnext : Never rotation s' := h.step htr (hreg ▸ h.2)
    have hnever {b : Bool} : Moves rotation (pure b) (fun _ s => Outcome rotation newBefore s) s' :=
      Prog.Safe.ret _ stable_never hnext fun s h => h.outcome
    have hend : Moves rotation (endUntracked rotation.newId)
        (fun _ s => Outcome rotation newBefore s) s' :=
      (endUntracked_never rotation.newId hnext).conseq fun _ s h => h.outcome
    cases a with
    | valid =>
      by_cases hwas : rotation.wasAuthenticated = true
      · simp only [hwas, if_true]
        exact (endRevokedRotation_never hnext).conseq fun _ s h => h.outcome
      · simp only [hwas]
        exact hnever
    | gone => exact hend
    | unknown => cases unknown with
      | accept => exact hnever
      | reject => exact hend

theorem moveRegistryEntry_safe (unknown : UnknownLiveness) {s : State V}
    (h : Before rotation 0 newBefore s ∨ Never rotation s) :
    Moves rotation (moveRegistryEntry rotation unknown) (fun _ s => Outcome rotation newBefore s) s := by
  have hstable : Stable (rely (V := V) rotation) fun s =>
      Before rotation 0 newBefore s ∨ After rotation 0 newBefore s ∨ Never rotation s := by
    rintro s s' (h | h | h) hR
    · exact .inr (.inl (h.rely hR))
    · exact .inr (.inl (stable_after h hR))
    · exact .inr (.inr (stable_never h hR))
  refine Prog.Safe.call _ hstable (h.elim .inl fun h => .inr (.inr h)) ?_
  intro s a s' h hX
  obtain ⟨ha, hreg, htr⟩ := mover_registry hX
  replace hreg : s'.state.registry = s.state.registry := hreg
  refine ⟨⟨_, htr⟩, ?_⟩
  rcases h with h | h
  · have hvalid : a = .valid := ha.trans (Registry.liveness_eq_valid.2 h.2.2.1)
    subst hvalid
    exact registerRotated_safe unknown (h.step htr (hreg ▸ h.2.2.1) (hreg ▸ h.2.2.2))
  · have hold : s.state.registry.holds rotation.userId rotation.oldId = false :=
      h.elim (fun h => h.2.2.1) fun h => h.2
    have hgone : a = .gone := ha.trans (Registry.liveness_eq_gone.2 hold)
    subst hgone
    refine lookNew_safe unknown ?_
    rcases h with h | h
    · exact .inl (h.step htr (hreg ▸ h.2.2.1) (hreg ▸ h.2.2.2))
    · exact .inr (h.step htr (hreg ▸ h.2))

def start (rotation : Rotation) (unknown : UnknownLiveness) (w : World V) :
    Pool Party (Call V) Call.Answer Bool (State V) :=
  ⟨prog rotation unknown (revocation rotation), ⟨w, []⟩⟩

theorem allSafe (rotation : Rotation) (unknown : UnknownLiveness) (w : World V) :
    Pool.AllSafe (traced (sem rotation)) (guar rotation)
      (fun i _ s => match i with
        | .mover => Outcome rotation (w.registry.holds rotation.userId rotation.newId) s
        | .revoker => Revoked (revocation rotation) s)
      (start rotation unknown w) := by
  intro i
  cases i with
  | mover =>
    refine moveRegistryEntry_safe unknown ?_
    cases hold : w.registry.holds rotation.userId rotation.oldId with
    | true => exact .inl ⟨fun _ h => absurd h List.not_mem_nil, rfl, hold, rfl⟩
    | false => exact .inr ⟨List.not_mem_nil, hold⟩
  | revoker =>
    refine revoker_safe (sem rotation .revoker) ?_ rotation unknown ⟨w, []⟩
    rintro w a w' ⟨hmay, -, rfl⟩
    exact ⟨hmay, rfl⟩

end SessionRevocation

open SessionRevocation

/-- **When a revocation of the old id ends the rotating session.** With every call answered, a
revocation of the old id issued while the registry holds it leaves the registry without the new
id exactly if the mover had made at most two calls by then (it had not looked at the old id for
the second time), and, when it had made none, the session was authenticated on arrival or the
new id was not registered yet. -/
theorem moveRegistryEntry_session_revocation (rotation : Rotation) (unknown : UnknownLiveness)
    (w : World V) (s : Pool Party (Call V) Call.Answer Bool (Race.State V))
    (moved revoked : Bool)
    (hrun : Pool.Reaches (traced (sem rotation))
      (start rotation unknown w) s)
    (hmover : s.prog .mover = .ret moved) (hrevoker : s.prog .revoker = .ret revoked) :
    s.state.state.registry.holds rotation.userId rotation.newId = false ↔
      callsBefore s.state.trace ≤ 2 ∧
        (callsBefore s.state.trace = 0 → rotation.wasAuthenticated = true ∨
          w.registry.holds rotation.userId rotation.newId = false) := by
  have hsafe := allSafe rotation unknown w
  have hrevoked : Race.Revoked (revocation rotation) s.state :=
    hrun.post hsafe hrevoker
  have houtcome : SessionRevocation.Outcome rotation
      (w.registry.holds rotation.userId rotation.newId) s.state := hrun.post hsafe hmover
  exact houtcome hrevoked

namespace SessionRevocation

def lateRun : Pool Party (Call Unit) Call.Answer Bool (Race.State Unit) :=
  Pool.replay (noting fun _ (_ : Unit) => World.perform)
    [(.mover, ()), (.mover, ()), (.mover, ()), (.revoker, ()), (.mover, ())]
    (start Race.exampleRotation .reject Race.exampleWorld)

theorem reaches_lateRun : Pool.Reaches (traced (sem Race.exampleRotation))
    (start Race.exampleRotation .reject Race.exampleWorld) lateRun := by
  let h : Pool.Answerer Party Unit (Call Unit) Call.Answer (Race.State Unit) :=
    noting fun _ _ => World.perform
  refine (Pool.reaches_stepAt h Party.mover () rfl ⟨⟨rfl, rfl⟩, rfl⟩).trans ?_
  refine (Pool.reaches_stepAt h Party.mover () rfl ⟨⟨rfl, rfl⟩, rfl⟩).trans ?_
  refine (Pool.reaches_stepAt h Party.mover () rfl ⟨⟨rfl, rfl⟩, rfl⟩).trans ?_
  refine (Pool.reaches_stepAt h Party.revoker () rfl ⟨⟨rfl, rfl, rfl⟩, rfl⟩).trans ?_
  exact Pool.reaches_stepAt h Party.mover () rfl ⟨⟨rfl, rfl⟩, rfl⟩

end SessionRevocation

theorem moveRegistryEntry_session_revocation_lateRun :
    lateRun.state.state.registry.holds ⟨7⟩ ⟨2⟩ = false ↔
      callsBefore lateRun.state.trace ≤ 2 ∧
        (callsBefore lateRun.state.trace = 0 →
          true = true ∨ Race.exampleWorld.registry.holds ⟨7⟩ ⟨2⟩ = false) :=
  moveRegistryEntry_session_revocation Race.exampleRotation .reject Race.exampleWorld
    lateRun true true reaches_lateRun rfl rfl

/-- Both are done, the revocation was made, and the session goes on under its new id. -/
theorem session_revocation_lost :
    ∃ s : Pool Party (Call Unit) Call.Answer Bool (Race.State Unit),
      Pool.Reaches (traced (sem Race.exampleRotation))
        (start Race.exampleRotation .reject Race.exampleWorld) s ∧
      s.prog .mover = .ret true ∧ s.prog .revoker = .ret true ∧
      s.state.state.registry.holds ⟨7⟩ ⟨2⟩ = true :=
  ⟨lateRun, reaches_lateRun, rfl, rfl, by decide⟩

end Axess
