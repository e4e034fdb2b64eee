import Axess.Session.MoveRegistry

/-!
# Revocations racing a rotation

The move of a registry entry against one revocation, call by call. A revocation of the whole
user is never lost (`moveRegistryEntry_user_revocation`), whichever calls fail. The revocation
of one session is in `Axess.Session.SessionRevocation`.
-/

namespace Axess

open Calls

variable {V : Type}

inductive Party where
  | mover | revoker
  deriving DecidableEq, Repr

namespace Race

abbrev State (V : Type) := Traced Party (Call V) (World V)

def prog (rotation : Rotation) (unknown : UnknownLiveness) (revocation : RegistryCall) :
    Party → Async V Bool
  | .mover => moveRegistryEntry rotation unknown
  | .revoker => do
    let _ ← await (.registry revocation)
    pure true

def guar (revocation : RegistryCall) (mayRevoke : Registry → Prop) :
    Party → State V → State V → Prop
  | .mover, s, s' => ∃ e, s'.trace = s.trace ++ [(.mover, e)]
  | .revoker, s, s' => mayRevoke s.state.registry ∧
      s'.state.registry = (Registry.perform revocation s.state.registry).2 ∧
      s'.trace = s.trace ++ [(.revoker, .registry revocation)]

abbrev rely (revocation : RegistryCall) (mayRevoke : Registry → Prop) : State V → State V → Prop :=
  Pool.others (guar revocation mayRevoke) .mover

def Revoked (revocation : RegistryCall) (s : State V) : Prop :=
  (Party.revoker, Call.registry revocation) ∈ s.trace

variable {revocation : RegistryCall} {mayRevoke : Registry → Prop}

theorem rely_iff {s s' : State V} :
    rely revocation mayRevoke s s' ↔ guar revocation mayRevoke .revoker s s' := by
  constructor
  · rintro ⟨j, hj, h⟩
    cases j with
    | mover => exact absurd rfl hj
    | revoker => exact h
  · exact fun h => ⟨.revoker, by decide, h⟩

theorem stable_mem (x : Party × Call V) :
    Stable (rely revocation mayRevoke) fun s => x ∈ s.trace := by
  intro s s' hs hR
  obtain ⟨-, -, htr⟩ := rely_iff.1 hR
  rw [htr]
  exact List.mem_append_left _ hs

theorem revoked_append_mover {s s' : State V} {e : Call V}
    (h : s'.trace = s.trace ++ [(.mover, e)]) : Revoked revocation s' ↔ Revoked revocation s := by
  simp [Revoked, h]

theorem revoker_safe (sem : Sem (Call V) Call.Answer (World V))
    (hsem : ∀ w a w', sem (.registry revocation) w a w' →
      mayRevoke w.registry ∧ w'.registry = (Registry.perform revocation w.registry).2)
    (rotation : Rotation) (unknown : UnknownLiveness) (s : State V) :
    (prog rotation unknown revocation .revoker).SafeAmong
      (traced (fun _ => sem)) (guar revocation mayRevoke) .revoker
      (fun _ s => Revoked revocation s) s := by
  refine Prog.Safe.call (fun _ => True) (fun _ _ _ _ => trivial) trivial ?_
  rintro s a s' - ⟨hX, htr⟩
  obtain ⟨hmay, hreg⟩ := hsem _ _ _ hX
  refine ⟨⟨hmay, hreg, htr⟩, ?_⟩
  refine Prog.Safe.ret (Revoked revocation) ?_ ?_ fun _ h => h
  · rintro s s' hs ⟨j, hj, hG⟩
    cases j with
    | mover =>
      obtain ⟨e, htr⟩ := hG
      exact (revoked_append_mover htr).2 hs
    | revoker => exact absurd rfl hj
  · unfold Revoked
    rw [htr]
    exact List.mem_append_right _ (List.mem_singleton.2 rfl)

def Ended (id : SessionId) (b : Bool) (s : State V) : Prop :=
  b = false ∧ (Party.mover, Call.store (.delete id)) ∈ s.trace

end Race

/-! ## Revoking the user -/

namespace UserRevocation

open Race

variable (u : UserId)

/-- The mover's calls may fail in any way; the revocation is made. -/
def sem : Party → Sem (Call V) Call.Answer (World V)
  | .mover => World.Reply
  | .revoker => World.Answers

abbrev guar : Party → State V → State V → Prop := Race.guar (.invalidateUser u) fun _ => True

abbrev rely : State V → State V → Prop := Race.rely (.invalidateUser u) fun _ => True

def Gone (id : SessionId) (s : State V) : Prop :=
  Revoked (.invalidateUser u) s → s.state.registry.holds u id = false

theorem stable_gone (id : SessionId) : Stable (rely (V := V) u) (Gone u id) := by
  intro s s' _ hR _
  obtain ⟨-, hreg, -⟩ := rely_iff.1 hR
  simp [hreg, Registry.perform]

theorem Gone.step {id : SessionId} {s s' : State V} {e : Call V} (h : Gone u id s)
    (htr : s'.trace = s.trace ++ [(.mover, e)])
    (hreg : s'.state.registry.holds u id = true → s.state.registry.holds u id = true) :
    Gone u id s' := by
  intro hrev
  have hbefore := h ((revoked_append_mover htr).1 hrev)
  cases hafter : s'.state.registry.holds u id with
  | false => rfl
  | true => rw [hreg hafter] at hbefore; exact hbefore

theorem endUntracked_safe (id : SessionId) (s : State V) :
    (endUntracked id).Safe (traced sem .mover) (rely u) (guar u .mover) (Ended id) s := by
  refine Prog.Safe.call (fun _ => True) (fun _ _ _ _ => trivial) trivial ?_
  rintro s a s' - ⟨-, htr⟩
  refine ⟨⟨_, htr⟩, ?_⟩
  refine Prog.Safe.ret _ (stable_mem (.mover, .store (.delete id))) ?_ fun _ h => ⟨rfl, h⟩
  rw [htr]
  exact List.mem_append_right _ (List.mem_singleton.2 rfl)

theorem endRevokedRotation_safe (rotation : Rotation) (s : State V) :
    (endRevokedRotation rotation).Safe (traced sem .mover) (rely u) (guar u .mover)
      (Ended rotation.newId) s := by
  refine Prog.Safe.call (fun _ => True) (fun _ _ _ _ => trivial) trivial ?_
  rintro s a s' - ⟨-, htr⟩
  exact ⟨⟨_, htr⟩, endUntracked_safe u rotation.newId s'⟩

variable (rotation : Rotation)

def Reread (r : Option Bool) (s : State V) : Prop :=
  match r with
  | none => Gone rotation.userId rotation.newId s
  | some b => Ended rotation.newId b s

theorem rereadOldId_safe {s : State V} (hs : Gone rotation.userId rotation.oldId s) :
    (rereadOldId rotation .reject).Safe (traced sem .mover) (rely rotation.userId)
      (guar rotation.userId .mover) (Reread rotation) s := by
  have hend (s : State V) : ((endRevokedRotation rotation >>= fun b => pure (some b)) :
      Async V (Option Bool)).Safe (traced sem .mover) (rely rotation.userId)
      (guar rotation.userId .mover) (Reread rotation) s := by
    refine (endRevokedRotation_safe rotation.userId rotation s).bind fun b s hb => ?_
    refine Prog.Safe.ret (Ended rotation.newId b) ?_ hb fun _ h => h
    exact fun s s' h hR => ⟨h.1, stable_mem _ h.2 hR⟩
  refine Prog.Safe.call _ (stable_gone _ _) hs ?_
  rintro s a s' hgone ⟨hX, htr⟩
  refine ⟨⟨_, htr⟩, ?_⟩
  obtain ⟨ha, hreg⟩ := World.Reply.registry hX
  cases a with
  | valid =>
    -- The old id was still held, so the user had not been revoked yet.
    have hheld : s.state.registry.holds rotation.userId rotation.oldId = true := by
      rcases ha with ha | ha
      · exact Registry.liveness_eq_valid.1 ha.symm
      · cases ha
    have hnot : ¬ Revoked (.invalidateUser rotation.userId) s' := by
      intro hrev
      have hfree := hgone ((revoked_append_mover htr).1 hrev)
      rw [hheld] at hfree
      cases hfree
    exact Prog.Safe.ret _ (stable_gone _ rotation.newId) (fun hrev => absurd hrev hnot)
      fun _ h => h
  | gone => exact hend s'
  | unknown => exact hend s'

def Settled (b : Bool) (s : State V) : Prop :=
  Gone rotation.userId rotation.newId s ∨ Ended rotation.newId b s

theorem stable_settled (b : Bool) :
    Stable (rely (V := V) rotation.userId) (Settled rotation b) := by
  rintro s s' (h | h) hR
  · exact .inl (stable_gone _ _ h hR)
  · exact .inr ⟨h.1, stable_mem _ h.2 hR⟩

theorem registerRotated_safe {s : State V} (hs : Gone rotation.userId rotation.oldId s) :
    (registerRotated rotation .reject).Safe (traced sem .mover) (rely rotation.userId)
      (guar rotation.userId .mover) (Settled rotation) s := by
  refine Prog.Safe.call _ (stable_gone _ _) hs ?_
  rintro s a s' hgone ⟨hX, htr⟩
  refine ⟨⟨_, htr⟩, ?_⟩
  obtain ⟨-, hreg⟩ := World.Reply.registry hX
  have hold : Gone rotation.userId rotation.oldId s' := by
    refine hgone.step _ htr fun hafter => ?_
    rcases hreg with hreg | hreg
    · rwa [hreg] at hafter
    · simpa [hreg, Registry.perform, Ne.symm rotation.distinct] using hafter
  cases a with
  | false => exact (endUntracked_safe _ _ s').conseq fun b s h => .inr h
  | true =>
    refine (rereadOldId_safe rotation hold).bind fun r s hr => ?_
    cases r with
    | some b => exact Prog.Safe.ret _ (stable_settled rotation b) (.inr hr) fun _ h => h
    | none =>
      refine Prog.Safe.call _ (stable_gone _ _) hr ?_
      rintro s a s' hgone ⟨hX, htr⟩
      refine ⟨⟨_, htr⟩, ?_⟩
      obtain ⟨-, hreg⟩ := World.Reply.registry hX
      have hnew : Gone rotation.userId rotation.newId s' := by
        refine hgone.step _ htr fun hafter => ?_
        rcases hreg with hreg | hreg
        · rwa [hreg] at hafter
        · simpa [hreg, Registry.perform, rotation.distinct] using hafter
      exact Prog.Safe.ret _ (stable_settled rotation true) (.inl hnew) fun _ h => h

theorem Gone.read {u v : UserId} {id i : SessionId} {s s' : State V} {a : SessionLiveness}
    (h : Gone u i s) (hX : World.Reply (.registry (.liveness v id)) s.state a s'.state)
    (htr : s'.trace = s.trace ++ [(.mover, .registry (.liveness v id))]) : Gone u i s' := by
  obtain ⟨-, hreg⟩ := World.Reply.registry hX
  refine h.step _ htr fun hafter => ?_
  rcases hreg with hreg | hreg <;> rwa [hreg] at hafter

theorem moveRegistryEntry_safe {s : State V} (hold : Gone rotation.userId rotation.oldId s)
    (hnew : Gone rotation.userId rotation.newId s) :
    (moveRegistryEntry rotation .reject).Safe (traced sem .mover) (rely rotation.userId)
      (guar rotation.userId .mover) (Settled rotation) s := by
  have hboth : Stable (rely (V := V) rotation.userId) fun s =>
      Gone rotation.userId rotation.oldId s ∧ Gone rotation.userId rotation.newId s :=
    fun s s' h hR => ⟨stable_gone _ _ h.1 hR, stable_gone _ _ h.2 hR⟩
  refine Prog.Safe.call _ hboth ⟨hold, hnew⟩ ?_
  rintro s a s' ⟨hold, hnew⟩ ⟨hX, htr⟩
  refine ⟨⟨_, htr⟩, ?_⟩
  have hold' := hold.read hX htr
  have hnew' := hnew.read hX htr
  cases a with
  | valid => exact registerRotated_safe rotation hold'
  | unknown => exact registerRotated_safe rotation hold'
  | gone =>
    refine Prog.Safe.call _ (stable_gone _ _) hnew' ?_
    rintro s a s' hnew ⟨hX, htr⟩
    refine ⟨⟨_, htr⟩, ?_⟩
    have hnew' := hnew.read hX htr
    cases a with
    | valid =>
      cases hwas : rotation.wasAuthenticated with
      | true => exact (endRevokedRotation_safe _ rotation s').conseq fun b s h => .inr h
      | false => exact Prog.Safe.ret _ (stable_settled rotation true) (.inl hnew') fun _ h => h
    | gone => exact (endUntracked_safe _ _ s').conseq fun b s h => .inr h
    | unknown => exact (endUntracked_safe _ _ s').conseq fun b s h => .inr h

def start (w : World V) : Pool Party (Call V) Call.Answer Bool (State V) :=
  ⟨prog rotation .reject (.invalidateUser rotation.userId), ⟨w, []⟩⟩

theorem allSafe (w : World V) :
    Pool.AllSafe (traced sem) (guar rotation.userId)
      (fun i b s => match i with
        | .mover => Settled rotation b s
        | .revoker => Revoked (.invalidateUser rotation.userId) s)
      (start rotation w) := by
  have hstart (id : SessionId) : Gone rotation.userId id (⟨w, []⟩ : State V) :=
    fun hrev => absurd hrev List.not_mem_nil
  intro i
  cases i with
  | mover => exact moveRegistryEntry_safe rotation (hstart _) (hstart _)
  | revoker =>
    refine revoker_safe World.Answers ?_ rotation .reject ⟨w, []⟩
    rintro w a w' ⟨-, rfl⟩
    exact ⟨trivial, rfl⟩

end UserRevocation

/-- **A user-wide revocation is never lost to a rotation.** Whatever calls of the mover fail, and
wherever the revocation lands among them, once both are done the registry does not hold the new
id, or the mover answered `false` and asked the store to delete the row under it. -/
theorem moveRegistryEntry_user_revocation (rotation : Rotation) (w : World V)
    (s : Pool Party (Call V) Call.Answer Bool (Race.State V)) (moved revoked : Bool)
    (hrun : Pool.Reaches (traced UserRevocation.sem) (UserRevocation.start rotation w) s)
    (hmover : s.prog .mover = .ret moved) (hrevoker : s.prog .revoker = .ret revoked) :
    s.state.state.registry.holds rotation.userId rotation.newId = false ∨
      (moved = false ∧ (Party.mover, Call.store (.delete rotation.newId)) ∈ s.state.trace) := by
  have hsafe := UserRevocation.allSafe rotation w
  have hrevoked : Race.Revoked (.invalidateUser rotation.userId) s.state :=
    hrun.post hsafe hrevoker
  have hsettled : UserRevocation.Settled rotation moved s.state := hrun.post hsafe hmover
  rcases hsettled with hgone | hended
  · exact .inl (hgone hrevoked)
  · exact .inr hended

def Race.exampleRotation : Rotation where
  wasAuthenticated := true
  userId := ⟨7⟩
  oldId := ⟨1⟩
  newId := ⟨2⟩
  distinct := by decide

def Race.exampleWorld : World Unit :=
  { World.empty with registry := fun u => if u = ⟨7⟩ then [⟨1⟩] else [] }

def UserRevocation.exampleRun : Pool Party (Call Unit) Call.Answer Bool (Race.State Unit) :=
  Pool.replay (noting fun _ (_ : Unit) => World.perform)
    [(.mover, ()), (.mover, ()), (.revoker, ()), (.mover, ()), (.mover, ()), (.mover, ())]
    (UserRevocation.start Race.exampleRotation Race.exampleWorld)

theorem moveRegistryEntry_user_revocation_exampleRun :
    UserRevocation.exampleRun.state.state.registry.holds ⟨7⟩ ⟨2⟩ = false ∨
      (false = false ∧ (Party.mover, Call.store (.delete ⟨2⟩)) ∈
        UserRevocation.exampleRun.state.trace) := by
  refine moveRegistryEntry_user_revocation Race.exampleRotation Race.exampleWorld
    UserRevocation.exampleRun false true (Pool.reaches_replay ?_ _ _) rfl rfl
  refine traced_noting fun i c e w => ?_
  cases i with
  | mover => exact .inl ⟨rfl, rfl⟩
  | revoker => exact ⟨rfl, rfl⟩

end Axess
