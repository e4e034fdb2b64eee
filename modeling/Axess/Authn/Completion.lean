import Axess.Session.Created
import Axess.Authn.SessionCap
import Axess.Authn.Revocation

/-!
# Logins that complete while their user is revoked

Any number of requests complete logins and step-ups of one user, and one party revokes the user,
call by call in any order. A request enters the registry twice: the service registers the new id
before its last checks, and the layer registers it again when it moves the entry of the id the
request arrived with.

The revoking party first changes the account, then removes the user from the registry. Once the
change is made the last check of the service turns a login away (`barred`), and once the user is
removed the layer finds no entry to move: an id that the registry holds from then on belongs to a
request that is still running.
-/

namespace Axess

open Calls

variable {V ι : Type}

inductive Act (V : Type) where
  | call (c : Call V)
  | arrive
  | respond

abbrev Act.Answer : Act V → Type
  | call c => c.Answer
  | arrive => Unit
  | respond => Unit

/-- A request whose last factor has just been verified: its session is authenticated, under an id
it rotated to. -/
structure Completion (V : Type) where
  service : LoginService
  tenantId : TenantId
  session : SessionInner V
  oldId : SessionId
  rotated : session.preCycleId = some oldId
  request : Request
  existingId : Option SessionId

namespace Completion

def ids (c : Completion V) : Set SessionId :=
  { id | id = c.session.id ∨ ∃ n, id = c.session.rng.get n }

structure Owns (c : Completion V) (s : SessionInner V) : Prop where
  old : s.preCycleId = some c.oldId
  id : s.id ∈ c.ids
  rng : ∀ n, s.rng.get n ∈ c.ids

theorem owns (c : Completion V) : c.Owns c.session :=
  ⟨c.rotated, .inl rfl, fun n => .inr ⟨n, rfl⟩⟩

variable {c : Completion V} {s t : SessionInner V}

theorem Owns.stays (h : c.Owns s) (hstay : s.Stays t) : c.Owns t where
  old := hstay.preCycleId.trans h.old
  id := hstay.id ▸ h.id
  rng := hstay.rng ▸ h.rng

theorem Owns.clear (h : c.Owns s) : c.Owns (AuthSession.clear s) where
  old := by
    show some (s.preCycleId.getD s.id) = some c.oldId
    rw [h.old]
    rfl
  id := h.rng 0
  rng n := h.rng (n + 1)

theorem Owns.moved_id (h : c.Owns s) : s.moved.id ∈ c.ids := by
  unfold SessionInner.moved
  rw [h.old]
  exact h.id

variable [JsonValue V FlowStamp] [BEq V] [JsonSize V]

def run (layer : SessionLayer) (u : UserId) (c : Completion V) : Async V Unit := do
  let (_, s) ← c.service.completeFactorStep ⟨c.tenantId, u⟩ c.session
  let _ ← finishRequest layer c.request s c.existingId
  pure ()

end Completion

def Act.lift {α : Type} (p : Async V α) : Prog (Act V) Act.Answer α :=
  p.expand fun c => Prog.perform (.call c)

namespace Completing

/-- The world and the calls so far. The requests are numbered; the revoking party has no number. -/
abbrev State (V ι : Type) := Traced (Option ι) (Act V) (World V)

def Responded (i : ι) (s : State V ι) : Prop := (some i, Act.respond) ∈ s.trace

def Revoked (u : UserId) (s : State V ι) : Prop :=
  (none, Act.call (.registry (.invalidateUser u))) ∈ s.trace

variable (login : ι → Completion V)

/-- An id leaves the server with the response: a request arrives with the id of another only once
that one has been answered. -/
def Arrives (i : Option ι) (s : State V ι) : Prop :=
  ∀ k, i = some k → ∀ j, (login k).oldId ∈ (login j).ids → Responded j s

def Acts (X : Option ι → Sem (Call V) Call.Answer (World V)) (i : Option ι) :
    (e : Act V) → State V ι → e.Answer → World V → Prop
  | .call c, s, a, w => X i c s.state a w
  | .arrive, s, _, w => w = s.state ∧ Arrives login i s
  | .respond, s, _, w => w = s.state

def sem (X : Option ι → Sem (Call V) Call.Answer (World V)) (i : Option ι) :
    Sem (Act V) Act.Answer (State V ι) :=
  fun e s a s' => Acts login X i e s a s'.state ∧ s'.trace = s.trace ++ [(i, e)]

def prog [JsonValue V FlowStamp] [BEq V] [JsonSize V] (layer : SessionLayer) (u : UserId)
    (revoker : Async V (Except AuthnError Unit)) :
    Option ι → Prog (Act V) Act.Answer (Except AuthnError Unit)
  | none => Act.lift revoker
  | some i => do
    Prog.perform (Act.arrive : Act V)
    Act.lift ((login i).run layer u)
    Prog.perform (Act.respond : Act V)
    pure (.ok ())

variable (u : UserId) (Barred : Identity → Prop)

def Clear (ids : Set SessionId) (s : State V ι) : Prop :=
  Revoked u s → ∀ id ∈ ids, s.state.registry.holds u id = false

structure Inv (s : State V ι) : Prop where
  barred : Revoked u s → Barred s.state.identity
  owned : Revoked u s → ∀ id, s.state.registry.holds u id = true → ∃ j, id ∈ (login j).ids
  gone : ∀ j, Responded j s → Clear u (login j).ids s

structure LoginStep (i : ι) (s s' : State V ι) : Prop where
  trace : ∃ e, s'.trace = s.trace ++ [(some i, e)]
  identity : s'.state.identity = s.state.identity
  registers : ∀ id, s'.state.registry.holds u id = true →
    s.state.registry.holds u id = true ∨ id ∈ (login i).ids ∧ ¬Responded i s
  responds : Responded i s' → ¬Responded i s → Clear u (login i).ids s'

structure RevokerStep (s s' : State V ι) : Prop where
  trace : ∃ e, s'.trace = s.trace ++ [(none, e)]
  barred : Barred s.state.identity → Barred s'.state.identity
  registers : ∀ id, s'.state.registry.holds u id = true → s.state.registry.holds u id = true
  revokes : Revoked u s' → ¬Revoked u s →
    Barred s'.state.identity ∧ ∀ id, s'.state.registry.holds u id = false

def guar : Option ι → State V ι → State V ι → Prop
  | some i => LoginStep login u i
  | none => RevokerStep u Barred

variable {login u Barred} {s s' : State V ι} {i j : ι}

variable {k : Option ι}

theorem Responded.step {e : Act V} (h : Responded j s) (htrace : s'.trace = s.trace ++ [(k, e)]) :
    Responded j s' := by
  unfold Responded
  rw [htrace]
  exact List.mem_append_left _ h

theorem Responded.of_step {e : Act V} (h : Responded j s') (htrace : s'.trace = s.trace ++ [(k, e)]) :
    Responded j s ∨ k = some j ∧ e = .respond := by
  unfold Responded at h
  rw [htrace, List.mem_append, List.mem_singleton] at h
  refine h.imp_right fun heq => ?_
  cases heq
  exact ⟨rfl, rfl⟩

theorem LoginStep.revoked (h : LoginStep login u i s s') : Revoked u s' ↔ Revoked u s := by
  obtain ⟨e, htrace⟩ := h.trace
  simp [Revoked, htrace]

theorem RevokerStep.responded (h : RevokerStep u Barred s s') : Responded j s' ↔ Responded j s := by
  obtain ⟨e, htrace⟩ := h.trace
  simp [Responded, htrace]

variable {ids : Set SessionId}

theorem Clear.mono {ids' : Set SessionId} (h : Clear u ids s) (hsub : ids' ⊆ ids) :
    Clear u ids' s :=
  fun hrev id hid => h hrev id (hsub hid)

theorem Clear.step (h : Clear u ids s) (hrev : Revoked u s' → Revoked u s)
    (hreg : ∀ id ∈ ids, s'.state.registry.holds u id = true → s.state.registry.holds u id = true) :
    Clear u ids s' := by
  intro hrevoked id hid
  have hbefore := h (hrev hrevoked) id hid
  cases hafter : s'.state.registry.holds u id with
  | false => rfl
  | true => exact ((hreg id hid hafter).symm.trans hbefore)

theorem RevokerStep.clear (h : RevokerStep u Barred s s') (hs : Clear u ids s) :
    Clear u ids s' := by
  by_cases hrev : Revoked u s
  · exact hs.step (fun _ => hrev) fun id _ => h.registers id
  · exact fun hrev' id _ => (h.revokes hrev' hrev).2 id

variable (hids : Pairwise fun i j => Disjoint (login i).ids (login j).ids)

section
include hids

theorem LoginStep.clear {ids : Set SessionId} (h : LoginStep login u j s s') (hne : j ≠ i)
    (hsub : ids ⊆ (login i).ids) (hs : Clear u ids s) : Clear u ids s' := by
  refine hs.step h.revoked.1 fun id hid hheld => ?_
  rcases h.registers id hheld with hin | ⟨hown, -⟩
  · exact hin
  · exact absurd (hsub hid) (Set.disjoint_left.1 (hids hne) hown)

theorem Inv.loginStep (hs : Inv login u Barred s) (h : LoginStep login u i s s') :
    Inv login u Barred s' where
  barred hrev := h.identity ▸ hs.barred (h.revoked.1 hrev)
  owned hrev id hheld := by
    rcases h.registers id hheld with hin | ⟨hown, -⟩
    · exact hs.owned (h.revoked.1 hrev) id hin
    · exact ⟨i, hown⟩
  gone k hk := by
    by_cases hbefore : Responded k s
    · -- an answered request registers nothing more, and another one only its own ids
      by_cases hki : k = i
      · subst hki
        refine (hs.gone k hbefore).step h.revoked.1 fun id _ hheld => ?_
        exact (h.registers id hheld).resolve_right fun hnew => hnew.2 hbefore
      · exact h.clear hids (Ne.symm hki) (Set.Subset.refl _) (hs.gone k hbefore)
    · obtain ⟨e, htrace⟩ := h.trace
      obtain ⟨hki, -⟩ := (hk.of_step htrace).resolve_left hbefore
      cases hki
      exact h.responds hk hbefore

end

theorem Inv.revokerStep (hs : Inv login u Barred s) (h : RevokerStep u Barred s s') :
    Inv login u Barred s' := by
  refine ⟨fun hrev => ?_, fun hrev id hheld => ?_, fun k hk => ?_⟩
  · by_cases hbefore : Revoked u s
    · exact h.barred (hs.barred hbefore)
    · exact (h.revokes hrev hbefore).1
  · by_cases hbefore : Revoked u s
    · exact hs.owned hbefore id (h.registers id hheld)
    · rw [(h.revokes hrev hbefore).2 id] at hheld
      cases hheld
  · exact h.clear (hs.gone k (h.responded.1 hk))

include hids in
theorem Inv.step (hs : Inv login u Barred s) (h : guar login u Barred k s s') :
    Inv login u Barred s' := by
  cases k with
  | none => exact hs.revokerStep h
  | some i => exact hs.loginStep hids h

variable (login u Barred) in
structure Pending (i : ι) (ids : Set SessionId) (s : State V ι) : Prop where
  inv : Inv login u Barred s
  unanswered : ¬Responded i s
  clear : Clear u ids s

variable (login u Barred) in
/-- Request `i` has arrived, with an id that is nobody's who is still running. -/
structure Running (i : ι) (ids : Set SessionId) (s : State V ι) : Prop extends
    Pending login u Barred i ids s where
  arrived : ∀ j, (login i).oldId ∈ (login j).ids → Responded j s

variable (login u Barred) in
abbrev rely (i : ι) : State V ι → State V ι → Prop := Pool.others (guar login u Barred) (some i)

theorem guar_trace (h : guar login u Barred k s s') : ∃ e, s'.trace = s.trace ++ [(k, e)] := by
  cases k with
  | none => exact RevokerStep.trace h
  | some j => exact LoginStep.trace h

include hids in
theorem pending_stable (hsub : ids ⊆ (login i).ids) :
    Stable (rely login u Barred i) (Pending login u Barred i ids) := by
  rintro s s' hs ⟨k, hk, h⟩
  obtain ⟨e, htrace⟩ := guar_trace h
  refine ⟨hs.inv.step hids h, fun hres => ?_, ?_⟩
  · exact hk ((hres.of_step htrace).resolve_left hs.unanswered).1
  · cases k with
    | none => exact RevokerStep.clear h hs.clear
    | some j => exact LoginStep.clear hids h (fun heq => hk (congrArg some heq)) hsub hs.clear

include hids in
theorem running_stable (hsub : ids ⊆ (login i).ids) :
    Stable (rely login u Barred i) (Running login u Barred i ids) := by
  rintro s s' hs hR
  refine ⟨pending_stable hids hsub hs.toPending hR, fun j hj => ?_⟩
  obtain ⟨k, -, h⟩ := hR
  obtain ⟨e, htrace⟩ := guar_trace h
  exact (hs.arrived j hj).step htrace

theorem Running.mono {ids' : Set SessionId} (hs : Running login u Barred i ids s)
    (hsub : ids' ⊆ ids) : Running login u Barred i ids' s :=
  ⟨⟨hs.inv, hs.unanswered, hs.clear.mono hsub⟩, hs.arrived⟩

abbrev calls (login : ι → Completion V) (X : Option ι → Sem (Call V) Call.Answer (World V))
    (i : ι) : Sem (Call V) Call.Answer (State V ι) :=
  fun c => sem login X (some i) (.call c)

def Quiet (e : Call V) : Prop := e.OnRows ∨ World.ReadsIdentity e

/-- The registry answers every call of a request, and the accounts are not changed by one. The
session store may do anything. -/
structure Served (X : Option ι → Sem (Call V) Call.Answer (World V)) : Prop where
  registry : ∀ i c w a w', X (some i) (.registry c) w a w' →
    a = (Registry.perform c w.registry).1 ∧ w'.registry = (Registry.perform c w.registry).2 ∧
      w'.identity = w.identity
  quiet : ∀ i e w a w', Quiet e → X (some i) e w a w' →
    w'.registry = w.registry ∧ w'.identity = w.identity

variable {X : Option ι → Sem (Call V) Call.Answer (World V)} {ids : Set SessionId}

include hids in
theorem Running.call {c : Call V} {a : c.Answer} (hs : Running login u Barred i ids s)
    (hX : calls login X i c s a s') (hidentity : s'.state.identity = s.state.identity)
    (hreg : ∀ id, s'.state.registry.holds u id = true →
      s.state.registry.holds u id = true ∨ id ∈ (login i).ids) {ids' : Set SessionId}
    (hclear : Clear u ids' s') :
    guar login u Barred (some i) s s' ∧ Running login u Barred i ids' s' := by
  have hunanswered : ¬Responded i s' := by
    intro hres
    rcases hres.of_step hX.2 with h | ⟨-, h⟩
    · exact hs.unanswered h
    · cases h
  have hstep : LoginStep login u i s s' :=
    ⟨⟨_, hX.2⟩, hidentity, fun id hheld => (hreg id hheld).imp_right (⟨·, hs.unanswered⟩),
      fun hres => absurd hres hunanswered⟩
  exact ⟨hstep, ⟨hs.inv.loginStep hids hstep, hunanswered, hclear⟩,
    fun j hj => (hs.arrived j hj).step hX.2⟩

theorem revoked_call {c : Call V} {a : c.Answer} (hX : calls login X i c s a s') :
    Revoked u s' → Revoked u s := by
  unfold Revoked
  rw [hX.2]
  simp

theorem Running.not_revoked (hs : Running login u Barred i ids s)
    (hheld : s.state.registry.holds u (login i).oldId = true) : ¬Revoked u s := by
  intro hrev
  obtain ⟨j, hj⟩ := hs.inv.owned hrev _ hheld
  have hgone := hs.inv.gone j (hs.arrived j hj) hrev _ hj
  rw [hheld] at hgone
  cases hgone

section

variable (hX : Served X)
include hids hX

theorem Running.less {c : RegistryCall} {a : c.Answer} (hs : Running login u Barred i ids s)
    (hc : ∀ reg id, (Registry.perform c reg).2.holds u id = true → reg.holds u id = true)
    (hcall : calls login X i (.registry c) s a s') :
    guar login u Barred (some i) s s' ∧ Running login u Barred i ids s' := by
  obtain ⟨-, hreg, hidentity⟩ := hX.registry i c _ _ _ hcall.1
  refine hs.call hids hcall hidentity (fun id hheld => .inl (hc _ _ (hreg ▸ hheld))) ?_
  exact hs.clear.step (revoked_call hcall) fun id _ hheld => hc _ _ (hreg ▸ hheld)

theorem Running.remove {v : UserId} {x : SessionId} {a} (hs : Running login u Barred i ids s)
    (hcall : calls login X i (.registry (.invalidateSession v x)) s a s') :
    guar login u Barred (some i) s s' ∧
      Running login u Barred i { id | id ∈ ids ∨ v = u ∧ id = x } s' := by
  obtain ⟨-, hreg, -⟩ := hX.registry i _ _ _ _ hcall.1
  obtain ⟨hG, hs'⟩ := hs.less hids hX (fun reg id hheld => by
    simp only [Registry.perform, Registry.holds_invalidateSession, Bool.and_eq_true] at hheld
    exact hheld.1) hcall
  refine ⟨hG, ⟨hs'.inv, hs'.unanswered, ?_⟩, hs'.arrived⟩
  rintro hrev id (hid | ⟨rfl, rfl⟩)
  · exact hs'.clear hrev id hid
  · rw [hreg]
    simp [Registry.perform]

theorem Running.register {v : UserId} {x : SessionId} {a}
    (hs : Running login u Barred i ids s) (hx : x ∈ (login i).ids)
    (hcall : calls login X i (.registry (.register v x)) s a s') :
    a = true ∧ guar login u Barred (some i) s s' ∧
      Running login u Barred i { id | id ∈ ids ∧ ¬(v = u ∧ id = x) } s' := by
  obtain ⟨ha, hreg, hidentity⟩ := hX.registry i _ _ _ _ hcall.1
  have hmore (id : SessionId) (hheld : s'.state.registry.holds u id = true) :
      s.state.registry.holds u id = true ∨ v = u ∧ id = x := by
    rw [hreg] at hheld
    simp only [Registry.perform, Registry.holds_register, Bool.or_eq_true, Bool.and_eq_true,
      beq_iff_eq] at hheld
    exact hheld.imp_right fun h => ⟨h.1, h.2.symm⟩
  refine ⟨ha, hs.call hids hcall hidentity (fun id hheld => ?_) ?_⟩
  · exact (hmore id hheld).imp_right fun ⟨_, heq⟩ => heq ▸ hx
  · refine (hs.clear.mono fun id hid => hid.1).step (revoked_call hcall) fun id hid hheld => ?_
    exact (hmore id hheld).resolve_right hid.2

end

/-! ## What a request does -/

def Tame : Call V → Prop
  | .registry (.liveness ..) => True
  | .registry (.heldSessions _) => True
  | .registry (.invalidateSession ..) => True
  | .registry _ => False
  | e => Quiet e

theorem Quiet.tame {e : Call V} (h : Quiet e) : Tame e := by
  cases e with
  | registry c => exact h.elim False.elim False.elim
  | store c => exact h
  | identity c => exact h
  | deliver key value => exact h

variable (login u Barred X) in
abbrev Among {α : Type} (i : ι) (p : Async V α) (Q : α → State V ι → Prop) (s : State V ι) : Prop :=
  p.Safe (calls login X i) (rely login u Barred i) (guar login u Barred (some i)) Q s

section

variable (hX : Served X)
include hids hX

theorem Running.tame {e : Call V} {a : e.Answer} (hs : Running login u Barred i ids s)
    (he : Tame e) (hcall : calls login X i e s a s') :
    guar login u Barred (some i) s s' ∧ Running login u Barred i ids s' := by
  have hquiet (hquiet : Quiet e) :
      guar login u Barred (some i) s s' ∧ Running login u Barred i ids s' := by
    obtain ⟨hreg, hidentity⟩ := hX.quiet i e _ _ _ hquiet hcall.1
    refine hs.call hids hcall hidentity (fun id hheld => .inl (hreg ▸ hheld)) ?_
    exact hs.clear.step (revoked_call hcall) fun id _ hheld => hreg ▸ hheld
  cases e with
  | store c => exact hquiet he
  | identity c => exact hquiet he
  | deliver key value => exact hquiet he
  | registry c =>
    cases c with
    | liveness v x => exact hs.less (c := .liveness v x) hids hX (fun _ _ h => h) hcall
    | heldSessions v => exact hs.less (c := .heldSessions v) hids hX (fun _ _ h => h) hcall
    | invalidateSession v x =>
      obtain ⟨hG, hs'⟩ := hs.remove hids hX hcall
      exact ⟨hG, hs'.mono fun id hid => .inl hid⟩
    | register v x => cases he
    | invalidateUser v => cases he

theorem tame_among {α : Type} {p : Async V α} {T : α → Prop} (hp : p.Within Tame T)
    (hsub : ids ⊆ (login i).ids) (hs : Running login u Barred i ids s) :
    Among login u Barred X i p (fun a s => T a ∧ Running login u Barred i ids s) s :=
  hp.safe (running_stable hids hsub) (fun _ _ _ _ he hcall hI => hI.tame hids hX he hcall) hs

theorem evictSessions_among (victims : List SessionId) (hs : Running login u Barred i ids s) :
    Among login u Barred X i (evictSessions u victims) (fun _ => Running login u Barred i
      { id | id ∈ (login i).ids ∧ (id ∈ ids ∨ id ∈ victims) }) s := by
  -- what is evicted already is out
  let out (xs : List SessionId) : Set SessionId :=
    { id | id ∈ (login i).ids ∧ (id ∈ ids ∨ id ∈ victims ∧ id ∉ xs) }
  have hstart : Running login u Barred i (out victims) s :=
    hs.mono fun id hid => hid.2.resolve_right fun h => h.2 h.1
  refine (evictSessions_safe (fun xs => Running login u Barred i (out xs))
    (fun xs => running_stable hids fun id hid => hid.1) ?_ victims hstart).conseq ?_
  · intro x xs s a s' hs hcall
    obtain ⟨hG, hs'⟩ := hs.remove hids hX hcall
    refine ⟨hG, hs'.mono fun id hid => ?_⟩
    by_cases hx : id = x
    · exact .inr ⟨rfl, hx⟩
    · refine .inl ⟨hid.1, hid.2.imp_right fun h => ⟨h.1, ?_⟩⟩
      rw [List.mem_cons, not_or]
      exact ⟨hx, h.2⟩
  · exact fun _ s hs => hs.mono fun id hid => ⟨hid.1, hid.2.imp_right (⟨·, List.not_mem_nil⟩)⟩

end

abbrev Settled (login : ι → Completion V) (u : UserId) (Barred : Identity → Prop) (i : ι) :
    State V ι → Prop :=
  Running login u Barred i (login i).ids

abbrev Exposed (login : ι → Completion V) (u : UserId) (Barred : Identity → Prop) (i : ι)
    (v : UserId) (sid : SessionId) : State V ι → Prop :=
  Running login u Barred i { id | id ∈ (login i).ids ∧ ¬(v = u ∧ id = sid) }

theorem exposed_subset (i : ι) (v : UserId) (sid : SessionId) :
    { id | id ∈ (login i).ids ∧ ¬(v = u ∧ id = sid) } ⊆ (login i).ids :=
  fun _ hid => hid.1

theorem Running.settle (hs : Running login u Barred i ids s) (hrev : ¬Revoked u s) :
    Settled login u Barred i s :=
  ⟨⟨hs.inv, hs.unanswered, fun h => absurd h hrev⟩, hs.arrived⟩

section Service

variable (hX : Served X) {service : LoginService} {sid : SessionId} {v : UserId}

theorem makeRoom_tame : (service.makeRoom v sid : Async V Bool).Only Tame := by
  unfold LoginService.makeRoom
  cases service.maxSessionsPerUser with
  | none => trivial
  | some max =>
    have hevict (victims : List SessionId) : (evictSessions v victims : Async V Unit).Only Tame := by
      induction victims with
      | nil => trivial
      | cons x xs ih => exact ⟨trivial, fun _ => ih⟩
    refine ⟨trivial, fun answer => ?_⟩
    cases answer with
    | error e => trivial
    | ok active => exact (hevict _).bind fun _ => trivial

include hids hX

theorem Running.withdraw {a} (hs : Exposed login u Barred i v sid s)
    (hcall : calls login X i (.registry (.invalidateSession v sid)) s a s') :
    guar login u Barred (some i) s s' ∧ Settled login u Barred i s' := by
  obtain ⟨hG, hs'⟩ := hs.remove hids hX hcall
  refine ⟨hG, hs'.mono fun id hid => ?_⟩
  by_cases hx : v = u ∧ id = sid
  · exact .inr hx
  · exact .inl ⟨hid, hx⟩

theorem trimSessions_among (hs : Exposed login u Barred i u sid s) :
    Among login u Barred X i (service.trimSessions u sid) (fun kept s =>
      (kept = true → Exposed login u Barred i u sid s) ∧
        (kept = false → Settled login u Barred i s)) s := by
  have hstable : Stable (rely login u Barred i) (Exposed login u Barred i u sid) :=
    running_stable hids (exposed_subset i u sid)
  unfold LoginService.trimSessions
  cases service.maxSessionsPerUser with
  | none =>
    exact Prog.Safe.ret _ hstable hs fun s hs => ⟨fun _ => hs, fun h => by cases h⟩
  | some max =>
    refine Prog.Safe.perform_bind _ hstable hs fun s a s' hs hcall => ?_
    obtain ⟨ha, -⟩ := hX.registry i _ _ _ _ hcall.1
    obtain ⟨hG, hs'⟩ := hs.tame hids hX (e := .registry (.heldSessions u)) trivial hcall
    refine ⟨hG, ?_⟩
    subst ha
    refine Prog.Safe.bind (evictSessions_among hids hX _ hs') fun _ s hs => ?_
    refine Prog.Safe.ret _ (running_stable hids fun id hid => hid.1) hs fun s hs => ⟨fun _ => ?_, ?_⟩
    · exact hs.mono fun id hid => ⟨hid.1, .inl hid⟩
    · intro hkept
      refine hs.mono fun id hid => ⟨hid, ?_⟩
      by_cases hx : id = sid
      · refine .inr (hx ▸ ?_)
        simpa using hkept
      · exact .inl ⟨hid, fun h => hx h.2⟩

theorem refuseRegistered_among {α : Type} {answer : Except AuthnError α} {t : SessionInner V}
    (hs : Exposed login u Barred i u sid s) (hown : (login i).Owns t) :
    Among login u Barred X i (LoginService.refuseRegistered u sid answer t) (fun r s =>
      (login i).Owns r.2 ∧ Settled login u Barred i s) s := by
  refine Prog.Safe.call _ (running_stable hids (exposed_subset i u sid)) hs
    fun s a s' hs hcall => ?_
  obtain ⟨hG, hs'⟩ := hs.withdraw hids hX hcall
  exact ⟨hG, Prog.Safe.ret _ (running_stable hids (Set.Subset.refl _)) hs'
    fun _ hs => ⟨hown.clear, hs⟩⟩

end Service

section Login

variable [JsonValue V FlowStamp] [BEq V] [JsonSize V]
variable (hX : Served X) {service : LoginService} {sid : SessionId} {t : SessionInner V}

omit [JsonValue V FlowStamp] [BEq V] [JsonSize V] in
theorem stampIsCurrent_quiet (scope : UserScope) (stamp : FlowStamp) :
    (service.stampIsCurrent scope stamp : Async V _).Only Quiet := by
  refine Prog.Only.bind (p := service.storedPasswordIdentity scope) ?_ fun password => ?_
  · refine ⟨.inr trivial, fun answer => ?_⟩
    rcases answer with e | _ | ⟨own, config⟩
    · trivial
    · trivial
    · cases config <;> trivial
  · cases password with
    | error e => trivial
    | ok password =>
      refine Prog.Only.bind (p := service.stampSteps scope stamp) ?_ fun steps => ?_
      · unfold LoginService.stampSteps
        cases stamp.steps with
        | some steps => trivial
        | none =>
          refine ⟨.inr trivial, fun answer => ?_⟩
          cases answer with
          | error e => trivial
          | ok methods =>
            dsimp only [Prog.bind]
            split <;> trivial
      · cases steps <;> trivial

theorem flowStillCurrent_quiet (scope : UserScope) (t : SessionInner V) :
    (service.flowStillCurrent scope t).Within Quiet fun r => t.Stays r.2 := by
  refine Prog.Within.bind ((takeCustom_stays t loginFlowKey).mono (fun _ he => .inl he.onRows)
    fun _ ht => ht) fun r hr => ?_
  obtain ⟨taken, t'⟩ := r
  cases taken with
  | none => exact hr
  | some value =>
    dsimp only
    cases (fromValue value : Option FlowStamp) with
    | none => exact hr
    | some stamp => exact Prog.Within.bind (stampIsCurrent_quiet scope stamp) fun _ _ => hr

omit [JsonValue V FlowStamp] [BEq V] [JsonSize V] in
theorem recordLogin_tame (scope : UserScope) (hown : (login i).Owns t) :
    (service.recordLogin scope sid t).Within Tame fun r => (login i).Owns r.2 := by
  have hkeep : (login i).Owns (AuthSession.sessionId t).2 := hown.stays ⟨rfl, rfl, rfl, rfl⟩
  have hend : (service.endSessionAfterAuditFailure scope.userId t).Within Tame (login i).Owns := by
    unfold AuthnService.endSessionAfterAuditFailure
    simp only
    split
    · exact ⟨trivial, fun _ => hkeep.clear⟩
    · exact hkeep.clear
  refine ⟨.inr trivial, fun _ => ⟨.inr trivial, fun audited => ?_⟩⟩
  cases audited with
  | ok _ => exact ⟨.inr trivial, fun _ => hown⟩
  | error e =>
    show Prog.Within _ _ (service.endSessionAfterAuditFailure scope.userId t >>= fun t => pure (_, t))
    exact Prog.Within.bind hend fun _ h => h

theorem checkUntracked_tame (scope : UserScope) (hown : (login i).Owns t) :
    (service.checkUntracked scope t).Within Tame fun r => (login i).Owns r.2 := by
  refine Prog.Within.bind ((flowStillCurrent_quiet scope t).mono (fun _ he => he.tame)
    fun _ ht => ht) fun r hr => ?_
  obtain ⟨current, t'⟩ := r
  rcases current with e | _ | _
  · exact (hown.stays hr).clear
  · exact (hown.stays hr).clear
  · exact hown.stays hr

variable (login u Barred X service) in
def ChecksOut (i : ι) (scope : UserScope) : Prop :=
  ∀ sid t s, (login i).Owns t → Exposed login u Barred i u sid s →
    Among login u Barred X i (service.checkRegistered scope sid t) (fun r s =>
      (login i).Owns r.2 ∧ Settled login u Barred i s) s

include hids hX

theorem registerTracked_among {tenantId : TenantId}
    (hcheck : ChecksOut login u Barred X service i ⟨tenantId, u⟩) (hown : (login i).Owns t)
    (hsid : sid ∈ (login i).ids) (hs : Settled login u Barred i s) :
    Among login u Barred X i (service.registerTracked ⟨tenantId, u⟩ sid t) (fun r s =>
      (login i).Owns r.2 ∧ Settled login u Barred i s) s := by
  have hstable : Stable (rely login u Barred i) (Settled login u Barred i) :=
    running_stable hids (Set.Subset.refl _)
  have hcleared {s : State V ι} (hs : Settled login u Barred i s) :
      Among login u Barred X i (pure (.error .noFlow, AuthSession.clear t)) (fun r s =>
        (login i).Owns r.2 ∧ Settled login u Barred i s)
        s (α := Except AuthnError (Option FactorOutcome) × SessionInner V) :=
    Prog.Safe.ret _ hstable hs fun _ hs => ⟨hown.clear, hs⟩
  refine Prog.Safe.bind (tame_among hids hX makeRoom_tame (Set.Subset.refl _) hs)
    fun room s hs => ?_
  cases room with
  | false => exact hcleared hs.2
  | true =>
    refine Prog.Safe.perform_bind _ hstable hs.2 fun s a s' hs hcall => ?_
    obtain ⟨rfl, hG, hs'⟩ := hs.register hids hX hsid hcall
    refine ⟨hG, Prog.Safe.bind (trimSessions_among hids hX hs') fun kept s hs => ?_⟩
    cases kept with
    | false => exact hcleared (hs.2 rfl)
    | true => exact hcheck sid t s hown (hs.1 rfl)

theorem completeFactorStep_among {tenantId : TenantId}
    (hcheck : ChecksOut login u Barred X service i ⟨tenantId, u⟩) (hown : (login i).Owns t)
    (hs : Settled login u Barred i s) :
    Among login u Barred X i (service.completeFactorStep ⟨tenantId, u⟩ t) (fun r s =>
      (login i).Owns r.2 ∧ Settled login u Barred i s) s := by
  have hstable : Stable (rely login u Barred i) (Settled login u Barred i) :=
    running_stable hids (Set.Subset.refl _)
  have hkeep : (login i).Owns (AuthSession.sessionId t).2 := hown.stays ⟨rfl, rfl, rfl, rfl⟩
  have hregister : Among login u Barred X i (service.registerAuthenticatedSession ⟨tenantId, u⟩
      t.id (AuthSession.sessionId t).2) (fun r s =>
        (login i).Owns r.2 ∧ Settled login u Barred i s) s := by
    unfold LoginService.registerAuthenticatedSession
    split
    · exact registerTracked_among hids hX hcheck hkeep hown.id hs
    · exact tame_among hids hX (checkUntracked_tame _ hkeep) (Set.Subset.refl _) hs
  unfold LoginService.completeFactorStep
  split
  · refine Prog.Safe.bind hregister fun r s hr => ?_
    obtain ⟨registered, t'⟩ := r
    rcases registered with e | _ | outcome
    · exact Prog.Safe.ret _ hstable hr.2 fun _ hs => ⟨hr.1, hs⟩
    · exact tame_among hids hX (recordLogin_tame _ hr.1) (Set.Subset.refl _) hr.2
    · exact Prog.Safe.ret _ hstable hr.2 fun _ hs => ⟨hr.1, hs⟩
  · split
    · exact Prog.Safe.ret _ hstable hs fun _ hs => ⟨hown, hs⟩
    · exact Prog.Safe.ret _ hstable hs fun _ hs => ⟨hown, hs⟩

end Login

section Layer

variable (hX : Served X) {rotation : Rotation} {unknown : UnknownLiveness}

theorem endUntracked_tame (id : SessionId) : (endUntracked id : Async V Bool).Only Tame :=
  ⟨.inl trivial, fun _ => trivial⟩

theorem endRevokedRotation_tame : (endRevokedRotation rotation : Async V Bool).Only Tame :=
  ⟨trivial, fun _ => endUntracked_tame _⟩

include hids hX

/-- The second look at the old entry: it is there, so nobody has revoked the user, or the new
entry goes. -/
theorem rereadOldId_among (hold : rotation.oldId = (login i).oldId)
    (hs : Exposed login u Barred i rotation.userId rotation.newId s) :
    Among login u Barred X i (rereadOldId rotation unknown)
      (fun _ => Settled login u Barred i) s := by
  refine Prog.Safe.call _ (running_stable hids (exposed_subset i _ _)) hs
    fun s a s' hs hcall => ?_
  obtain ⟨ha, -⟩ := hX.registry i _ _ _ _ hcall.1
  obtain ⟨hG, hs'⟩ := hs.tame hids hX (e := .registry (.liveness _ _)) trivial hcall
  refine ⟨hG, ?_⟩
  by_cases hheld : s.state.registry.holds rotation.userId rotation.oldId = true
  · have hvalid : a = .valid := ha.trans (Registry.liveness_eq_valid.2 hheld)
    subst hvalid
    have hsettled : Settled login u Barred i s' := by
      by_cases hu : rotation.userId = u
      · -- the entry was still there just before
        rw [hu, hold] at hheld
        exact hs'.settle fun hrev => hs.not_revoked hheld (revoked_call hcall hrev)
      · exact hs'.mono fun id hid => ⟨hid, fun h => hu h.1⟩
    exact Prog.Safe.ret _ (running_stable hids (Set.Subset.refl _)) hsettled fun _ hs => hs
  · have hgone : a = .gone :=
      ha.trans (Registry.liveness_eq_gone.2 (Bool.not_eq_true _ ▸ hheld))
    subst hgone
    refine Prog.Safe.call _ (running_stable hids (exposed_subset i _ _)) hs'
      fun s a s' hs hcall => ?_
    obtain ⟨hG, hs'⟩ := hs.withdraw hids hX hcall
    refine ⟨hG, Prog.Safe.conseq (tame_among hids hX (p := _) (T := fun _ => True) ?_
      (Set.Subset.refl _) hs') fun _ _ h => h.2⟩
    exact (endUntracked_tame rotation.newId).bind fun _ => trivial

theorem registerRotated_among (hold : rotation.oldId = (login i).oldId)
    (hnew : rotation.newId ∈ (login i).ids) (hs : Settled login u Barred i s) :
    Among login u Barred X i (registerRotated rotation unknown)
      (fun _ => Settled login u Barred i) s := by
  refine Prog.Safe.perform_bind _ (running_stable hids (Set.Subset.refl _)) hs
    fun s a s' hs hcall => ?_
  obtain ⟨rfl, hG, hs'⟩ := hs.register hids hX hnew hcall
  refine ⟨hG, Prog.Safe.bind (rereadOldId_among hids hX hold hs') fun answer s hs => ?_⟩
  cases answer with
  | some ended =>
    exact Prog.Safe.ret _ (running_stable hids (Set.Subset.refl _)) hs fun _ hs => hs
  | none =>
    exact Prog.Safe.conseq (tame_among hids hX (T := fun _ => True) ⟨trivial, fun _ => trivial⟩
      (Set.Subset.refl _) hs) fun _ _ h => h.2

theorem moveRegistryEntry_among (hold : rotation.oldId = (login i).oldId)
    (hnew : rotation.newId ∈ (login i).ids) (hs : Settled login u Barred i s) :
    Among login u Barred X i (moveRegistryEntry rotation unknown)
      (fun _ => Settled login u Barred i) s := by
  have htame {p : Async V Bool} (hp : p.Only Tame) {s : State V ι}
      (hs : Settled login u Barred i s) :
      Among login u Barred X i p (fun _ => Settled login u Barred i) s :=
    Prog.Safe.conseq (tame_among hids hX hp (Set.Subset.refl _) hs) fun _ _ h => h.2
  refine Prog.Safe.call _ (running_stable hids (Set.Subset.refl _)) hs fun s a s' hs hcall => ?_
  obtain ⟨hG, hs'⟩ := hs.tame hids hX (e := .registry (.liveness _ _)) trivial hcall
  refine ⟨hG, ?_⟩
  cases a with
  | valid => exact registerRotated_among hids hX hold hnew hs'
  | unknown => exact registerRotated_among hids hX hold hnew hs'
  | gone =>
    refine htame (p := Reg.liveness _ _ >>= _) ⟨trivial, fun answer => ?_⟩ hs'
    cases answer with
    | valid =>
      show Prog.Only _ (if rotation.wasAuthenticated then _ else _)
      split
      · exact endRevokedRotation_tame
      · trivial
    | gone => exact endUntracked_tame _
    | unknown => cases unknown <;> first | trivial | exact endUntracked_tame _

theorem finishRequest_among [BEq V] [JsonSize V] (layer : SessionLayer) (req : Request)
    {t : SessionInner V} (existingId : Option SessionId) (hown : (login i).Owns t)
    (hs : Settled login u Barred i s) :
    Among login u Barred X i (finishRequest layer req t existingId)
      (fun _ => Settled login u Barred i) s := by
  have hstable : Stable (rely login u Barred i) (Settled login u Barred i) :=
    running_stable hids (Set.Subset.refl _)
  refine Prog.Safe.bind (tame_among hids hX ((finalizeSession_onRows layer.config req.finishedAt t
    existingId).mono (fun e he => Quiet.tame (.inl he)) fun _ h => h) (Set.Subset.refl _) hs)
    fun r s hr => ?_
  obtain ⟨outcome, t'⟩ := r
  obtain ⟨⟨-, hmoves⟩, hs⟩ := hr
  have hsettle : Among login u Barred X i (settleRegistry (layer.policy req.finishedAt) outcome)
      (fun _ => Settled login u Barred i) s := by
    unfold settleRegistry
    cases hrot : outcome.rotation with
    | none => exact Prog.Safe.ret _ hstable hs fun _ hs => hs
    | some rotation =>
      obtain ⟨hold, hnew⟩ := hmoves rotation hrot
      rw [hown.old] at hold
      show Among login u Barred X i (if (layer.policy req.finishedAt).registry then _ else _) _ s
      split
      · exact moveRegistryEntry_among hids hX hold (hnew ▸ hown.moved_id) hs
      · exact Prog.Safe.ret _ hstable hs fun _ hs => hs
  exact Prog.Safe.bind hsettle fun _ s hs => Prog.Safe.ret _ hstable hs fun _ hs => hs

end Layer

section Pool

variable [JsonValue V FlowStamp] [BEq V] [JsonSize V] (hX : Served X) (layer : SessionLayer)
include hids hX

theorem run_among
    (hcheck : ChecksOut login u Barred X (login i).service i ⟨(login i).tenantId, u⟩)
    (hs : Settled login u Barred i s) :
    Among login u Barred X i ((login i).run layer u) (fun _ => Settled login u Barred i) s := by
  refine Prog.Safe.bind (completeFactorStep_among hids hX hcheck (login i).owns hs)
    fun r s hr => ?_
  refine Prog.Safe.bind (finishRequest_among hids hX layer _ _ hr.1 hr.2) fun _ s hs => ?_
  exact Prog.Safe.ret _ (running_stable hids (Set.Subset.refl _)) hs fun _ hs => hs

theorem login_safe (revoker : Async V (Except AuthnError Unit))
    (hcheck : ChecksOut login u Barred X (login i).service i ⟨(login i).tenantId, u⟩)
    (hs : Pending login u Barred i (login i).ids s) :
    (prog login layer u revoker (some i)).Safe (sem login X (some i)) (rely login u Barred i)
      (guar login u Barred (some i)) (fun _ s => Responded i s) s := by
  refine Prog.Safe.perform_bind _ (pending_stable hids (Set.Subset.refl _)) hs
    fun s a s' hs hact => ?_
  obtain ⟨⟨hstate, harrives⟩, htrace⟩ := hact
  have hunanswered : ¬Responded i s' := by
    intro hres
    rcases hres.of_step htrace with h | ⟨-, h⟩
    · exact hs.unanswered h
    · cases h
  have hstep : LoginStep login u i s s' :=
    ⟨⟨_, htrace⟩, hstate ▸ rfl, fun id hheld => .inl (hstate ▸ hheld),
      fun hres => absurd hres hunanswered⟩
  have hclear : Clear u (login i).ids s' :=
    hs.clear.step hstep.revoked.1 fun id _ hheld => hstate ▸ hheld
  refine ⟨hstep, ?_⟩
  have harrived : Settled login u Barred i s' :=
    ⟨⟨hs.inv.loginStep hids hstep, hunanswered, hclear⟩,
      fun j hj => (harrives i rfl j hj).step htrace⟩
  refine Prog.Safe.bind (Prog.Safe.relabel (run_among hids hX layer hcheck harrived))
    fun _ s hs => ?_
  refine Prog.Safe.call _ (running_stable hids (Set.Subset.refl _)) hs fun s a s' hs hact => ?_
  obtain ⟨hstate, htrace⟩ := hact
  have hstate : s'.state = s.state := hstate
  have hclear : Clear u (login i).ids s' :=
    hs.clear.step (by unfold Revoked; rw [htrace]; simp) fun id _ hheld => hstate ▸ hheld
  refine ⟨⟨⟨_, htrace⟩, hstate ▸ rfl, fun id hheld => .inl (hstate ▸ hheld), fun _ _ => hclear⟩, ?_⟩
  refine Prog.Safe.ret (Responded i) (fun s s' hres hR => ?_) ?_ fun _ h => h
  · obtain ⟨k, -, hG⟩ := hR
    obtain ⟨e, htrace⟩ := guar_trace hG
    exact hres.step htrace
  · unfold Responded
    rw [htrace]
    exact List.mem_append_right _ (List.mem_singleton.2 rfl)

end Pool

section Revoker

abbrev revokerCalls : Sem (Call V) Call.Answer (State V ι) :=
  fun c s a s' => World.Answers c s.state a s'.state ∧ s'.trace = s.trace ++ [(none, .call c)]

variable (login u Barred) in
abbrev Revoking {α : Type} (p : Async V α) (Q : α → State V ι → Prop) (s : State V ι) : Prop :=
  p.Safe revokerCalls (Pool.others (guar login u Barred) none) (guar login u Barred none) Q s

theorem barred_stable : Stable (Pool.others (guar login u Barred) none)
    (fun s : State V ι => Barred s.state.identity) := by
  rintro s s' hs ⟨k, hk, h⟩
  cases k with
  | none => exact absurd rfl hk
  | some i => exact LoginStep.identity h ▸ hs

theorem revoked_stable : Stable (Pool.others (guar login u Barred) none)
    (Revoked u : State V ι → Prop) := by
  rintro s s' hs ⟨k, -, h⟩
  obtain ⟨e, htrace⟩ := guar_trace h
  unfold Revoked
  rw [htrace]
  exact List.mem_append_left _ hs

theorem revokerStep_of_registry {c : Call V} (htrace : s'.trace = s.trace ++ [(none, .call c)])
    (hc : c ≠ .registry (.invalidateUser u)) (hreg : s'.state.registry = s.state.registry)
    (hbarred : Barred s.state.identity → Barred s'.state.identity) : RevokerStep u Barred s s' := by
  refine ⟨⟨_, htrace⟩, hbarred, fun id hheld => hreg ▸ hheld, fun hrev hnot => ?_⟩
  unfold Revoked at hrev hnot
  rw [htrace, List.mem_append, List.mem_singleton] at hrev
  refine absurd (hrev.resolve_left hnot) fun heq => hc ?_
  cases heq
  rfl

theorem answers_quiet {e : Call V} {a : e.Answer} {w w' : World V} (he : Quiet e)
    (h : World.Answers e w a w') : w'.registry = w.registry ∧ w'.identity = w.identity := by
  obtain ⟨-, rfl⟩ := h
  cases e with
  | store c => exact ⟨rfl, rfl⟩
  | deliver key value => exact ⟨rfl, rfl⟩
  | registry c => exact he.elim False.elim False.elim
  | identity c =>
    have hread := World.perform_readsIdentity (.identity c) w (he.resolve_left fun h => h)
    exact ⟨congrArg World.registry hread, congrArg World.identity hread⟩

theorem quiet_revoking {α : Type} {p : Async V α} {T : α → Prop} (hp : p.Within Quiet T)
    {I : State V ι → Prop} (hI : Stable (Pool.others (guar login u Barred) none) I)
    (hcall : ∀ s s' : State V ι, (∃ c, s'.trace = s.trace ++ [(none, .call c)]) →
      s'.state.identity = s.state.identity → I s → I s') (hs : I s) :
    Revoking login u Barred p (fun a s => T a ∧ I s) s := by
  refine hp.safe hI (fun e s a s' he hX hIs => ?_) hs
  obtain ⟨hreg, hidentity⟩ := answers_quiet he hX.1
  have hc : e ≠ .registry (.invalidateUser u) := by
    rintro rfl
    exact he.elim False.elim False.elim
  exact ⟨revokerStep_of_registry hX.2 hc hreg fun h => hidentity ▸ h,
    hcall s s' ⟨_, hX.2⟩ hidentity hIs⟩

theorem quiet_revoked {α : Type} {p : Async V α} (hp : p.Only Quiet) (hs : Revoked u s) :
    Revoking login u Barred p (fun _ => Revoked u) s := by
  refine (quiet_revoking hp revoked_stable (fun s s' htrace _ hrev => ?_) hs).conseq
    fun _ _ h => h.2
  obtain ⟨c, htrace⟩ := htrace
  unfold Revoked
  rw [htrace]
  exact List.mem_append_left _ hrev

variable {service : LoginService}

theorem revokeUserSessions_revoking (hregistry : service.registry = true)
    (hs : Barred s.state.identity) :
    Revoking login u Barred (service.revokeUserSessions u) (fun _ => Revoked u) s := by
  unfold LoginService.revokeUserSessions
  rw [if_pos hregistry]
  refine Prog.Safe.perform_bind _ barred_stable hs fun s live s' hs hX => ?_
  obtain ⟨⟨-, hstate⟩, htrace⟩ := hX
  have hregistry : s'.state.registry = s.state.registry := by rw [hstate]; rfl
  have hidentity : s'.state.identity = s.state.identity := by rw [hstate]; rfl
  refine ⟨revokerStep_of_registry htrace (by simp) hregistry fun h => hidentity ▸ h, ?_⟩
  refine Prog.Safe.perform_bind _ barred_stable (hidentity ▸ hs : Barred s'.state.identity)
    fun s revoked s' hs hX => ?_
  obtain ⟨⟨-, hstate⟩, htrace⟩ := hX
  have hrev : Revoked u s' := by
    unfold Revoked
    rw [htrace]
    exact List.mem_append_right _ (List.mem_singleton.2 rfl)
  have hout (id : SessionId) : s'.state.registry.holds u id = false := by
    rw [hstate]
    simp [World.perform, Registry.perform]
  have hbarred : Barred s'.state.identity := by rw [hstate]; exact hs
  refine ⟨⟨⟨_, htrace⟩, fun _ => hbarred, fun id hheld => ?_, fun _ _ => ⟨hbarred, hout⟩⟩, ?_⟩
  · rw [hout id] at hheld
    cases hheld
  · refine quiet_revoked (Prog.Only.bind ?_ fun _ => by cases revoked <;> trivial) hrev
    have hrows (ids : List SessionId) : (deleteRows ids : Async V Unit).Only Quiet := by
      induction ids with
      | nil => trivial
      | cons id ids ih => exact ⟨.inl trivial, fun _ => ih⟩
    unfold LoginService.deleteSessionRows
    split
    · exact hrows _
    · trivial

theorem endUserSessions_revoking (hregistry : service.registry = true)
    (hs : Barred s.state.identity) :
    Revoking login u Barred (service.endUserSessions u) (fun _ => Revoked u) s := by
  refine Prog.Safe.bind (revokeUserSessions_revoking hregistry hs) fun revoked s hs => ?_
  rcases revoked with failure | _
  · cases failure <;> exact quiet_revoked trivial hs
  · exact quiet_revoked trivial hs

end Revoker

theorem Inv.registry_eq_nil (hs : Inv login u Barred s) (hrev : Revoked u s)
    (hall : ∀ j, Responded j s) : s.state.registry u = [] := by
  refine List.eq_nil_iff_forall_not_mem.2 fun id hid => ?_
  have hheld : s.state.registry.holds u id = true := List.contains_iff_mem.2 hid
  obtain ⟨j, hj⟩ := hs.owned hrev id hheld
  have hgone := hs.gone j (hall j) hrev id hj
  rw [hheld] at hgone
  cases hgone

end Completing

end Axess
