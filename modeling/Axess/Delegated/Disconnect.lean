import Axess.Calls.History
import Axess.Delegated.Session

/-!
# Disconnecting while a refresh is on its way

Revoking a credential and saving a new grant take no part in the lock of a refresh, and a refresh
saves what it was answered without looking at what is stored by then. A run keeps the last word of
the revokes and grants as long as none of them falls between the load of a credential and the save
of its refresh.
-/

namespace Axess

open Calls Relation

variable {ι : Type}

inductive DelegationEvent where
  | loaded (key : CredentialKey) (found : Option StoredDelegation)
  | granted (key : CredentialKey) (cred : StoredDelegation)
  | refreshed (key : CredentialKey) (source target : StoredDelegation)
  | revoked (key : CredentialKey)
  deriving DecidableEq

structure DelegationLedger (ι : Type) where
  store : CredentialKey → Option StoredDelegation
  locked : Nat × CredentialKey → Bool
  history : List (ι × DelegationEvent)

namespace DelegationLedger

def savedUnder (tenant : TenantId) (user : UserId) (cred : StoredDelegation) : CredentialKey :=
  ⟨tenant, user, cred.provider⟩

def events : (c : DelegationCall) → c.Answer → List DelegationEvent
  | .load key, .ok found => [.loaded key found]
  | .save t u cred .grant, .ok () => [.granted (savedUnder t u cred) cred]
  | .save t u cred (.refreshOf source), .ok () => [.refreshed (savedUnder t u cred) source cred]
  | .revoke key, .ok () => [.revoked key]
  | _, _ => []

def storeAfter (store : CredentialKey → Option StoredDelegation) :
    DelegationEvent → CredentialKey → Option StoredDelegation
  | .loaded _ _ => store
  | .granted key cred => Function.update store key (some cred)
  | .refreshed key _ cred => Function.update store key (some cred)
  | .revoked key => Function.update store key none

/-- A call is one step; one that fails does nothing. -/
def steps (i : ι) : Sem DelegationCall DelegationCall.Answer (DelegationLedger ι) :=
  fun c s a s' =>
    s'.history = s.history ++ (events c a).map (i, ·) ∧
    s'.store = (events c a).foldl storeAfter s.store ∧
    match c, a with
    | .load key, .ok found => found = s.store key ∧ s'.locked = s.locked
    | .lock node key, _ =>
      s.locked (node, key) = false ∧ s'.locked = Function.update s.locked (node, key) true
    | .unlock node key, _ => s'.locked = Function.update s.locked (node, key) false
    | _, _ => s'.locked = s.locked

def LastWord (key : CredentialKey) : DelegationEvent → Prop
  | .granted k _ => k = key
  | .revoked k => k = key
  | _ => False

/-- What the last of the grants and revokes has left; what was stored at the start, if there was
none. -/
def lastWord (init : CredentialKey → Option StoredDelegation) (key : CredentialKey)
    (history : List (ι × DelegationEvent)) : Option StoredDelegation :=
  history.foldl
    (fun held x =>
      match x.2 with
      | .granted k cred => if k = key then some cred else held
      | .revoked k => if k = key then none else held
      | _ => held)
    (init key)

/-- One credential was obtained with the refresh token of the other. -/
def Renewed (history : List (ι × DelegationEvent)) (key : CredentialKey)
    (source target : StoredDelegation) : Prop :=
  ∃ i, (i, .refreshed key source target) ∈ history

/-- The credential is of the chain of refreshes that began with the grant. -/
def Chain (history : List (ι × DelegationEvent)) (key : CredentialKey) :
    StoredDelegation → StoredDelegation → Prop :=
  ReflTransGen (Renewed history key)

/-- The store holds no credential after a revoke; after a grant it holds that grant or a refresh
from its chain. -/
def KeepsLastWord (init : CredentialKey → Option StoredDelegation) (key : CredentialKey)
    (s : DelegationLedger ι) : Prop :=
  match lastWord init key s.history with
  | none => s.store key = none
  | some grant => ∃ cred, s.store key = some cred ∧ Chain s.history key grant cred

inductive DelegationTask where
  | getAccessToken (session : DelegationSession)
  | revoke (session : DelegationSession)
  | grant (tenant : TenantId) (user : UserId) (cred : StoredDelegation)

inductive DelegationResult where
  | token (result : Option (Except DelegatedError String))
  | revoked (result : Except DelegatedError Unit)
  | saved (result : Except String Unit)

def DelegationTask.prog : DelegationTask → DelegationProg DelegationResult
  | getAccessToken session => do
    let result ← session.getAccessToken
    pure (.token result)
  | revoke session => do
    let result ← session.revoke
    pure (.revoked result)
  | grant tenant user cred => do
    let result ← (DelegationCall.save tenant user cred .grant).make
    pure (.saved result)

def LastLoad (s : DelegationLedger ι) (i : ι) (key : CredentialKey)
    (found : Option StoredDelegation) (after : List (ι × DelegationEvent)) : Prop :=
  (∃ before, s.history = before ++ (i, .loaded key found) :: after) ∧
    ∀ k o, (i, .loaded k o) ∉ after

/-- When the result of a refresh is saved, no grant of the credential was saved and none was
revoked since the refresh loaded it. -/
def Undisturbed (i : ι) : DelegationCall → DelegationLedger ι → Prop
  | .save t u cred (.refreshOf _), s => ∀ found after,
    LastLoad s i (savedUnder t u cred) found after →
      ∀ x ∈ after, ¬LastWord (savedUnder t u cred) x.2
  | _, _ => True

def undisturbed (i : ι) : Sem DelegationCall DelegationCall.Answer (DelegationLedger ι) :=
  fun c s a s' => steps i c s a s' ∧ Undisturbed i c s

/-! ## The invariant -/

section Invariant

variable {init : CredentialKey → Option StoredDelegation} {i : ι} {key : CredentialKey}
  {s s' : DelegationLedger ι} {history : List (ι × DelegationEvent)} {e : DelegationEvent}

theorem lastWord_snoc (x : ι × DelegationEvent) :
    lastWord init key (history ++ [x]) =
      match x.2 with
      | .granted k cred => if k = key then some cred else lastWord init key history
      | .revoked k => if k = key then none else lastWord init key history
      | _ => lastWord init key history := by
  rw [lastWord, List.foldl_append]
  rfl

theorem lastWord_snoc_of_not {x : ι × DelegationEvent} (hx : ¬LastWord key x.2) :
    lastWord init key (history ++ [x]) = lastWord init key history := by
  rw [lastWord_snoc]
  obtain ⟨i, _ | ⟨k, cred⟩ | _ | k⟩ := x
  · rfl
  · exact if_neg hx
  · rfl
  · exact if_neg hx

theorem Chain.snoc {x : ι × DelegationEvent} {a b : StoredDelegation}
    (h : Chain history key a b) : Chain (history ++ [x]) key a b := by
  have hmono : ∀ a b, Renewed history key a b → Renewed (history ++ [x]) key a b :=
    fun _ _ ⟨i, hin⟩ => ⟨i, List.mem_append_left _ hin⟩
  exact ReflTransGen.mono hmono _ _ h

structure Inv (init : CredentialKey → Option StoredDelegation) (s : DelegationLedger ι) : Prop where
  keeps : ∀ key, KeepsLastWord init key s
  /-- A credential that was loaded is of the chain of the last word, until that is another. -/
  loaded : ∀ i key cred before after, s.history = before ++ (i, .loaded key (some cred)) :: after →
    (∀ x ∈ after, ¬LastWord key x.2) →
      ∃ grant, lastWord init key s.history = some grant ∧ Chain s.history key grant cred

theorem KeepsLastWord.stored (h : KeepsLastWord init key s) {cred : StoredDelegation}
    (hstored : s.store key = some cred) :
    ∃ grant, lastWord init key s.history = some grant ∧ Chain s.history key grant cred := by
  unfold KeepsLastWord at h
  cases hword : lastWord init key s.history with
  | none =>
    rw [hword, hstored] at h
    cases h
  | some grant =>
    rw [hword] at h
    obtain ⟨cred', hcred', hchain⟩ := h
    rw [hstored] at hcred'
    cases hcred'
    exact ⟨grant, rfl, hchain⟩

theorem KeepsLastWord.frame (h : KeepsLastWord init key s)
    (hhistory : s'.history = s.history ++ [(i, e)]) (hnot : ¬LastWord key e)
    (hstore : s'.store key = s.store key) :
    KeepsLastWord init key s' := by
  unfold KeepsLastWord at h ⊢
  rw [hhistory, lastWord_snoc_of_not (x := (i, e)) hnot, hstore]
  cases hword : lastWord init key s.history with
  | none =>
    rw [hword] at h
    exact h
  | some grant =>
    rw [hword] at h
    obtain ⟨cred, hcred, hchain⟩ := h
    exact ⟨cred, hcred, hchain.snoc⟩

theorem Inv.keeps_step (hs : Inv init s) (hhistory : s'.history = s.history ++ [(i, e)])
    (hstore : s'.store = storeAfter s.store e)
    (hrefresh : ∀ k source target, e = .refreshed k source target →
      ∃ grant, lastWord init k s.history = some grant ∧ Chain s.history k grant source) :
    ∀ key, KeepsLastWord init key s' := by
  intro key
  cases e with
  | loaded k found => exact (hs.keeps key).frame hhistory (fun h => h) (by rw [hstore]; rfl)
  | granted k cred =>
    by_cases hk : k = key
    · subst hk
      unfold KeepsLastWord
      rw [hhistory, lastWord_snoc, hstore]
      simp only [if_true]
      exact ⟨cred, Function.update_self k _ _, .refl⟩
    · exact (hs.keeps key).frame hhistory hk
        (by rw [hstore]; exact Function.update_of_ne (Ne.symm hk) _ _)
  | revoked k =>
    by_cases hk : k = key
    · subst hk
      unfold KeepsLastWord
      rw [hhistory, lastWord_snoc, hstore]
      simp only [if_true]
      exact Function.update_self k _ _
    · exact (hs.keeps key).frame hhistory hk
        (by rw [hstore]; exact Function.update_of_ne (Ne.symm hk) _ _)
  | refreshed k source target =>
    by_cases hk : k = key
    · subst hk
      obtain ⟨grant, hword, hchain⟩ := hrefresh k source target rfl
      unfold KeepsLastWord
      rw [hhistory, lastWord_snoc, hstore]
      simp only [hword]
      refine ⟨target, Function.update_self k _ _, hchain.snoc.tail ⟨i, ?_⟩⟩
      exact List.mem_append_right _ List.mem_cons_self
    · exact (hs.keeps key).frame hhistory (fun h => h)
        (by rw [hstore]; exact Function.update_of_ne (Ne.symm hk) _ _)

theorem Inv.loaded_step (hs : Inv init s) (hhistory : s'.history = s.history ++ [(i, e)])
    (hload : ∀ k found, e = .loaded k found → found = s.store k) :
    ∀ j key cred before after, s'.history = before ++ (j, .loaded key (some cred)) :: after →
      (∀ x ∈ after, ¬LastWord key x.2) →
        ∃ grant, lastWord init key s'.history = some grant ∧ Chain s'.history key grant cred := by
  intro j key cred before after hsplit hafter
  rw [hhistory] at hsplit ⊢
  rcases History.split_snoc hsplit with ⟨after₀, rfl, hold⟩ | ⟨rfl, _, hnew⟩
  · have hnot : ¬LastWord key e := hafter (i, e) (List.mem_append_right _ List.mem_cons_self)
    obtain ⟨grant, hword, hchain⟩ := hs.loaded j key cred before after₀ hold
      fun x hx => hafter x (List.mem_append_left _ hx)
    exact ⟨grant, (lastWord_snoc_of_not hnot).trans hword, hchain.snoc⟩
  · cases hnew
    obtain ⟨grant, hword, hchain⟩ := (hs.keeps key).stored (hload key (some cred) rfl).symm
    have hnot : ¬LastWord key (DelegationEvent.loaded key (some cred)) := fun h => h
    exact ⟨grant, (lastWord_snoc_of_not hnot).trans hword, hchain.snoc⟩

def Permits (i : ι) : DelegationCall → DelegationLedger ι → Prop
  | .save t u cred (.refreshOf source), s =>
    ∃ after, LastLoad s i (savedUnder t u cred) (some source) after
  | _, _ => True

def Guarantee (i : ι) (s s' : DelegationLedger ι) : Prop :=
  ∃ c a, steps i c s a s' ∧ Undisturbed i c s ∧ Permits i c s

theorem events_cases (c : DelegationCall) (a : c.Answer) :
    events c a = [] ∨ ∃ e, events c a = [e] := by
  cases c with
  | load key =>
    cases a with
    | error message => exact .inl rfl
    | ok found => exact .inr ⟨_, rfl⟩
  | save t u cred reason =>
    cases a with
    | error message => cases reason <;> exact .inl rfl
    | ok _ => cases reason <;> exact .inr ⟨_, rfl⟩
  | revoke key =>
    cases a with
    | error message => exact .inl rfl
    | ok _ => exact .inr ⟨_, rfl⟩
  | now | redeem | lock | unlock | dropped => exact .inl rfl

theorem loaded_of_event {c : DelegationCall} {a : c.Answer} (hX : steps i c s a s')
    {found : Option StoredDelegation} (h : events c a = [.loaded key found]) :
    found = s.store key := by
  cases c with
  | load k =>
    cases a with
    | error message => cases h
    | ok found' =>
      cases h
      exact hX.2.2.1
  | save t u cred reason => cases a <;> cases reason <;> cases h
  | revoke k => cases a <;> cases h
  | now | redeem | lock | unlock | dropped => cases h

theorem save_of_event {c : DelegationCall} {a : c.Answer} {source target : StoredDelegation}
    (h : events c a = [.refreshed key source target]) :
    ∃ t u, c = .save t u target (.refreshOf source) ∧ key = savedUnder t u target := by
  cases c with
  | save t u cred reason =>
    cases a with
    | error message => cases reason <;> cases h
    | ok _ =>
      cases reason with
      | grant => cases h
      | refreshOf from_ =>
        cases h
        exact ⟨t, u, rfl, rfl⟩
  | load k => cases a <;> cases h
  | revoke k => cases a <;> cases h
  | now | redeem | lock | unlock | dropped => cases h

theorem Inv.step (hs : Inv init s) (hG : Guarantee i s s') : Inv init s' := by
  obtain ⟨c, a, hX, hundisturbed, hperm⟩ := hG
  have hhistory := hX.1
  have hstore := hX.2.1
  rcases events_cases c a with hnone | ⟨e, hevent⟩
  · rw [hnone] at hstore
    rw [hnone, List.map_nil, List.append_nil] at hhistory
    refine ⟨fun key => ?_, ?_⟩
    · unfold KeepsLastWord
      rw [hhistory, hstore]
      exact hs.keeps key
    · rw [hhistory]
      exact hs.loaded
  · rw [hevent] at hhistory hstore
    refine ⟨hs.keeps_step hhistory hstore fun k source target he => ?_,
      hs.loaded_step hhistory fun k found he => loaded_of_event hX (he ▸ hevent)⟩
    -- the credential that was refreshed is the one loaded last, and the last word is as it was then
    obtain ⟨t, u, rfl, rfl⟩ := save_of_event (he ▸ hevent)
    obtain ⟨after, ⟨before, hsplit⟩, hlast⟩ := hperm
    exact hs.loaded i _ source before after hsplit
      (hundisturbed (some source) after ⟨⟨before, hsplit⟩, hlast⟩)

end Invariant

/-! ## A refresh saves for the credential it loaded last -/

section Member

variable {i : ι} {s s' : DelegationLedger ι}

def Loaded (i : ι) (key : CredentialKey) (cred : StoredDelegation) (s : DelegationLedger ι) : Prop :=
  ∃ after, LastLoad s i key (some cred) after

theorem LastLoad.grow {key : CredentialKey} {found : Option StoredDelegation}
    {after new : List (ι × DelegationEvent)} (h : LastLoad s i key found after)
    (hhistory : s'.history = s.history ++ new) (hnew : ∀ k o, (i, .loaded k o) ∉ new) :
    LastLoad s' i key found (after ++ new) := by
  obtain ⟨⟨before, hsplit⟩, hlast⟩ := h
  refine ⟨⟨before, ?_⟩, fun k o hin => (List.mem_append.mp hin).elim (hlast k o) (hnew k o)⟩
  rw [hhistory, hsplit, List.append_assoc]
  rfl

theorem loaded_stable (key : CredentialKey) (cred : StoredDelegation) :
    Stable (Pool.others Guarantee i) (Loaded i key cred) := by
  rintro s s' ⟨after, hload⟩ ⟨j, hji, c, a, hX, _, _⟩
  refine ⟨_, hload.grow hX.1 fun k o hin => ?_⟩
  obtain ⟨_, _, heq⟩ := List.mem_map.mp hin
  exact hji (Prod.mk.inj heq).1

/-- Every call but the save of a refresh may be made at any time. -/
def Quiet : DelegationCall → Prop
  | .save _ _ _ (.refreshOf _) => False
  | _ => True

theorem guarantee_of_quiet {c : DelegationCall} {a : c.Answer} (hX : undisturbed i c s a s')
    (hc : Quiet c) : Guarantee i s s' := by
  refine ⟨c, a, hX.1, hX.2, ?_⟩
  cases c with
  | save t u cred reason =>
    cases reason with
    | grant => trivial
    | refreshOf source => exact hc.elim
  | load | revoke | now | redeem | lock | unlock | dropped => trivial

theorem quiet_safe {α : Type} {p : DelegationProg α} (hp : p.Only Quiet)
    (s : DelegationLedger ι) :
    p.SafeAmong undisturbed Guarantee i (fun _ _ => True) s :=
  hp.safe (fun _ _ _ _ hc hX => guarantee_of_quiet hX hc) s

theorem true_stable : Stable (Pool.others Guarantee i) fun _ : DelegationLedger ι => True :=
  fun _ _ _ _ => trivial

theorem done_safe {α : Type} (r : α) (s : DelegationLedger ι) :
    (pure r : DelegationProg α).SafeAmong undisturbed Guarantee i (fun _ _ => True) s :=
  Prog.Safe.ret _ true_stable trivial fun _ _ => trivial

variable (session : DelegationSession)

theorem loadCredential_safe (s : DelegationLedger ι) :
    session.loadCredential.SafeAmong undisturbed Guarantee i
      (fun result s => ∀ cred, result = .ok cred → Loaded i session.key cred s) s := by
  refine Prog.Safe.call _ true_stable trivial fun s a s' _ hX => ?_
  refine ⟨guarantee_of_quiet hX trivial, ?_⟩
  rcases a with message | _ | cred
  · exact Prog.Safe.ret _ true_stable trivial fun _ _ _ h => nomatch h
  · exact Prog.Safe.ret _ true_stable trivial fun _ _ _ h => nomatch h
  · refine Prog.Safe.ret _ (loaded_stable session.key cred) ?_ fun s h cred' heq => ?_
    · exact ⟨[], ⟨s.history, hX.1.1⟩, fun _ _ => List.not_mem_nil⟩
    · cases heq
      exact h

variable {cred : StoredDelegation}

theorem Loaded.step {key : CredentialKey} (h : Loaded i key cred s) {c : DelegationCall}
    {a : c.Answer} (hX : steps i c s a s') (hc : events c a = []) : Loaded i key cred s' := by
  obtain ⟨after, hload⟩ := h
  refine ⟨_, hload.grow hX.1 fun k o hin => ?_⟩
  rw [hc] at hin
  cases hin

theorem refresh_safe (hs : Loaded i session.key cred s) :
    (session.refresh cred).SafeAmong undisturbed Guarantee i
      (fun _ _ => True) s := by
  unfold DelegationSession.refresh
  split
  · exact done_safe _ _
  · next refreshToken _ =>
    refine Prog.Safe.call _ (loaded_stable session.key cred) hs fun s answer s' hs hX => ?_
    refine ⟨guarantee_of_quiet hX trivial, ?_⟩
    refine Prog.Safe.call _ (loaded_stable session.key cred) (hs.step hX.1 rfl)
      fun s now s' hs hX => ?_
    refine ⟨guarantee_of_quiet hX trivial, ?_⟩
    have hs' := hs.step hX.1 rfl
    dsimp only [Prog.bind]
    cases hparse : parseTokenResponse session.key.provider now answer with
    | error e => exact done_safe _ _
    | ok g =>
      refine Prog.Safe.call _ (loaded_stable session.key cred) hs' fun s a s' hs hX => ?_
      have hkey : savedUnder session.key.tenant session.key.user (refreshed cred g) = session.key := by
        have hprovider := parseTokenResponse_provider hparse
        show CredentialKey.mk _ _ g.credential.provider = session.key
        rw [hprovider]
      refine ⟨⟨_, a, hX.1, hX.2, ?_⟩, ?_⟩
      · show ∃ after, LastLoad s i (savedUnder _ _ _) (some cred) after
        rw [hkey]
        exact hs
      · cases a <;> exact done_safe _ _

theorem redeemAndSave_safe (hs : Loaded i session.key cred s) :
    (session.redeemAndSave cred).SafeAmong undisturbed Guarantee i
      (fun _ _ => True) s := by
  refine Prog.Safe.bind (refresh_safe session hs) fun result s _ => ?_
  split
  · refine Prog.Safe.bind (loadCredential_safe session s) fun loaded s hloaded => ?_
    cases loaded with
    | error e => exact done_safe _ _
    | ok latest =>
      refine Prog.Safe.call _ (loaded_stable session.key latest) (hloaded latest rfl)
        fun s now s' hs hX => ⟨guarantee_of_quiet hX trivial, ?_⟩
      show Prog.Safe _ _ _ _ (if _ then _ else if _ then _ else _) s'
      split
      · exact done_safe _ _
      · split
        · exact refresh_safe session (hs.step hX.1 rfl)
        · exact done_safe _ _
  · exact done_safe _ _

theorem refreshTask_safe (hs : Loaded i session.key cred s) :
    (session.refreshTask cred).SafeAmong undisturbed Guarantee i
      (fun _ _ => True) s := by
  refine Prog.Safe.bind (redeemAndSave_safe session hs) fun result s _ => quiet_safe ?_ s
  refine ⟨trivial, fun _ => ⟨trivial, fun dropped => ?_⟩⟩
  cases dropped <;> trivial

theorem unlock_safe {α : Type} (a : α) (s : DelegationLedger ι) :
    ((DelegationCall.unlock session.node session.key).make >>= fun _ => pure a).Safe
      (undisturbed i) (Pool.others Guarantee i) (Guarantee i) (fun _ _ => True) s := by
  refine quiet_safe ?_ s
  exact ⟨trivial, fun _ => trivial⟩

theorem underLock_safe (s : DelegationLedger ι) :
    session.underLock.SafeAmong undisturbed Guarantee i
      (fun _ _ => True) s := by
  refine Prog.Safe.call _ true_stable trivial fun s dropped s' _ hX =>
    ⟨guarantee_of_quiet hX trivial, ?_⟩
  cases dropped with
  | true => exact unlock_safe session none s'
  | false =>
    show Prog.Safe _ _ _ _ (session.loadCredential >>= _) s'
    refine Prog.Safe.bind (loadCredential_safe session s') fun loaded s hloaded => ?_
    cases loaded with
    | error e => exact unlock_safe session _ s
    | ok cred =>
      refine Prog.Safe.call _ (loaded_stable session.key cred) (hloaded cred rfl)
        fun s now s' hs hX => ⟨guarantee_of_quiet hX trivial, ?_⟩
      show Prog.Safe _ _ _ _ (if _ then _ else _) s'
      split
      · exact unlock_safe session _ s'
      · exact refreshTask_safe session (hs.step hX.1 rfl)

theorem getAccessToken_safe (s : DelegationLedger ι) :
    session.getAccessToken.SafeAmong undisturbed Guarantee i
      (fun _ _ => True) s := by
  refine Prog.Safe.call _ true_stable trivial fun s dropped s' _ hX =>
    ⟨guarantee_of_quiet hX trivial, ?_⟩
  cases dropped with
  | true => exact done_safe _ _
  | false =>
    show Prog.Safe _ _ _ _ (session.loadCredential >>= _) s'
    refine Prog.Safe.bind (loadCredential_safe session s') fun loaded s _ => ?_
    cases loaded with
    | error e => exact done_safe _ _
    | ok cred =>
      refine Prog.Safe.call _ true_stable trivial fun s now s' _ hX =>
        ⟨guarantee_of_quiet hX trivial, ?_⟩
      show Prog.Safe _ _ _ _ (if _ then _ else _) s'
      split
      · exact done_safe _ _
      · refine Prog.Safe.call _ true_stable trivial fun s dropped s' _ hX =>
          ⟨guarantee_of_quiet hX trivial, ?_⟩
        cases dropped with
        | true => exact done_safe _ _
        | false =>
          exact Prog.Safe.call _ true_stable trivial fun s _ s' _ hX =>
            ⟨guarantee_of_quiet hX trivial, underLock_safe session s'⟩

theorem task_safe (task : DelegationTask) (s : DelegationLedger ι) :
    task.prog.SafeAmong undisturbed Guarantee i (fun _ _ => True) s := by
  cases task with
  | getAccessToken session => exact Prog.Safe.map (getAccessToken_safe session s)
  | revoke session =>
    refine quiet_safe ?_ s
    refine ⟨trivial, fun answer => ?_⟩
    cases answer <;> trivial
  | grant tenant user cred =>
    refine quiet_safe ?_ s
    exact ⟨trivial, fun _ => trivial⟩

end Member

section Runs

variable [DecidableEq ι]

def start (task : ι → DelegationTask) (init : CredentialKey → Option StoredDelegation) :
    Pool ι DelegationCall DelegationCall.Answer DelegationResult (DelegationLedger ι) :=
  ⟨fun i => (task i).prog, ⟨init, fun _ => false, []⟩⟩

omit [DecidableEq ι] in
theorem inv_start (init : CredentialKey → Option StoredDelegation) :
    Inv init (⟨init, fun _ => false, []⟩ : DelegationLedger ι) where
  keeps := fun key => by
    unfold KeepsLastWord lastWord
    cases hinit : init key with
    | none => simpa using hinit
    | some cred => simpa using ⟨cred, hinit, .refl⟩
  loaded := fun _ _ _ before _ h => by cases before <;> cases h

/-- **A refresh that is not disturbed undoes nothing.** In every run of any number of callers,
dropped wherever they await or not, of revokes and of saves of new grants, in any number of
processes and with any calls failing, whose refreshes are all undisturbed: at every time the store
keeps the last word of the revokes and grants. -/
theorem undisturbed_keeps_last_word {task : ι → DelegationTask}
    {init : CredentialKey → Option StoredDelegation}
    {s : Pool ι DelegationCall DelegationCall.Answer DelegationResult (DelegationLedger ι)}
    (hr : Pool.Reaches undisturbed (start task init) s) (key : CredentialKey) :
    KeepsLastWord init key s.state := by
  have hsafe : Pool.AllSafe undisturbed Guarantee (fun _ _ _ => True) (start task init) :=
    fun i => task_safe (task i) _
  exact (hr.invariant hsafe (fun _ _ _ hG hs => hs.step hG) (inv_start init)).keeps key

def answering (now : Instant) (answer : EndpointAnswer) :
    Pool.Answerer ι Unit DelegationCall DelegationCall.Answer (DelegationLedger ι) :=
  fun i _ c s =>
    match c with
    | .load key => record i s (.load key) (.ok (s.store key)) s.locked
    | .save t u cred reason => record i s (.save t u cred reason) (.ok ()) s.locked
    | .revoke key => record i s (.revoke key) (.ok ()) s.locked
    | .now => record i s .now now s.locked
    | .redeem provider token => record i s (.redeem provider token) answer s.locked
    | .lock node key =>
      record i s (.lock node key) () (Function.update s.locked (node, key) true)
    | .unlock node key =>
      record i s (.unlock node key) () (Function.update s.locked (node, key) false)
    | .dropped => record i s .dropped false s.locked
where
  record (i : ι) (s : DelegationLedger ι) (c : DelegationCall) (a : c.Answer)
      (locked : Nat × CredentialKey → Bool) : c.Answer × DelegationLedger ι :=
    (a, ⟨(events c a).foldl storeAfter s.store, locked, s.history ++ (events c a).map (i, ·)⟩)

def lockFree (c : DelegationCall) (s : DelegationLedger ι) : Bool :=
  match c with
  | .lock node key => !s.locked (node, key)
  | _ => true

omit [DecidableEq ι] in
theorem steps_answering (now : Instant) (answer : EndpointAnswer) (i : ι) (u : Unit)
    (c : DelegationCall) (s : DelegationLedger ι) (h : lockFree c s = true) :
    steps i c s (answering now answer i u c s).1 (answering now answer i u c s).2 := by
  cases c with
  | load key => exact ⟨rfl, rfl, rfl, rfl⟩
  | lock node key => exact ⟨rfl, rfl, by simpa [lockFree] using h, rfl⟩
  | save | revoke | now | redeem | unlock | dropped => exact ⟨rfl, rfl, rfl⟩

end Runs

inductive DisconnectParty where
  | caller | user
  deriving DecidableEq

def mailKey : CredentialKey := ⟨⟨1⟩, ⟨7⟩, "mail"⟩

def disconnecting : DisconnectParty → DelegationTask
  | .caller => .getAccessToken ⟨0, mailKey, 60⟩
  | .user => .revoke ⟨0, mailKey, 60⟩

def staleMail : StoredDelegation := ⟨"mail", "a0", some "r0", some 0, [], "Bearer"⟩

def mailStored (key : CredentialKey) : Option StoredDelegation :=
  if key = mailKey then some staleMail else none

def mailAnswer : EndpointAnswer := .granted ⟨"a1", some "r1", none, none, none⟩

def callerSteps (n : Nat) : List DisconnectParty := List.replicate n .caller

def disconnectRun : Pool DisconnectParty DelegationCall DelegationCall.Answer DelegationResult
    (DelegationLedger DisconnectParty) :=
  Pool.replay (answering 100 mailAnswer)
    ((callerSteps 9 ++ DisconnectParty.user :: callerSteps 4).map (·, ()))
    (start disconnecting mailStored)

def disconnectAfter : Pool DisconnectParty DelegationCall DelegationCall.Answer DelegationResult
    (DelegationLedger DisconnectParty) :=
  Pool.replay (answering 100 mailAnswer)
    ((callerSteps 13 ++ [DisconnectParty.user]).map (·, ())) (start disconnecting mailStored)

def noWordYet (c : DelegationCall) (s : DelegationLedger ι) : Bool :=
  lockFree c s && match c with
    | .save .. => s.history.all fun x =>
      match x.2 with
      | .granted .. => false
      | .revoked .. => false
      | _ => true
    | _ => true

theorem undisturbed_answering (i : DisconnectParty) (u : Unit) (c : DelegationCall)
    (s : DelegationLedger DisconnectParty) (h : noWordYet c s = true) :
    undisturbed i c s (answering 100 mailAnswer i u c s).1 (answering 100 mailAnswer i u c s).2 := by
  unfold noWordYet at h
  rw [Bool.and_eq_true] at h
  refine ⟨steps_answering 100 mailAnswer i u c s h.1, ?_⟩
  cases c with
  | save t v cred reason =>
    cases reason with
    | grant => trivial
    | refreshOf source =>
      rintro found after ⟨⟨before, hsplit⟩, _⟩ x hx hword
      have hall := List.all_eq_true.mp h.2 x
        (hsplit ▸ List.mem_append_right _ (List.mem_cons_of_mem _ hx))
      obtain ⟨j, _ | _ | _ | _⟩ := x
      · exact hword
      · cases hall
      · exact hword
      · cases hall
  | load | revoke | now | redeem | lock | unlock | dropped => trivial

theorem undisturbed_keeps_last_word_after :
    lastWord mailStored mailKey disconnectAfter.state.history = none ∧
      KeepsLastWord mailStored mailKey disconnectAfter.state := by
  have hr : Pool.Reaches undisturbed (start disconnecting mailStored) disconnectAfter :=
    Pool.reaches_replay_of_admits undisturbed_answering _ _ (by decide +kernel)
  exact ⟨by decide +kernel, undisturbed_keeps_last_word hr mailKey⟩

/-- The revoke falls between the answer of the token endpoint and the save: both have returned, the
revoke was the last word, and the credential is stored again. -/
theorem refresh_undoes_revoke :
    Pool.Reaches steps (start disconnecting mailStored) disconnectRun ∧
    (∀ i, ∃ r, disconnectRun.prog i = .ret r) ∧
    ¬KeepsLastWord mailStored mailKey disconnectRun.state := by
  refine ⟨Pool.reaches_replay_of_admits (steps_answering 100 mailAnswer) _ _ (by decide +kernel),
    fun i => ?_, fun h => ?_⟩
  · have hreturned : (disconnectRun.prog i).returned.isSome = true := by cases i <;> decide +kernel
    obtain ⟨r, hr⟩ := Option.isSome_iff_exists.mp hreturned
    exact ⟨r, Prog.eq_ret_of_returned hr⟩
  · have hword : lastWord mailStored mailKey disconnectRun.state.history = none := by decide +kernel
    have hstored : (disconnectRun.state.store mailKey).isSome = true := by decide +kernel
    unfold KeepsLastWord at h
    rw [hword] at h
    have hnone : disconnectRun.state.store mailKey = none := h
    rw [hnone] at hstored
    cases hstored

end DelegationLedger

end Axess
