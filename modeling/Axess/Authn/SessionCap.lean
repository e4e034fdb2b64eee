import Axess.Order.Newest
import Axess.Authn.Account

/-!
# Parallel logins under a session cap

A login that completes lists the user's sessions, evicts the oldest, registers itself, lists again
and evicts again: five separate registry calls, so parallel logins act on stale lists. Every id an
eviction picks has enough newer registrations behind it, counting the one the evicting login is
about to make. So nothing that is among the newest registrations in the end is ever evicted, and
the login that registers last sees them all and evicts the rest.
-/

namespace Axess

open Calls Order

variable {V ι : Type}

namespace LoginService

variable (service : LoginService)

def registerUnderCap (u : UserId) (sid : SessionId) : Async V Bool := do
  if ← service.makeRoom u sid then
    if ← Reg.register u sid then service.trimSessions u sid else pure false
  else pure false

theorem registerTracked_eq [JsonValue V FlowStamp] [BEq V] [JsonSize V] (scope : UserScope)
    (sid : SessionId) (s : SessionInner V) :
    service.registerTracked scope sid s = (do
      if ← service.registerUnderCap scope.userId sid then service.checkRegistered scope sid s
      else pure (.error .noFlow, AuthSession.clear s)) := by
  rw [registerTracked, registerUnderCap, bind_assoc]
  refine bind_congr fun room => ?_
  cases room with
  | false => rfl
  | true =>
    simp only [if_true, bind_assoc]
    refine bind_congr fun registered => ?_
    cases registered with
    | false => rfl
    | true => rfl

end LoginService

def registeredBy (u : UserId) : Call V → Option SessionId
  | .registry (.register v id) => if v = u then some id else none
  | _ => none

def registrations (u : UserId) (trace : List (ι × Call V)) : List SessionId :=
  trace.filterMap fun c => registeredBy u c.2

variable (u : UserId) (initial : List SessionId)

def registrationLog (s : Traced ι (Call V) (World V)) : List SessionId :=
  initial ++ registrations u s.trace

variable (sid : ι → SessionId) (max : Nat)

/-- The registry is what is left of the log, and what is missing was old enough to go: as long as
a login has still to register, one place of the newest is kept for it. -/
structure CapInv (s : Traced ι (Call V) (World V)) : Prop where
  known : ∀ x ∈ registrations u s.trace, ∃ j, sid j = x
  nodup : (registrationLog u initial s).Nodup
  held : (s.state.registry u).Sublist (registrationLog u initial s)
  old : ∀ x ∈ registrationLog u initial s, x ∉ s.state.registry u →
    x ∉ newest (max - 1) (registrationLog u initial s)
  oldest : (∀ j, sid j ∈ registrationLog u initial s) →
    ∀ x ∈ registrationLog u initial s, x ∉ s.state.registry u →
      x ∉ newest max (registrationLog u initial s)
  evicted : ∀ j x, (j, Call.registry (.invalidateSession u x)) ∈ s.trace →
    x ∈ registrationLog u initial s ∧ x ∉ s.state.registry u

inductive CapStep (i : ι) (s s' : Traced ι (Call V) (World V)) : Prop where
  | look : s'.state.registry u = s.state.registry u →
      s'.trace = s.trace ++ [(i, .registry (.heldSessions u))] → CapStep i s s'
  | evict (x : SessionId) : s'.state.registry u = (s.state.registry u).filter (· != x) →
      s'.trace = s.trace ++ [(i, .registry (.invalidateSession u x))] →
      x ∈ registrationLog u initial s →
      (x ∉ newest max (registrationLog u initial s) ∨
        sid i ∉ registrationLog u initial s ∧
          x ∉ newest (max - 1) (registrationLog u initial s)) → CapStep i s s'
  | enter : sid i ∉ registrationLog u initial s →
      s'.state.registry u = s.state.registry u ++ [sid i] →
      s'.trace = s.trace ++ [(i, .registry (.register u (sid i)))] → CapStep i s s'

variable {u initial sid max} {s s' : Traced ι (Call V) (World V)} {i : ι}

theorem registrations_quiet {e : Call V} (hquiet : registeredBy u e = none)
    (htrace : s'.trace = s.trace ++ [(i, e)]) :
    registrations u s'.trace = registrations u s.trace := by
  rw [registrations, htrace, List.filterMap_append]
  simp [hquiet, registrations]

theorem registrations_enter {id : SessionId}
    (htrace : s'.trace = s.trace ++ [(i, .registry (.register u id))]) :
    registrations u s'.trace = registrations u s.trace ++ [id] := by
  rw [registrations, htrace, List.filterMap_append]
  simp [registeredBy, registrations]

theorem registrationLog_quiet {e : Call V} (hquiet : registeredBy u e = none)
    (htrace : s'.trace = s.trace ++ [(i, e)]) :
    registrationLog u initial s' = registrationLog u initial s :=
  congrArg (initial ++ ·) (registrations_quiet hquiet htrace)

theorem registrationLog_enter {id : SessionId}
    (htrace : s'.trace = s.trace ++ [(i, .registry (.register u id))]) :
    registrationLog u initial s' = registrationLog u initial s ++ [id] := by
  rw [registrationLog, registrationLog, registrations_enter htrace, List.append_assoc]

theorem CapStep.log (h : CapStep u initial sid max i s s') :
    registrationLog u initial s' = registrationLog u initial s ∨
      sid i ∉ registrationLog u initial s ∧
        registrationLog u initial s' = registrationLog u initial s ++ [sid i] := by
  cases h with
  | look _ htrace => exact .inl (registrationLog_quiet rfl htrace)
  | evict x _ htrace => exact .inl (registrationLog_quiet rfl htrace)
  | enter hnew _ htrace => exact .inr ⟨hnew, registrationLog_enter htrace⟩

theorem CapStep.log_prefix (h : CapStep u initial sid max i s s') :
    registrationLog u initial s <+: registrationLog u initial s' := by
  rcases h.log with heq | ⟨_, heq⟩
  · exact heq ▸ List.prefix_rfl
  · exact heq ▸ List.prefix_append _ _

theorem CapStep.gone {x : SessionId} (h : CapStep u initial sid max i s s')
    (hx : x ∈ registrationLog u initial s) (hout : x ∉ s.state.registry u) :
    x ∉ s'.state.registry u := by
  cases h with
  | look hreg => rwa [hreg]
  | evict y hreg =>
    rw [hreg]
    exact fun hin => hout (List.mem_filter.mp hin).1
  | enter hnew hreg =>
    rw [hreg, List.mem_append, List.mem_singleton]
    rintro (hin | rfl)
    · exact hout hin
    · exact hnew hx

theorem CapStep.notMem_newest {k : Nat} {x : SessionId} (h : CapStep u initial sid max i s s')
    (hx : x ∈ registrationLog u initial s) (hout : x ∉ newest k (registrationLog u initial s)) :
    x ∉ newest k (registrationLog u initial s') := by
  rcases h.log with heq | ⟨hnew, heq⟩
  · rwa [heq]
  · rw [heq]
    exact notMem_newest_append hout fun hxi => hnew (hxi ▸ hx)

theorem CapInv.look (hs : CapInv u initial sid max s)
    (hreg : s'.state.registry u = s.state.registry u)
    (htrace : s'.trace = s.trace ++ [(i, .registry (.heldSessions u))]) :
    CapInv u initial sid max s' := by
  have hlog : registrationLog u initial s' = registrationLog u initial s :=
    registrationLog_quiet rfl htrace
  refine ⟨registrations_quiet rfl htrace ▸ hs.known, hlog ▸ hs.nodup, ?_, ?_, ?_, ?_⟩
  · rw [hlog, hreg]
    exact hs.held
  · rw [hlog, hreg]
    exact hs.old
  · rw [hlog, hreg]
    exact hs.oldest
  · intro j x hin
    rw [htrace, List.mem_append, List.mem_singleton] at hin
    rw [hlog, hreg]
    exact hs.evicted j x (hin.resolve_right (by simp))

theorem CapInv.evict {x : SessionId} (hs : CapInv u initial sid max s)
    (hreg : s'.state.registry u = (s.state.registry u).filter (· != x))
    (htrace : s'.trace = s.trace ++ [(i, .registry (.invalidateSession u x))])
    (hx : x ∈ registrationLog u initial s)
    (hold : x ∉ newest max (registrationLog u initial s) ∨
      sid i ∉ registrationLog u initial s ∧
        x ∉ newest (max - 1) (registrationLog u initial s)) :
    CapInv u initial sid max s' := by
  have hlog : registrationLog u initial s' = registrationLog u initial s :=
    registrationLog_quiet rfl htrace
  have hless : x ∉ newest (max - 1) (registrationLog u initial s) := by
    rcases hold with h | ⟨_, h⟩
    · exact fun hin => h (newest_subset (Nat.sub_le max 1) _ hin)
    · exact h
  -- an id that is missing now was missing before, or it is the one evicted here
  have hout : ∀ y, y ∉ s'.state.registry u → y ∉ s.state.registry u ∨ y = x := by
    intro y hy
    rw [hreg, List.mem_filter] at hy
    by_cases hyx : y = x
    · exact .inr hyx
    · exact .inl fun hin => hy ⟨hin, by simpa using hyx⟩
  refine ⟨registrations_quiet rfl htrace ▸ hs.known, hlog ▸ hs.nodup, ?_, ?_, ?_, ?_⟩
  · rw [hlog, hreg]
    exact List.filter_sublist.trans hs.held
  · rw [hlog]
    intro y hy hyout
    rcases hout y hyout with h | rfl
    · exact hs.old y hy h
    · exact hless
  · rw [hlog]
    intro hall y hy hyout
    rcases hout y hyout with h | rfl
    · exact hs.oldest hall y hy h
    · exact hold.resolve_right fun h => h.1 (hall i)
  · intro j y hin
    rw [htrace, List.mem_append, List.mem_singleton] at hin
    rw [hlog, hreg]
    rcases hin with hin | heq
    · obtain ⟨hy, hyout⟩ := hs.evicted j y hin
      exact ⟨hy, fun h => hyout (List.mem_filter.mp h).1⟩
    · cases heq
      exact ⟨hx, by simp⟩

theorem CapInv.enter (hs : CapInv u initial sid max s)
    (hnew : sid i ∉ registrationLog u initial s)
    (hreg : s'.state.registry u = s.state.registry u ++ [sid i])
    (htrace : s'.trace = s.trace ++ [(i, .registry (.register u (sid i)))]) :
    CapInv u initial sid max s' := by
  have hlog : registrationLog u initial s' = registrationLog u initial s ++ [sid i] :=
    registrationLog_enter htrace
  -- the entry made here takes the place that was kept
  have hnewest : ∀ y ∈ registrationLog u initial s', y ∉ s'.state.registry u →
      y ∉ newest max (registrationLog u initial s') := by
    rw [hlog, hreg]
    intro y hy hout hin
    rw [List.mem_append, List.mem_singleton, not_or] at hout
    rw [List.mem_append, List.mem_singleton] at hy
    exact hs.old y (hy.resolve_right hout.2) hout.1 (mem_newest_append hin hout.2)
  refine ⟨?_, ?_, ?_, ?_, fun _ => hnewest, ?_⟩
  · rw [registrations_enter htrace]
    intro y hy
    rw [List.mem_append, List.mem_singleton] at hy
    exact hy.elim (hs.known y) fun heq => ⟨i, heq.symm⟩
  · rw [hlog]
    exact hs.nodup.append (List.nodup_singleton _)
      (List.disjoint_singleton.mpr hnew)
  · rw [hlog, hreg]
    exact hs.held.append (List.Sublist.refl _)
  · exact fun y hy hout hin => hnewest y hy hout (newest_subset (Nat.sub_le max 1) _ hin)
  · intro j y hin
    rw [htrace, List.mem_append, List.mem_singleton] at hin
    obtain ⟨hy, hout⟩ := hs.evicted j y (hin.resolve_right (by simp))
    rw [hlog, hreg, List.mem_append, List.mem_append, List.mem_singleton]
    exact ⟨.inl hy, fun h => h.elim hout fun heq => hnew (heq ▸ hy)⟩

theorem CapInv.step (hs : CapInv u initial sid max s) (h : CapStep u initial sid max i s s') :
    CapInv u initial sid max s' := by
  cases h with
  | look hreg htrace => exact hs.look hreg htrace
  | evict x hreg htrace hx hold => exact hs.evict hreg htrace hx hold
  | enter hnew hreg htrace => exact hs.enter hnew hreg htrace

/-! ## One login among others -/

variable (u initial sid max) in
abbrev CapRely (i : ι) : Traced ι (Call V) (World V) → Traced ι (Call V) (World V) → Prop :=
  Pool.others (CapStep u initial sid max) i

theorem evictSessions_safe {σ : Type} {X : Sem (Call V) Call.Answer σ} {R G : σ → σ → Prop}
    (P : List SessionId → σ → Prop) (hstable : ∀ xs, Stable R (P xs))
    (hstep : ∀ x xs s a s', P (x :: xs) s → X (.registry (.invalidateSession u x)) s a s' →
      G s s' ∧ P xs s')
    (xs : List SessionId) {s : σ} (hs : P xs s) :
    (evictSessions u xs).Safe X R G (fun _ => P []) s := by
  induction xs generalizing s with
  | nil => exact Prog.Safe.ret (P []) (hstable []) hs fun _ h => h
  | cons x xs ih =>
    refine Prog.Safe.call (P (x :: xs)) (hstable _) hs fun s a s' hs hX => ?_
    obtain ⟨hG, hs'⟩ := hstep x xs s a s' hs hX
    exact ⟨hG, ih hs'⟩

section Login

variable (u initial sid max) in
def Waiting (i : ι) (s : Traced ι (Call V) (World V)) : Prop :=
  CapInv u initial sid max s ∧ sid i ∉ registrationLog u initial s

variable (u initial sid max) in
def Entered (i : ι) (s : Traced ι (Call V) (World V)) : Prop :=
  CapInv u initial sid max s ∧ sid i ∈ registrationLog u initial s

variable (u initial sid max) in
def Spare (i : ι) (xs : List SessionId) (s : Traced ι (Call V) (World V)) : Prop :=
  Waiting u initial sid max i s ∧ ∀ x ∈ xs, x ∈ registrationLog u initial s ∧
    x ∉ newest (max - 1) (registrationLog u initial s)

variable (u initial max) in
/-- Of the log `l`, only the newest entries and the ids `left` are still registered, if everybody
had registered in it. -/
def TrimmedTo (sid : ι → SessionId) (i : ι) (left : List SessionId)
    (s : Traced ι (Call V) (World V)) : Prop :=
  ∃ l, l <+: registrationLog u initial s ∧ sid i ∈ l ∧
    ((∀ j, sid j ∈ l) → ∀ x ∈ s.state.registry u, x ∈ l → x ∈ newest max l ∨ x ∈ left)

variable (u initial sid max) in
/-- Login `i` listed `victims` after it had registered and has still to evict `xs`. -/
structure Trimming (i : ι) (victims xs : List SessionId)
    (s : Traced ι (Call V) (World V)) : Prop where
  inv : CapInv u initial sid max s
  old : ∀ x ∈ victims, x ∈ registrationLog u initial s ∧
    x ∉ newest max (registrationLog u initial s)
  rest : xs ⊆ victims
  left : ∀ x ∈ victims, x ∈ s.state.registry u → x ∈ xs
  trimmed : TrimmedTo u initial max sid i victims s

theorem CapStep.trimmedTo {j : ι} {left : List SessionId} (h : CapStep u initial sid max j s s')
    (hs : TrimmedTo u initial max sid i left s) : TrimmedTo u initial max sid i left s' := by
  obtain ⟨l, hl, hi, hx⟩ := hs
  refine ⟨l, hl.trans h.log_prefix, hi, fun hall x hin hmem => hx hall x ?_ hmem⟩
  by_contra hout
  exact h.gone (hl.subset hmem) hout hin

theorem waiting_stable (hinj : Function.Injective sid) :
    Stable (CapRely u initial sid max i)
      (Waiting u initial sid max i : Traced ι (Call V) (World V) → Prop) := by
  rintro s s' ⟨hs, hout⟩ ⟨j, hj, hstep⟩
  refine ⟨hs.step hstep, ?_⟩
  rcases hstep.log with heq | ⟨_, heq⟩
  · rwa [heq]
  · rw [heq, List.mem_append, List.mem_singleton]
    exact fun h => h.elim hout fun heq => hj (hinj heq.symm)

theorem entered_stable : Stable (CapRely u initial sid max i)
    (Entered u initial sid max i : Traced ι (Call V) (World V) → Prop) := by
  rintro s s' ⟨hs, hin⟩ ⟨j, _, hstep⟩
  exact ⟨hs.step hstep, hstep.log_prefix.subset hin⟩

theorem spare_stable (hinj : Function.Injective sid) (xs : List SessionId) :
    Stable (CapRely u initial sid max i)
      (Spare u initial sid max i xs : Traced ι (Call V) (World V) → Prop) := by
  rintro s s' ⟨hs, hxs⟩ ⟨j, hj, hstep⟩
  refine ⟨waiting_stable hinj hs ⟨j, hj, hstep⟩, fun x hx => ?_⟩
  obtain ⟨hin, hold⟩ := hxs x hx
  exact ⟨hstep.log_prefix.subset hin, hstep.notMem_newest hin hold⟩

theorem Trimming.step {j : ι} {victims xs : List SessionId}
    (hs : Trimming u initial sid max i victims xs s) (h : CapStep u initial sid max j s s') :
    Trimming u initial sid max i victims xs s' where
  inv := hs.inv.step h
  old x hx := ⟨h.log_prefix.subset (hs.old x hx).1, h.notMem_newest (hs.old x hx).1 (hs.old x hx).2⟩
  rest := hs.rest
  left x hx hin := by
    refine hs.left x hx ?_
    by_contra hout
    exact h.gone (hs.old x hx).1 hout hin
  trimmed := h.trimmedTo hs.trimmed

theorem trimming_stable (victims xs : List SessionId) :
    Stable (CapRely u initial sid max i)
      (Trimming u initial sid max i victims xs : Traced ι (Call V) (World V) → Prop) :=
  fun _ _ hs ⟨_, _, hstep⟩ => hs.step hstep

/-! The calls of one login, each as a step. -/

theorem capStep_look {a} (hX : traced (fun _ => World.Answers) i (.registry (.heldSessions u)) s a s') :
    CapStep u initial sid max i s s' := by
  obtain ⟨⟨_, hw⟩, htrace⟩ := hX
  exact .look (by rw [hw]; rfl) htrace

theorem capStep_evict {a} {x : SessionId}
    (hX : traced (fun _ => World.Answers) i (.registry (.invalidateSession u x)) s a s')
    (hx : x ∈ registrationLog u initial s)
    (hold : x ∉ newest max (registrationLog u initial s) ∨
      sid i ∉ registrationLog u initial s ∧
        x ∉ newest (max - 1) (registrationLog u initial s)) :
    CapStep u initial sid max i s s' := by
  obtain ⟨⟨_, hw⟩, htrace⟩ := hX
  refine .evict x ?_ htrace hx hold
  rw [hw]
  exact Function.update_self ..

theorem capStep_enter {a}
    (hX : traced (fun _ => World.Answers) i (.registry (.register u (sid i))) s a s')
    (hs : Waiting u initial sid max i s) : a = true ∧ CapStep u initial sid max i s s' := by
  obtain ⟨⟨ha, hw⟩, htrace⟩ := hX
  refine ⟨ha, .enter hs.2 ?_ htrace⟩
  have hout : s.state.registry.holds u (sid i) = false := by
    rw [Registry.holds, List.contains_eq_mem]
    simpa using fun h => hs.2 (hs.1.held.subset h)
  rw [hw]
  show (s.state.registry.register u (sid i)) u = _
  rw [Registry.register, if_neg (by simp [hout])]
  exact Function.update_self ..

variable {service : LoginService}

theorem makeRoom_safe (hinj : Function.Injective sid) (hmax : service.maxSessionsPerUser = some max)
    (hs : Waiting u initial sid max i s) :
    (service.makeRoom u (sid i)).Safe (traced (fun _ => World.Answers) i) (CapRely u initial sid max i)
      (CapStep u initial sid max i) (fun room s => room = true ∧ Waiting u initial sid max i s) s := by
  unfold LoginService.makeRoom
  rw [hmax]
  refine Prog.Safe.call _ (waiting_stable hinj) hs fun s a s' hs hX => ⟨capStep_look hX, ?_⟩
  obtain ⟨⟨ha, hw⟩, htrace⟩ := hX
  have hstep : CapStep u initial sid max i s s' := .look (by rw [hw]; rfl) htrace
  have hlog : registrationLog u initial s' = registrationLog u initial s :=
    registrationLog_quiet rfl htrace
  have hs' : Waiting u initial sid max i s' := ⟨hs.1.step hstep, hlog ▸ hs.2⟩
  rw [ha]
  -- everything listed is another session, so the victims are all but the newest `max - 1`
  have hothers : (s.state.registry u).filter (· != sid i) = s.state.registry u := by
    refine List.filter_eq_self.mpr fun x hx => ?_
    have hne : x ≠ sid i := fun heq => hs.2 (hs.1.held.subset (heq ▸ hx))
    simpa using hne
  have hspare : Spare u initial sid max i
      (victimsBeforeRegister (s.state.registry u) (sid i) max) s' := by
    refine ⟨hs', fun x hx => ?_⟩
    rw [victimsBeforeRegister, hothers] at hx
    have hmem : x ∈ s.state.registry u := List.mem_of_mem_take hx
    rw [hlog]
    refine ⟨hs.1.held.subset hmem, fun hnew => ?_⟩
    have hin := mem_newest_of_sublist hs.1.held hs.1.nodup hmem hnew
    cases max with
    | zero =>
      rw [newest, Nat.zero_sub, Nat.sub_zero, List.drop_length] at hin
      cases hin
    | succ k =>
      refine notMem_take_of_mem_newest (hs.1.nodup.sublist hs.1.held) hin ?_
      refine List.take_subset_take_left _ ?_ hx
      omega
  refine (evictSessions_safe (Spare u initial sid max i) (spare_stable hinj) ?_ _ hspare).bind
    fun _ s h => Prog.Safe.ret _ (waiting_stable hinj) h.1 fun _ h => ⟨rfl, h⟩
  intro x xs s a s' hs hX
  obtain ⟨hx, hold⟩ := hs.2 x List.mem_cons_self
  have hstep := capStep_evict hX hx (.inr ⟨hs.1.2, hold⟩)
  have hlog : registrationLog u initial s' = registrationLog u initial s :=
    registrationLog_quiet rfl hX.2
  refine ⟨hstep, ⟨hs.1.1.step hstep, hlog ▸ hs.1.2⟩, fun y hy => ?_⟩
  rw [hlog]
  exact hs.2 y (List.mem_cons_of_mem x hy)

structure Trimmed (u : UserId) (initial : List SessionId) (sid : ι → SessionId) (max : Nat) (i : ι)
    (kept : Bool) (s : Traced ι (Call V) (World V)) : Prop where
  inv : CapInv u initial sid max s
  lost : kept = false → sid i ∉ s.state.registry u
  trimmed : TrimmedTo u initial max sid i [] s

/-- After it has registered, a login evicts only ids that are not among the newest, and none of the
others is left. -/
theorem trimSessions_safe (hmax : service.maxSessionsPerUser = some max)
    (hs : Entered u initial sid max i s) :
    (service.trimSessions u (sid i)).Safe (traced (fun _ => World.Answers) i)
      (CapRely u initial sid max i) (CapStep u initial sid max i)
      (Trimmed u initial sid max i) s := by
  unfold LoginService.trimSessions
  rw [hmax]
  refine Prog.Safe.call _ entered_stable hs fun s a s' hs hX => ⟨capStep_look hX, ?_⟩
  obtain ⟨⟨ha, hw⟩, htrace⟩ := hX
  have hreg : s'.state.registry u = s.state.registry u := by rw [hw]; rfl
  have hlog : registrationLog u initial s' = registrationLog u initial s :=
    registrationLog_quiet rfl htrace
  rw [ha]
  have hstart : Trimming u initial sid max i (victimsAfterRegister (s.state.registry u) max)
      (victimsAfterRegister (s.state.registry u) max) s' := by
    refine ⟨hs.1.step (.look hreg htrace), fun x hx => ?_, List.Subset.refl _, fun x hx _ => hx, ?_⟩
    · rw [hlog]
      have hmem : x ∈ s.state.registry u := List.mem_of_mem_take hx
      refine ⟨hs.1.held.subset hmem, fun hnew => ?_⟩
      exact notMem_take_of_mem_newest (hs.1.nodup.sublist hs.1.held)
        (mem_newest_of_sublist hs.1.held hs.1.nodup hmem hnew) hx
    · refine ⟨registrationLog u initial s, hlog ▸ List.prefix_rfl, hs.2, fun hall x hx _ => ?_⟩
      rw [hreg] at hx
      -- with everybody registered the newest of the log are all still there
      have hkeep : newest max (registrationLog u initial s) ⊆ s.state.registry u := by
        intro y hy
        by_contra hout
        exact hs.1.oldest hall y ((newest_suffix max _).subset hy) hout hy
      rw [← newest_eq_of_sublist hs.1.held hs.1.nodup hkeep]
      by_cases hnew : x ∈ newest max (s.state.registry u)
      · exact .inl hnew
      · exact .inr (mem_take_of_notMem_newest hx hnew)
  refine (evictSessions_safe (Trimming u initial sid max i _) (trimming_stable _) ?_ _ hstart).bind
    fun _ t h => Prog.Safe.ret _ (trimming_stable _ _) h fun t h => ?_
  · intro x xs s a s' hs hX
    obtain ⟨hx, hold⟩ := hs.old x (hs.rest List.mem_cons_self)
    have hstep : CapStep u initial sid max i s s' := capStep_evict hX hx (.inl hold)
    refine ⟨hstep, { hs.step hstep with
      rest := fun y hy => hs.rest (List.mem_cons_of_mem x hy), left := fun y hy hin => ?_ }⟩
    have hout : x ∉ s'.state.registry u := ((hs.inv.step hstep).evicted i x (by
      rw [hX.2]
      exact List.mem_append_right _ (List.mem_singleton.mpr rfl))).2
    rcases List.mem_cons.mp ((hs.step hstep).left y hy hin) with rfl | hxs
    · exact absurd hin hout
    · exact hxs
  · obtain ⟨l, hl, hi, hx⟩ := h.trimmed
    refine ⟨h.inv, fun hlost hin => ?_, l, hl, hi, fun hall x hin hmem => ?_⟩
    · have hvictim : sid i ∈ victimsAfterRegister (s.state.registry u) max := by
        simpa [List.contains_eq_mem] using hlost
      exact List.not_mem_nil (h.left _ hvictim hin)
    · rcases hx hall x hin hmem with hnew | hvictim
      · exact .inl hnew
      · exact absurd (h.left x hvictim hin) List.not_mem_nil

theorem registerUnderCap_safe (hinj : Function.Injective sid)
    (hmax : service.maxSessionsPerUser = some max) (hs : Waiting u initial sid max i s) :
    (service.registerUnderCap u (sid i)).Safe (traced (fun _ => World.Answers) i)
      (CapRely u initial sid max i) (CapStep u initial sid max i)
      (Trimmed u initial sid max i) s := by
  unfold LoginService.registerUnderCap
  refine (makeRoom_safe hinj hmax hs).bind fun room s ⟨hroom, hs⟩ => ?_
  rw [if_pos hroom]
  refine Prog.Safe.call _ (waiting_stable hinj) hs fun s a s' hs hX => ?_
  obtain ⟨ha, hstep⟩ := capStep_enter hX hs
  refine ⟨hstep, ?_⟩
  subst ha
  refine trimSessions_safe hmax ⟨hs.1.step hstep, ?_⟩
  rw [registrationLog_enter hX.2]
  exact List.mem_append_right _ (List.mem_singleton.mpr rfl)

end Login

section Parallel

variable {service : LoginService}

def parallelLogins (service : LoginService) (u : UserId) (sid : ι → SessionId) (w : World V) :
    Pool ι (Call V) Call.Answer Bool (Traced ι (Call V) (World V)) :=
  ⟨fun i => service.registerUnderCap u (sid i), ⟨w, []⟩⟩

theorem parallelLogins_safe (hmax : service.maxSessionsPerUser = some max)
    (hinj : Function.Injective sid) {w : World V} (hnodup : (w.registry u).Nodup)
    (hfresh : ∀ i, sid i ∉ w.registry u) :
    Pool.AllSafe (traced fun _ => World.Answers) (CapStep u (w.registry u) sid max)
      (Trimmed u (w.registry u) sid max) (parallelLogins service u sid w) := by
  intro i
  have hlog : registrationLog u (w.registry u) (⟨w, []⟩ : Traced ι (Call V) (World V)) =
      w.registry u := List.append_nil _
  refine registerUnderCap_safe hinj hmax ⟨⟨?_, ?_, ?_, ?_, ?_, ?_⟩, ?_⟩
  · exact fun x hx => absurd hx List.not_mem_nil
  · exact hlog.symm ▸ hnodup
  · exact hlog.symm ▸ List.Sublist.refl _
  · exact fun x hx hout => absurd (hlog ▸ hx) hout
  · exact fun _ x hx hout => absurd (hlog ▸ hx) hout
  · exact fun j x hx => absurd hx List.not_mem_nil
  · exact hlog.symm ▸ hfresh i

theorem TrimmedTo.of_last {l : List SessionId} (hlog : registrationLog u initial s = l ++ [sid i])
    (hnodup : (registrationLog u initial s).Nodup) (hall : ∀ j, sid j ∈ registrationLog u initial s)
    (h : TrimmedTo u initial max sid i [] s) :
    ∀ x ∈ s.state.registry u, x ∈ registrationLog u initial s →
      x ∈ newest max (registrationLog u initial s) := by
  obtain ⟨l', hl', hi, hx⟩ := h
  have heq : l' = registrationLog u initial s := by
    rw [hlog] at hl' hnodup ⊢
    rcases List.prefix_concat_iff.mp hl' with heq | hpre
    · exact heq
    · exact absurd rfl ((List.nodup_append.mp hnodup).2.2 _ (hpre.subset hi) _
        (List.mem_singleton.mpr rfl))
  subst heq
  exact fun x hin hmem => (hx hall x hin hmem).resolve_right List.not_mem_nil

/-- When every login has finished, the registry lists exactly the newest of everything ever
registered, each login among them was told to go on, and none of them was ever evicted. -/
theorem parallel_logins_converge [DecidableEq ι] [Nonempty ι]
    (hmax : service.maxSessionsPerUser = some max)
    (hinj : Function.Injective sid) {w : World V} (hnodup : (w.registry u).Nodup)
    (hfresh : ∀ i, sid i ∉ w.registry u)
    {s : Pool ι (Call V) Call.Answer Bool (Traced ι (Call V) (World V))}
    (hr : Pool.Reaches (traced fun _ => World.Answers) (parallelLogins service u sid w) s)
    {kept : ι → Bool} (hdone : ∀ i, s.prog i = .ret (kept i)) :
    ((registrations u s.state.trace).Nodup ∧
      ∀ x, x ∈ registrations u s.state.trace ↔ ∃ i, sid i = x) ∧
    s.state.state.registry u = newest max (w.registry u ++ registrations u s.state.trace) ∧
    ∀ i, sid i ∈ s.state.state.registry u →
      kept i = true ∧ ∀ j, (j, .registry (.invalidateSession u (sid i))) ∉ s.state.trace := by
  have hsafe := parallelLogins_safe hmax hinj hnodup hfresh
  have hpost : ∀ i, Trimmed u (w.registry u) sid max i (kept i) s.state :=
    fun i => hr.post hsafe (hdone i)
  have hinv : CapInv u (w.registry u) sid max s.state := (hpost (Classical.arbitrary ι)).inv
  have hall : ∀ j, sid j ∈ registrationLog u (w.registry u) s.state := by
    intro j
    obtain ⟨l, hl, hj, _⟩ := (hpost j).trimmed
    exact hl.subset hj
  have hregistered : ∀ j, sid j ∈ registrations u s.state.trace :=
    fun j => (List.mem_append.mp (hall j)).resolve_left (hfresh j)
  refine ⟨⟨(List.nodup_append.mp hinv.nodup).2.1, fun x => ⟨hinv.known x, ?_⟩⟩, ?_, ?_⟩
  · rintro ⟨i, rfl⟩
    exact hregistered i
  · -- the newest were never evicted; the last login to register removed the others
    have hkeep : newest max (registrationLog u (w.registry u) s.state) ⊆ s.state.state.registry u := by
      intro x hx
      by_contra hout
      exact hinv.oldest hall x ((newest_suffix max _).subset hx) hout hx
    refine eq_newest_of_sublist hinv.held hinv.nodup hkeep fun x hx => ?_
    rcases List.eq_nil_or_concat (registrations u s.state.trace) with hnil | ⟨l, last, hlast⟩
    · exact absurd (hnil ▸ hregistered (Classical.arbitrary ι)) List.not_mem_nil
    · obtain ⟨i, rfl⟩ := hinv.known last (hlast ▸ by simp)
      refine (hpost i).trimmed.of_last (l := w.registry u ++ l) ?_ hinv.nodup hall x hx
        (hinv.held.subset hx)
      rw [registrationLog, hlast, List.concat_eq_append, List.append_assoc]
  · intro i hin
    refine ⟨?_, fun j hevicted => (hinv.evicted j _ hevicted).2 hin⟩
    cases hkept : kept i with
    | false => exact absurd hin ((hpost i).lost hkept)
    | true => rfl

def exampleLogins : Pool Bool (Call Unit) Call.Answer Bool (Traced Bool (Call Unit) (World Unit)) :=
  Pool.replay (noting fun _ (_ : Unit) => World.perform)
    (([false, true, false, true, false, true, true, false, false, true, false, true]).map (·, ()))
    (parallelLogins (.literal 0 (some 1)) ⟨7⟩ (fun b => if b then ⟨11⟩ else ⟨10⟩)
      { World.empty with registry := fun _ => [⟨1⟩] })

theorem parallel_logins_converge_exampleLogins :
    exampleLogins.state.state.registry ⟨7⟩ =
      newest 1 ([⟨1⟩] ++ registrations ⟨7⟩ exampleLogins.state.trace) := by
  let w : World Unit := { World.empty with registry := fun _ => [⟨1⟩] }
  have hrun : Pool.Reaches (traced fun _ => World.Answers)
      (parallelLogins (.literal 0 (some 1)) ⟨7⟩ (fun b : Bool => if b then ⟨11⟩ else ⟨10⟩) w)
      exampleLogins :=
    Pool.reaches_replay (traced_noting fun _ _ _ _ => ⟨rfl, rfl⟩) _ _
  have hdone : ∀ b, exampleLogins.prog b = .ret b := fun b => by cases b <;> rfl
  refine (parallel_logins_converge (w := w) rfl ?_ ?_ ?_ hrun hdone).2.1
  · exact fun a b => by cases a <;> cases b <;> decide
  · exact List.nodup_singleton _
  · exact fun b => by cases b <;> decide

end Parallel

end Axess
