import Axess.Calls.Prog

/-!
# Interleaved programs

A pool is a family of programs over one shared state. One step lets one member make its next
call; a run is any sequence of steps, so every interleaving of the members' calls is a run.

`Prog.Safe` is a rely/guarantee judgement: whatever the environment does within the rely `R`,
every call of the program keeps the guarantee `G`, and when the program returns the
postcondition `Q` holds. `Pool.Reaches.safe` composes the members: a pool whose members each
rely on no more than what the others guarantee is safe along every run.
-/

namespace Calls

open Relation

variable {E : Type} {A : E → Type} {α β σ : Type}

/-- What a call may answer and how it may leave the state. -/
abbrev Sem (E : Type) (A : E → Type) (σ : Type) := (e : E) → σ → A e → σ → Prop

/-- `P` survives every step of `R`. -/
def Stable (R : σ → σ → Prop) (P : σ → Prop) : Prop := ∀ ⦃w w'⦄, P w → R w w' → P w'

theorem Stable.star {R : σ → σ → Prop} {P : σ → Prop} (hs : Stable R P) :
    Stable (ReflTransGen R) P := by
  intro w w' hw hR
  induction hR with
  | refl => exact hw
  | tail _ hstep ih => exact hs ih hstep

theorem Stable.and {R : σ → σ → Prop} {P Q : σ → Prop} (hP : Stable R P) (hQ : Stable R Q) :
    Stable R fun w => P w ∧ Q w :=
  fun _ _ h hR => ⟨hP h.1 hR, hQ h.2 hR⟩

namespace Prog

/-- Started in `w`, with the environment moving within `R` before each call and before the
return, every call keeps `G` and the return satisfies `Q`. -/
def Safe (X : Sem E A σ) (R G : σ → σ → Prop) (Q : α → σ → Prop) : Prog E A α → σ → Prop
  | ret a, w => ∀ w', ReflTransGen R w w' → Q a w'
  | call e k, w => ∀ w', ReflTransGen R w w' → ∀ a w'', X e w' a w'' →
      G w' w'' ∧ Safe X R G Q (k a) w''

variable {X : Sem E A σ} {R G : σ → σ → Prop} {Q : α → σ → Prop}

variable {w : σ} {p : Prog E A α}

theorem Safe.rely {w' : σ} (hp : p.Safe X R G Q w)
    (hR : ReflTransGen R w w') : p.Safe X R G Q w' := by
  cases p with
  | ret a => exact fun w'' h => hp w'' (hR.trans h)
  | call e k => exact fun w'' h => hp w'' (hR.trans h)

variable {a : α}

theorem Safe.ret (P : σ → Prop) (hs : Stable R P) (hw : P w) (hpost : ∀ w, P w → Q a w) :
    (ret a : Prog E A α).Safe X R G Q w :=
  fun w' hR => hpost w' (hs.star hw hR)

variable {e : E}

/-- A call is safe from a stable assertion that makes each of its outcomes keep the guarantee
and leaves the rest of the program safe. -/
theorem Safe.call {k : A e → Prog E A α} (P : σ → Prop) (hs : Stable R P) (hw : P w)
    (hstep : ∀ w a w', P w → X e w a w' → G w w' ∧ (k a).Safe X R G Q w') :
    (call e k).Safe X R G Q w :=
  fun w' hR a w'' hX => hstep w' a w'' (hs.star hw hR) hX

theorem Safe.perform_bind {f : A e → Prog E A α} (P : σ → Prop) (hs : Stable R P) (hw : P w)
    (hstep : ∀ w a w', P w → X e w a w' → G w w' ∧ (f a).Safe X R G Q w') :
    (perform e >>= f).Safe X R G Q w :=
  Safe.call P hs hw hstep

theorem Safe.conseq {Q' : α → σ → Prop} (hp : p.Safe X R G Q w)
    (hQ : ∀ a w, Q a w → Q' a w) : p.Safe X R G Q' w := by
  induction p generalizing w with
  | ret a => exact fun w' hR => hQ a w' (hp w' hR)
  | call e k ih =>
    intro w' hR a w'' hX
    obtain ⟨hG, hk⟩ := hp w' hR a w'' hX
    exact ⟨hG, ih a hk⟩

variable {Q' : β → σ → Prop} {f : α → Prog E A β}

theorem Safe.bind (hp : p.Safe X R G Q w) (hf : ∀ a w, Q a w → (f a).Safe X R G Q' w) :
    (p >>= f).Safe X R G Q' w := by
  induction p generalizing w with
  | ret a => exact hf a w (hp w .refl)
  | call e k ih =>
    intro w' hR a w'' hX
    obtain ⟨hG, hk⟩ := hp w' hR a w'' hX
    exact ⟨hG, ih a hk⟩

theorem Safe.map {f : α → β} (hp : p.Safe X R G (fun a w => Q' (f a) w) w) :
    (p >>= fun a => pure (f a)).Safe X R G Q' w := by
  induction p generalizing w with
  | ret a => exact hp
  | call e k ih =>
    intro w' hR a w'' hX
    obtain ⟨hG, hk⟩ := hp w' hR a w'' hX
    exact ⟨hG, ih a hk⟩

variable {P : E → Prop}

theorem Safe.within {T : α → Prop} (hp : p.Safe X R G Q w) (hin : p.Within P T) :
    p.Safe X R G (fun a w => T a ∧ Q a w) w := by
  induction p generalizing w with
  | ret a => exact fun w' hR => ⟨hin, hp w' hR⟩
  | call e k ih =>
    intro w' hR a w'' hX
    obtain ⟨hG, hk⟩ := hp w' hR a w'' hX
    exact ⟨hG, ih a hk (hin.2 a)⟩

theorem Only.safe (hp : p.Only P) (hG : ∀ e w a w', P e → X e w a w' → G w w') (w : σ) :
    p.Safe X R G (fun _ _ => True) w := by
  induction p generalizing w with
  | ret a => exact fun _ _ => trivial
  | call e k ih =>
    exact fun w' _ a w'' hX => ⟨hG e w' a w'' hp.1 hX, ih a (hp.2 a) w''⟩

/-- An assertion that the environment keeps, and every call the program can make, holds along with
what the program returns whatever its calls are answered. -/
theorem Within.safe {T : α → Prop} {I : σ → Prop} (hp : p.Within P T) (hI : Stable R I)
    (hcall : ∀ e w a w', P e → X e w a w' → I w → G w w' ∧ I w') (hw : I w) :
    p.Safe X R G (fun a w => T a ∧ I w) w := by
  induction p generalizing w with
  | ret a => exact fun w' hR => ⟨hp, hI.star hw hR⟩
  | call e k ih =>
    intro w' hR a w'' hX
    obtain ⟨hG, hw''⟩ := hcall e w' a w'' hp.1 hX (hI.star hw hR)
    exact ⟨hG, ih a (hp.2 a) hw''⟩

theorem Safe.relabel {E' : Type} {A' : E' → Type} {f : E → E'} {X' : Sem E' A' σ}
    {p : Prog E (fun e => A' (f e)) α} (hp : p.Safe (fun e => X' (f e)) R G Q w) :
    (p.expand fun e => perform (f e)).Safe X' R G Q w := by
  induction p generalizing w with
  | ret a => exact hp
  | call e k ih =>
    intro w' hR a w'' hX
    obtain ⟨hG, hk⟩ := hp w' hR a w'' hX
    exact ⟨hG, ih a hk⟩

theorem Safe.restrict {Y : Sem E A σ} {R' T : σ → σ → Prop}
    (hp : p.Safe X R G Q w) (hY : ∀ e w a w', Y e w a w' → X e w a w' ∧ T w w')
    (hR : ∀ w w', R' w w' → R w w') : p.Safe Y R' (fun w w' => G w w' ∧ T w w') Q w := by
  induction p generalizing w with
  | ret a => exact fun w' hw' => hp w' (ReflTransGen.mono hR _ _ hw')
  | call e k ih =>
    intro w' hw' a w'' hcall
    obtain ⟨hX, hT⟩ := hY e w' a w'' hcall
    obtain ⟨hG, hk⟩ := hp w' (ReflTransGen.mono hR _ _ hw') a w'' hX
    exact ⟨⟨hG, hT⟩, ih a hk⟩

theorem Safe.project {E' : Type} {A' : E' → Type} {τ : Type} {f : E → E'} {g : τ → σ}
    {X : Sem E (fun e => A' (f e)) σ} {X' : Sem E' A' τ} {R' : τ → τ → Prop}
    (hX : ∀ e u a u', X' (f e) u a u' → X e (g u) a (g u'))
    (hR : ∀ u u', R' u u' → R (g u) (g u')) {p : Prog E (fun e => A' (f e)) α} {u : τ}
    (hp : p.Safe X R G Q (g u)) :
    (p.expand fun e => perform (f e)).Safe X' R' (fun u u' => G (g u) (g u'))
      (fun a u => Q a (g u)) u := by
  induction p generalizing u with
  | ret a => exact fun u' hu' => hp (g u') (hu'.lift g hR)
  | call e k ih =>
    intro u' hu' a u'' hcall
    obtain ⟨hG, hk⟩ := hp (g u') (hu'.lift g hR) a (g u'') (hX e u' a u'' hcall)
    exact ⟨hG, ih a hk⟩

theorem Safe.forall {κ : Type} [Nonempty κ] {Q : κ → α → σ → Prop}
    (hp : ∀ k, p.Safe X R G (Q k) w) : p.Safe X R G (fun a w => ∀ k, Q k a w) w := by
  induction p generalizing w with
  | ret a => exact fun w' hR k => hp k w' hR
  | call e k ih =>
    intro w' hR a w'' hX
    have hG := (hp (Classical.arbitrary κ) w' hR a w'' hX).1
    exact ⟨hG, ih a fun x => (hp x w' hR a w'' hX).2⟩

theorem Safe.of_true (hG : ∀ w w', G w w') (hQ : ∀ a w, Q a w) (p : Prog E A α) (w : σ) :
    p.Safe X R G Q w := by
  induction p generalizing w with
  | ret a => exact fun w' _ => hQ a w'
  | call e k ih => exact fun w' _ a w'' _ => ⟨hG w' w'', ih a w''⟩

inductive Runs (X : Sem E A σ) : Prog E A α → σ → α → σ → Prop where
  | ret (a : α) (w : σ) : Runs X (ret a) w a w
  | call {e : E} {k : A e → Prog E A α} {a : A e} {b : α} {w w' w'' : σ} :
      X e w a w' → Runs X (k a) w' b w'' → Runs X (call e k) w b w''

theorem Runs.of_bind {w'' : σ} {b : β} (h : (p >>= f).Runs X w b w'') :
    ∃ a w', p.Runs X w a w' ∧ (f a).Runs X w' b w'' := by
  induction p generalizing w with
  | ret a => exact ⟨a, w, .ret a w, h⟩
  | call e k ih =>
    rw [call_bind] at h
    cases h with
    | call hX hrest =>
      obtain ⟨a, w', hk, hf⟩ := ih _ hrest
      exact ⟨a, w', .call hX hk, hf⟩

theorem Runs.of_perform {f : A e → Prog E A β} {w'' : σ} {b : β}
    (h : (perform e >>= f).Runs X w b w'') : ∃ a w', X e w a w' ∧ (f a).Runs X w' b w'' := by
  rw [perform_bind] at h
  cases h with
  | call hX hrest => exact ⟨_, _, hX, hrest⟩

theorem Runs.of_ret {b : α} {w' : σ} (h : (Prog.ret a : Prog E A α).Runs X w b w') :
    b = a ∧ w' = w := by
  cases h
  exact ⟨rfl, rfl⟩

theorem runs_eval {h : (e : E) → σ → A e × σ} (hX : ∀ e w, X e w (h e w).1 (h e w).2)
    (p : Prog E A α) (w : σ) : p.Runs X w (p.eval h w).1 (p.eval h w).2 := by
  induction p generalizing w with
  | ret a => exact .ret a w
  | call e k ih => exact .call (hX e w) (ih _ _)

def Ends (X : Sem E A σ) (Q : α → σ → Prop) (p : Prog E A α) (w : σ) : Prop :=
  ∀ a w', p.Runs X w a w' → Q a w'

theorem Ends.ret (h : Q a w) : (Prog.ret a : Prog E A α).Ends X Q w := by
  intro b w' hr
  obtain ⟨rfl, rfl⟩ := hr.of_ret
  exact h

theorem Ends.conseq {Q' : α → σ → Prop} (hp : p.Ends X Q w)
    (hQ : ∀ a w, Q a w → Q' a w) : p.Ends X Q' w :=
  fun a w' hr => hQ a w' (hp a w' hr)

theorem Ends.bind (hp : p.Ends X Q w) (hf : ∀ a w, Q a w → (f a).Ends X Q' w) :
    (p >>= f).Ends X Q' w := by
  intro b w'' hr
  obtain ⟨a, w', hp', hf'⟩ := hr.of_bind
  exact hf a w' (hp a w' hp') b w'' hf'

theorem Ends.perform_bind {f : A e → Prog E A β} {Q : β → σ → Prop}
    (h : ∀ a w', X e w a w' → (f a).Ends X Q w') : (perform e >>= f).Ends X Q w := by
  intro b w'' hr
  obtain ⟨a, w', hX, hf⟩ := hr.of_perform
  exact h a w' hX b w'' hf

end Prog

variable {ι χ : Type} [DecidableEq ι]

structure Pool (ι : Type) (E : Type) (A : E → Type) (α σ : Type) where
  prog : ι → Prog E A α
  state : σ

namespace Pool

inductive Step (X : ι → Sem E A σ) : Pool ι E A α σ → Pool ι E A α σ → Prop where
  | call (i : ι) {s : Pool ι E A α σ} {e : E} {k : A e → Prog E A α} {a : A e} {w : σ} :
      s.prog i = .call e k → X i e s.state a w →
      Step X s ⟨Function.update s.prog i (k a), w⟩

/-- Every run: any number of steps, by any members in any order. -/
abbrev Reaches (X : ι → Sem E A σ) : Pool ι E A α σ → Pool ι E A α σ → Prop :=
  ReflTransGen (Step X)

/-- What member `i` must put up with: a step that another member guarantees. -/
def others (G : ι → σ → σ → Prop) (i : ι) (w w' : σ) : Prop := ∃ j, j ≠ i ∧ G j w w'

variable {X : ι → Sem E A σ} {G : ι → σ → σ → Prop} {Q : ι → α → σ → Prop}

/-- The members of a pool, each safe against what the others guarantee. -/
def AllSafe (X : ι → Sem E A σ) (G : ι → σ → σ → Prop) (Q : ι → α → σ → Prop)
    (s : Pool ι E A α σ) : Prop :=
  ∀ i, (s.prog i).Safe (X i) (others G i) (G i) (Q i) s.state

variable {s s' : Pool ι E A α σ}

theorem Step.safe (hs : Step X s s') (h : AllSafe X G Q s) :
    AllSafe X G Q s' ∧ ∃ i, G i s.state s'.state := by
  cases hs with
  | @call i _ e k a w hprog hX =>
    have hi := h i
    rw [hprog] at hi
    obtain ⟨hG, hk⟩ := hi s.state .refl a w hX
    refine ⟨fun j => ?_, i, hG⟩
    by_cases hj : j = i
    · subst hj
      simpa using hk
    · simpa [Function.update_of_ne hj] using (h j).rely (.single ⟨i, Ne.symm hj, hG⟩)

theorem Reaches.safe (hr : Reaches X s s') (h : AllSafe X G Q s) :
    AllSafe X G Q s' := by
  induction hr with
  | refl => exact h
  | tail _ hstep ih => exact (hstep.safe ih).1

theorem Reaches.invariant (hr : Reaches X s s')
    (h : AllSafe X G Q s) {I : σ → Prop} (hG : ∀ i w w', G i w w' → I w → I w')
    (hI : I s.state) : I s'.state := by
  induction hr with
  | refl => exact hI
  | tail hr hstep ih =>
    obtain ⟨-, i, hGi⟩ := hstep.safe (Reaches.safe hr h)
    exact hG i _ _ hGi ih

theorem Reaches.post (hr : Reaches X s s') (h : AllSafe X G Q s)
    {i : ι} {a : α} (hret : s'.prog i = .ret a) : Q i a s'.state := by
  have hi := hr.safe h i
  rw [hret] at hi
  exact hi _ .refl

theorem Reaches.post_of (hr : Reaches X s s') (h : AllSafe X G Q s) {i : ι}
    {Q' : α → σ → Prop} (hi : (s.prog i).Safe (X i) (others G i) (G i) Q' s.state) {a : α}
    (hret : s'.prog i = .ret a) : Q' a s'.state := by
  have hall : AllSafe X G (fun j a w => j = i → Q' a w) s := by
    intro j
    by_cases hj : j = i
    · subst hj
      exact hi.conseq fun _ _ hq _ => hq
    · exact (h j).conseq fun _ _ _ hji => absurd hji hj
  exact hr.post hall hret rfl

/-- As long as no answer of `stop` has put `L` in force, a member may as well have run another
program that differs from its own after such an answer only. -/
theorem Reaches.replace {stop : (e : E) → A e → Prop} {L : σ → Prop} {i : ι} {q : Prog E A α}
    (hr : Reaches X s s') (h : AllSafe X G Q s) (hq : (s.prog i).SameUntil stop q)
    (hstop : ∀ e w a w', X i e w a w' → stop e a → L w') (hL : ∀ j w w', G j w w' → L w → L w') :
    L s'.state ∨ ∃ q', (s'.prog i).SameUntil stop q' ∧
      Reaches X ⟨Function.update s.prog i q, s.state⟩ ⟨Function.update s'.prog i q', s'.state⟩ := by
  induction hr with
  | refl => exact .inr ⟨q, hq, .refl⟩
  | @tail b _ hr hstep ih =>
    obtain ⟨-, k, hG⟩ := hstep.safe (Reaches.safe hr h)
    rcases ih with hdone | ⟨q', hq', hreach⟩
    · exact .inl (hL k _ _ hG hdone)
    cases hstep with
    | @call j _ e k a w hprog hX =>
      by_cases hj : j = i
      · subst hj
        by_cases hs : stop e a
        · exact .inl (hstop e _ a w hX hs)
        rw [hprog] at hq'
        obtain ⟨k', rfl, hk'⟩ := hq'
        have hcall : Step X ⟨Function.update b.prog j (.call e k'), b.state⟩ _ :=
          .call j (Function.update_self ..) hX
        rw [Function.update_idem] at hcall
        exact .inr ⟨k' a, by simpa using hk' a hs, by simpa using hreach.tail hcall⟩
      · have hcall : Step X ⟨Function.update b.prog i q', b.state⟩ _ :=
          .call j ((Function.update_of_ne hj ..).trans hprog) hX
        dsimp only at hcall
        rw [Function.update_comm (Ne.symm hj)] at hcall
        exact .inr ⟨q', by simpa [Function.update_of_ne (Ne.symm hj)] using hq', hreach.tail hcall⟩

inductive After : Prog E A α → Prog E A α → Prop where
  | call (e : E) (k : A e → Prog E A α) (a : A e) : After (.call e k) (k a)
  | step (e : E) (k : A e → Prog E A α) (a : A e) {q : Prog E A α} :
      After (k a) q → After (.call e k) q

theorem After.trans {p q r : Prog E A α} (hpq : After p q) (hqr : After q r) : After p r := by
  induction hpq with
  | call e k a => exact .step e k a hqr
  | step e k a _ ih => exact .step e k a (ih hqr)

theorem After.asymm {p q : Prog E A α} (hpq : After p q) : ¬After q p := by
  induction p generalizing q with
  | ret a => cases hpq
  | call e k ih =>
    intro hqp
    cases hpq with
    | call _ _ a => exact ih a hqp (.call e k a)
    | step _ _ a hstep => exact ih a (hstep.trans hqp) (.call e k a)

/-- A member whose program is still the one it began with has made no call: what the others keep
still holds. -/
theorem Reaches.idle (hr : Reaches X s s') (h : AllSafe X G Q s) {i : ι}
    {I : σ → Prop} (hI : Stable (others G i) I) (hs : I s.state)
    (hidle : s'.prog i = s.prog i) : I s'.state := by
  have hrun : (s'.prog i = s.prog i ∧ I s'.state) ∨ After (s.prog i) (s'.prog i) := by
    clear hidle
    induction hr with
    | refl => exact .inl ⟨rfl, hs⟩
    | tail hr hstep ih =>
      cases hstep with
      | @call j _ e k a w hprog hX =>
        by_cases hj : j = i
        · subst hj
          have hnow : After (s.prog j) (k a) := by
            rcases ih with ⟨heq, _⟩ | hafter
            · rw [← heq, hprog]
              exact .call e k a
            · exact hafter.trans (hprog ▸ .call e k a)
          exact .inr (by simpa using hnow)
        · have hsafe := Reaches.safe hr h j
          rw [hprog] at hsafe
          have hG := (hsafe _ .refl a w hX).1
          simp only [Function.update_of_ne (Ne.symm hj)]
          exact ih.imp_left fun hIs => ⟨hIs.1, hI hIs.2 ⟨j, hj, hG⟩⟩
  rcases hrun with ⟨_, hIs⟩ | hafter
  · exact hIs
  · exact absurd (hidle ▸ hafter) (fun hself => hself.asymm hself)

end Pool

structure Traced (ι E σ : Type) where
  state : σ
  trace : List (ι × E)

def traced (X : ι → Sem E A σ) (i : ι) : Sem E A (Traced ι E σ) := fun e s a s' =>
  X i e s.state a s'.state ∧ s'.trace = s.trace ++ [(i, e)]

namespace Pool

abbrev Answerer (ι χ E : Type) (A : E → Type) (σ : Type) := ι → χ → (e : E) → σ → A e × σ

def stepAt (h : Answerer ι χ E A σ) (s : Pool ι E A α σ) (ic : ι × χ) : Pool ι E A α σ :=
  match s.prog ic.1 with
  | .ret _ => s
  | .call e k =>
    ⟨Function.update s.prog ic.1 (k (h ic.1 ic.2 e s.state).1), (h ic.1 ic.2 e s.state).2⟩

def replay (h : Answerer ι χ E A σ) (sched : List (ι × χ)) (s : Pool ι E A α σ) :
    Pool ι E A α σ :=
  sched.foldl (stepAt h) s

/-- A schedule in blocks: how many turns in a row, which member has them, and its choice. -/
def turns {n : Nat} (blocks : List (Nat × Nat × χ)) : List (Fin (n + 1) × χ) :=
  blocks.flatMap fun block => List.replicate block.1 (Fin.ofNat (n + 1) block.2.1, block.2.2)

theorem reaches_stepAt (h : Answerer ι χ E A σ) (i : ι) (c : χ) {s : Pool ι E A α σ} {e : E}
    {k : A e → Prog E A α} (hprog : s.prog i = .call e k)
    (hX : X i e s.state (h i c e s.state).1 (h i c e s.state).2) :
    Reaches X s (stepAt h s (i, c)) := by
  have hstep : stepAt h s (i, c) =
      ⟨Function.update s.prog i (k (h i c e s.state).1), (h i c e s.state).2⟩ := by
    unfold stepAt
    split
    next hret => rw [hprog] at hret; cases hret
    next e' k' hcall =>
      rw [hprog] at hcall
      cases hcall
      rfl
  rw [hstep]
  exact .single (.call i hprog hX)

theorem stepAt_of_ret (h : Answerer ι χ E A σ) {s : Pool ι E A α σ} {ic : ι × χ} {a : α}
    (hprog : s.prog ic.1 = .ret a) : stepAt h s ic = s := by
  unfold stepAt
  rw [hprog]

def admits (ok : ι → χ → E → σ → Bool) (h : Answerer ι χ E A σ) :
    List (ι × χ) → Pool ι E A α σ → Bool
  | [], _ => true
  | ic :: sched, s =>
    (match s.prog ic.1 with
      | .ret _ => true
      | .call e _ => ok ic.1 ic.2 e s.state) && admits ok h sched (stepAt h s ic)

/-- A schedule is a run, if every call that passes the check is answered as the transition
relation allows. -/
theorem reaches_replay_of_admits {h : Answerer ι χ E A σ} {ok : ι → χ → E → σ → Bool}
    (hX : ∀ i c e w, ok i c e w = true → X i e w (h i c e w).1 (h i c e w).2)
    (sched : List (ι × χ)) (s : Pool ι E A α σ) (hs : admits ok h sched s = true) :
    Reaches X s (replay h sched s) := by
  induction sched generalizing s with
  | nil => exact .refl
  | cons ic sched ih =>
    rw [admits, Bool.and_eq_true] at hs
    refine .trans ?_ (ih (stepAt h s ic) hs.2)
    cases hprog : s.prog ic.1 with
    | ret a => rw [stepAt_of_ret h hprog]
    | call e k =>
      have hok := hs.1
      rw [hprog] at hok
      exact reaches_stepAt h ic.1 ic.2 hprog (hX ic.1 ic.2 e s.state hok)

theorem admits_true (h : Answerer ι χ E A σ) (sched : List (ι × χ)) (s : Pool ι E A α σ) :
    admits (fun _ _ _ _ => true) h sched s = true := by
  induction sched generalizing s with
  | nil => rfl
  | cons ic sched ih =>
    rw [admits, ih, Bool.and_true]
    split <;> rfl

theorem reaches_replay {h : Answerer ι χ E A σ}
    (hX : ∀ i c e w, X i e w (h i c e w).1 (h i c e w).2) (sched : List (ι × χ))
    (s : Pool ι E A α σ) : Reaches X s (replay h sched s) :=
  reaches_replay_of_admits (fun i c e w _ => hX i c e w) sched s (admits_true h sched s)

theorem stepAt_prog_of_ne (h : Answerer ι χ E A σ) (s : Pool ι E A α σ) {ic : ι × χ} {j : ι}
    (hj : j ≠ ic.1) : (stepAt h s ic).prog j = s.prog j := by
  unfold stepAt
  split
  · rfl
  · exact Function.update_of_ne hj _ _

theorem replay_prog_of_notMem (h : Answerer ι χ E A σ) {j : ι} (sched : List (ι × χ))
    (s : Pool ι E A α σ) (hj : j ∉ sched.map (·.1)) : (replay h sched s).prog j = s.prog j := by
  induction sched generalizing s with
  | nil => rfl
  | cons ic sched ih =>
    rw [List.map_cons, List.mem_cons, not_or] at hj
    exact (ih (stepAt h s ic) hj.2).trans (stepAt_prog_of_ne h s hj.1)

end Pool

omit [DecidableEq ι] in
/-- One member of a pool, safe against what the others guarantee. -/
abbrev Prog.SafeAmong (X : ι → Sem E A σ) (G : ι → σ → σ → Prop) (i : ι) (Q : α → σ → Prop)
    (p : Prog E A α) (w : σ) : Prop :=
  p.Safe (X i) (Pool.others G i) (G i) Q w

def noting (h : Pool.Answerer ι χ E A σ) : Pool.Answerer ι χ E A (Traced ι E σ) :=
  fun i c e s => ((h i c e s.state).1, ⟨(h i c e s.state).2, s.trace ++ [(i, e)]⟩)

omit [DecidableEq ι] in
theorem traced_noting {X : ι → Sem E A σ} {h : Pool.Answerer ι χ E A σ}
    (hX : ∀ i c e w, X i e w (h i c e w).1 (h i c e w).2) (i : ι) (c : χ) (e : E)
    (s : Traced ι E σ) : traced X i e s (noting h i c e s).1 (noting h i c e s).2 :=
  ⟨hX i c e s.state, rfl⟩

end Calls
