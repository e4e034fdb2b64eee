import Mathlib

/-!
# Programs over shared state

A program is a finite tree of calls: each call `e` is answered by a value of `A e`, and the
rest of the program depends on the answer. What the calls do to the shared state is not
part of the program; it is given by a handler (`Prog.eval`, one program alone) or by a
transition relation (`Axess.Calls.Pool`, several programs interleaved call by call).
-/

namespace Calls

/-- A program over the calls `E`, answered in `A`, that returns an `α`. -/
inductive Prog (E : Type) (A : E → Type) (α : Type) : Type where
  | ret (a : α)
  | call (e : E) (k : A e → Prog E A α)

namespace Prog

variable {E : Type} {A : E → Type} {α β γ σ : Type}

def bind : Prog E A α → (α → Prog E A β) → Prog E A β
  | ret a, f => f a
  | call e k, f => call e fun answer => (k answer).bind f

instance : Monad (Prog E A) where
  pure := ret
  bind := bind

def perform (e : E) : Prog E A (A e) := call e ret

@[simp] theorem pure_eq_ret (a : α) : (pure a : Prog E A α) = ret a := rfl

@[simp] theorem ret_bind (a : α) (f : α → Prog E A β) : (ret a >>= f) = f a := rfl

@[simp] theorem call_bind (e : E) (k : A e → Prog E A α) (f : α → Prog E A β) :
    (call e k >>= f) = call e fun answer => k answer >>= f := rfl

@[simp] theorem perform_bind (e : E) (f : A e → Prog E A β) :
    (perform e >>= f) = call e f := rfl

theorem bind_ret (p : Prog E A α) : (p >>= ret) = p := by
  induction p with
  | ret a => rfl
  | call e k ih => rw [call_bind]; exact congrArg (call e) (funext ih)

theorem bind_assoc (p : Prog E A α) (f : α → Prog E A β) (g : β → Prog E A γ) :
    (p >>= f >>= g) = (p >>= fun a => f a >>= g) := by
  induction p with
  | ret a => rfl
  | call e k ih => simp only [call_bind]; exact congrArg (call e) (funext ih)

instance : LawfulMonad (Prog E A) :=
  LawfulMonad.mk' _ (fun p => bind_ret p) (fun _ _ => rfl) bind_assoc

def eval (h : (e : E) → σ → A e × σ) : Prog E A α → σ → α × σ
  | ret a, w => (a, w)
  | call e k, w => (k (h e w).1).eval h (h e w).2

variable (h : (e : E) → σ → A e × σ)

@[simp] theorem eval_ret (a : α) (w : σ) : (ret a : Prog E A α).eval h w = (a, w) := rfl

@[simp] theorem eval_call (e : E) (k : A e → Prog E A α) (w : σ) :
    (call e k).eval h w = (k (h e w).1).eval h (h e w).2 := rfl

@[simp] theorem eval_bind (p : Prog E A α) (f : α → Prog E A β) (w : σ) :
    (p >>= f).eval h w = (f (p.eval h w).1).eval h (p.eval h w).2 := by
  induction p generalizing w with
  | ret a => rfl
  | call e k ih => rw [call_bind, eval_call, ih, eval_call]

@[simp] theorem eval_perform (e : E) (w : σ) : (perform e : Prog E A _).eval h w = h e w := rfl

def calls : Prog E A α → σ → List E
  | ret _, _ => []
  | call e k, w => e :: (k (h e w).1).calls (h e w).2

theorem eval_keeps {I : σ → Prop} (p : Prog E A α) {w : σ}
    (hI : ∀ e ∈ p.calls h w, ∀ w, I w → I (h e w).2) (hw : I w) : I (p.eval h w).2 := by
  induction p generalizing w with
  | ret a => exact hw
  | call e k ih =>
    apply ih
    · intro e' he'
      exact hI e' (List.mem_cons_of_mem _ he')
    · exact hI e List.mem_cons_self w hw

theorem eval_invariant {I : σ → Prop} (hI : ∀ e w, I w → I (h e w).2) (p : Prog E A α) {w : σ}
    (hw : I w) : I (p.eval h w).2 :=
  eval_keeps h p (fun e _ w => hI e w) hw

def returned : Prog E A α → Option α
  | ret a => some a
  | call _ _ => none

variable {p : Prog E A α}

omit h in
theorem eq_ret_of_returned {a : α} (hp : p.returned = some a) : p = ret a := by
  cases p with
  | ret b => exact congrArg ret (Option.some.inj hp)
  | call e k => cases hp

variable {E' : Type} {A' : E' → Type}

def expand (impl : (e : E) → Prog E' A' (A e)) : Prog E A α → Prog E' A' α
  | ret a => ret a
  | call e k => impl e >>= fun answer => (k answer).expand impl

variable (impl : (e : E) → Prog E' A' (A e))

@[simp] theorem expand_call (e : E) (k : A e → Prog E A α) :
    (call e k).expand impl = impl e >>= fun answer => (k answer).expand impl := rfl

@[simp] theorem expand_bind (p : Prog E A α) (f : α → Prog E A β) :
    (p >>= f).expand impl = p.expand impl >>= fun a => (f a).expand impl := by
  induction p with
  | ret a => rfl
  | call e k ih => simp only [call_bind, expand_call, ih, bind_assoc]

theorem eval_expand {h' : (e : E') → σ → A' e × σ} (himpl : ∀ e w, (impl e).eval h' w = h e w)
    (p : Prog E A α) (w : σ) : (p.expand impl).eval h' w = p.eval h w := by
  induction p generalizing w with
  | ret a => rfl
  | call e k ih => rw [expand_call, eval_bind, himpl, ih, eval_call]

/-- Whatever the calls are answered, each call the program makes satisfies `P` and what it returns
satisfies `Q`. -/
def Within (P : E → Prop) (Q : α → Prop) : Prog E A α → Prop
  | ret a => Q a
  | call e k => P e ∧ ∀ answer, (k answer).Within P Q

abbrev Only (P : E → Prop) (p : Prog E A α) : Prop := p.Within P fun _ => True

variable {P : E → Prop} {Q : α → Prop}

theorem Within.bind {Q' : β → Prop} {f : α → Prog E A β} (hp : p.Within P Q)
    (hf : ∀ a, Q a → (f a).Within P Q') : (p >>= f).Within P Q' := by
  induction p with
  | ret a => exact hf a hp
  | call e k ih => exact ⟨hp.1, fun answer => ih answer (hp.2 answer)⟩

theorem Within.perform_bind {e : E} {f : A e → Prog E A α} (he : P e)
    (hf : ∀ answer, (f answer).Within P Q) : (perform e >>= f).Within P Q :=
  ⟨he, hf⟩

theorem Within.mono {P' : E → Prop} {Q' : α → Prop} (hp : p.Within P Q) (hP : ∀ e, P e → P' e)
    (hQ : ∀ a, Q a → Q' a) : p.Within P' Q' := by
  induction p with
  | ret a => exact hQ a hp
  | call e k ih => exact ⟨hP e hp.1, fun answer => ih answer (hp.2 answer)⟩

theorem Within.and {P' : E → Prop} {Q' : α → Prop} (hp : p.Within P Q) (hp' : p.Within P' Q') :
    p.Within P fun a => Q a ∧ Q' a := by
  induction p with
  | ret a => exact ⟨hp, hp'⟩
  | call e k ih => exact ⟨hp.1, fun answer => ih answer (hp.2 answer) (hp'.2 answer)⟩

theorem Within.eval (hp : p.Within P Q) (w : σ) : Q (p.eval h w).1 := by
  induction p generalizing w with
  | ret a => exact hp
  | call e k ih => exact ih _ (hp.2 _) _

theorem only_true (p : Prog E A α) : p.Only fun _ => True := by
  induction p with
  | ret a => trivial
  | call e k ih => exact ⟨trivial, ih⟩

theorem Only.bind {f : α → Prog E A β} (hp : p.Only P) (hf : ∀ a, (f a).Only P) :
    (p >>= f).Only P :=
  Within.bind hp fun a _ => hf a

omit h in
theorem Within.expand {P' : E' → Prop} (hp : p.Within P Q) (himpl : ∀ e, P e → (impl e).Only P') :
    (p.expand impl).Within P' Q := by
  induction p with
  | ret a => exact hp
  | call e k ih => exact Within.bind (himpl e hp.1) fun answer _ => ih answer (hp.2 answer)

theorem Only.eval_state (hp : p.Only P) (hread : ∀ e w, P e → (h e w).2 = w) (w : σ) :
    (p.eval h w).2 = w := by
  induction p with
  | ret a => rfl
  | call e k ih =>
    rw [eval_call, hread e w hp.1]
    exact ih _ (hp.2 _)

/-- The other program makes the same calls and returns the same, up to the first answer that
`stop` holds of. -/
def SameUntil (stop : (e : E) → A e → Prop) : Prog E A α → Prog E A α → Prop
  | ret a, q => q = ret a
  | call e k, q => ∃ k', q = call e k' ∧ ∀ a, ¬stop e a → (k a).SameUntil stop (k' a)

variable {stop : (e : E) → A e → Prop}

theorem SameUntil.refl (p : Prog E A α) : p.SameUntil stop p := by
  induction p with
  | ret a => rfl
  | call e k ih => exact ⟨k, rfl, fun a _ => ih a⟩

theorem SameUntil.bind_right {q : Prog E A α} (hp : p.SameUntil stop q) (f : α → Prog E A β) :
    (p >>= f).SameUntil stop (q >>= f) := by
  induction p generalizing q with
  | ret a =>
    cases hp
    exact .refl _
  | call e k ih =>
    obtain ⟨k', rfl, hk⟩ := hp
    exact ⟨fun a => k' a >>= f, rfl, fun a ha => ih a (hk a ha)⟩

theorem SameUntil.bind (p : Prog E A α) {f g : α → Prog E A β}
    (hf : ∀ a, (f a).SameUntil stop (g a)) : (p >>= f).SameUntil stop (p >>= g) := by
  induction p with
  | ret a => exact hf a
  | call e k ih => exact ⟨fun a => k a >>= g, rfl, fun a _ => ih a⟩

end Prog

theorem passed {ε α : Type} {c : Prop} [Decidable c] {e : ε} {x : Except ε α} {a : α}
    (h : (if c then .error e else x) = .ok a) : ¬c ∧ x = .ok a := by
  split at h
  · cases h
  · exact ⟨‹_›, h⟩

end Calls
