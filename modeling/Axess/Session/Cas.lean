import Axess.System

/-!
# Compare-and-swap by revision

The shipped stores build the conditional calls of a session store from three steps on a row: read
it, remove it while it still holds what was read, replace it while it still holds what was read
(`session/store/cas.rs`). `casByRevision` and `cycleByRevision` are those programs; alone on the
row they do what `Rows.updateIfRevision` and `Rows.cycleIfRevision` say (`casByRevision_alone`,
`cycleByRevision_alone`). `byRows` replaces the conditional calls of a whole program by them.
-/

namespace Axess

open Calls

variable {V α : Type}

inductive CasWrite where
  | done | missed | gone
  deriving DecidableEq, Repr

inductive RowCall (V : Type) where
  | load (id : SessionId)
  | save (id : SessionId) (data : SessionData V) (ttl : Duration)
  | delete (id : SessionId)
  | cycle (oldId newId : SessionId) (data : SessionData V) (ttl : Duration) (requireOld : Bool)
  /-- The live row; a conditional write compares with it. -/
  | read (id : SessionId)
  | deleteIf (id : SessionId) (seen : SessionData V)
  | replaceIf (id : SessionId) (seen data : SessionData V) (ttl : Duration)

namespace RowCall

abbrev Result : RowCall V → Type
  | load _ => Option (SessionData V)
  | save .. => Unit
  | delete _ => Unit
  | cycle .. => CycleOutcome
  | read _ => Option (SessionData V)
  | deleteIf .. => CasWrite
  | replaceIf .. => CasWrite

def isWrite : RowCall V → Bool
  | load _ => false
  | _ => true

end RowCall

inductive StepCall (V : Type) where
  | row (c : RowCall V)
  | registry (c : RegistryCall)
  | identity (c : IdentityCall)
  | deliver (key : String) (value : V)

namespace StepCall

abbrev Answer : StepCall V → Type
  | row c => Except StoreError c.Result
  | registry c => c.Answer
  | identity c => c.Answer
  | deliver .. => Unit

end StepCall

abbrev Steps (V : Type) := Prog (StepCall V) StepCall.Answer

namespace Row

def step (e : StepCall V) : Steps V e.Answer := Prog.perform e

def load (id : SessionId) : Steps V (Except StoreError (Option (SessionData V))) :=
  step (.row (.load id))

def save (id : SessionId) (data : SessionData V) (ttl : Duration) :
    Steps V (Except StoreError Unit) :=
  step (.row (.save id data ttl))

def delete (id : SessionId) : Steps V (Except StoreError Unit) := step (.row (.delete id))

def cycle (oldId newId : SessionId) (data : SessionData V) (ttl : Duration) (requireOld : Bool) :
    Steps V (Except StoreError CycleOutcome) :=
  step (.row (.cycle oldId newId data ttl requireOld))

def read (id : SessionId) : Steps V (Except StoreError (Option (SessionData V))) :=
  step (.row (.read id))

def deleteIf (id : SessionId) (seen : SessionData V) : Steps V (Except StoreError CasWrite) :=
  step (.row (.deleteIf id seen))

def replaceIf (id : SessionId) (seen data : SessionData V) (ttl : Duration) :
    Steps V (Except StoreError CasWrite) :=
  step (.row (.replaceIf id seen data ttl))

end Row

def casAttempts : Nat := 2

def casWrite (id : SessionId) (seen data : SessionData V) (ttl : Duration) :
    Steps V (Except StoreError CasWrite) := do
  if ttl = 0 then
    match ← Row.deleteIf id seen with
    | .ok .done => pure (.ok .gone)
    | other => pure other
  else Row.replaceIf id seen data ttl

def casLoop (id : SessionId) (expected : UInt64) (data : SessionData V) (ttl : Duration) :
    Nat → Steps V (Except StoreError ConditionalUpdate)
  | 0 => pure (.ok .conflict)
  | attempts + 1 => do
    match ← Row.read id with
    | .error e => pure (.error e)
    | .ok none => pure (.ok .gone)
    | .ok (some seen) =>
      if seen.revision ≠ expected then pure (.ok .conflict)
      else
        match ← casWrite id seen data ttl with
        | .error e => pure (.error e)
        | .ok .done => pure (.ok .written)
        | .ok .gone => pure (.ok .gone)
        | .ok .missed => casLoop id expected data ttl attempts

def casByRevision (id : SessionId) (expected : UInt64) (data : SessionData V) (ttl : Duration) :
    Steps V (Except StoreError ConditionalUpdate) :=
  casLoop id expected data ttl casAttempts

def saveRotated (newId : SessionId) (data : SessionData V) (ttl : Duration) :
    Steps V (Except StoreError CycleOutcome) := do
  match ← Row.save newId data ttl with
  | .ok () => pure (.ok .rotated)
  | .error e => pure (.error e)

section Cycle

variable (oldId newId : SessionId) (data : SessionData V) (ttl : Duration) (requireOld : Bool)

/-- No live row under the old id: only a session that was never stored goes on. -/
def cycleGone : Steps V (Except StoreError CycleOutcome) := do
  if requireOld then pure (.ok .sessionGone)
  else if oldId ≠ newId then
    match ← Row.delete oldId with
    | .ok () => saveRotated newId data ttl
    | .error e => pure (.error e)
  else saveRotated newId data ttl

def cycleAttempt (seen : SessionData V) (again : Steps V (Except StoreError CycleOutcome)) :
    Steps V (Except StoreError CycleOutcome) := do
  if oldId = newId then
    match ← Row.replaceIf newId seen data ttl with
    | .error e => pure (.error e)
    | .ok .done => pure (.ok .rotated)
    | .ok .missed => again
    | .ok .gone => cycleGone oldId newId data ttl requireOld
  else
    match ← Row.deleteIf oldId seen with
    | .error e => pure (.error e)
    | .ok .done => saveRotated newId data ttl
    | .ok .missed => again
    | .ok .gone => cycleGone oldId newId data ttl requireOld

def cycleSteps (expected : UInt64) : Nat → Steps V (Except StoreError CycleOutcome)
  | 0 => pure (.ok .conflict)
  | attempts + 1 => do
    match ← Row.read oldId with
    | .error e => pure (.error e)
    | .ok none => cycleGone oldId newId data ttl requireOld
    | .ok (some seen) =>
      if seen.revision ≠ expected then pure (.ok .conflict)
      else
        cycleAttempt oldId newId data ttl requireOld seen (cycleSteps expected attempts)

def cycleByRevision (expected : UInt64) : Steps V (Except StoreError CycleOutcome) := do
  if ttl = 0 then
    match ← Row.read oldId with
    | .error e => pure (.error e)
    | .ok none => Row.cycle oldId newId data ttl requireOld
    | .ok (some seen) =>
      if seen.revision ≠ expected then pure (.ok .conflict)
      else Row.cycle oldId newId data ttl requireOld
  else cycleSteps oldId newId data ttl requireOld expected casAttempts

end Cycle

def implement : (e : Call V) → Steps V e.Answer
  | .store (.load id) => Row.load id
  | .store (.save id data ttl) => Row.save id data ttl
  | .store (.delete id) => Row.delete id
  | .store (.updateIfRevision id expected data ttl) => casByRevision id expected data ttl
  | .store (.cycle oldId newId data ttl requireOld) => Row.cycle oldId newId data ttl requireOld
  | .store (.cycleIfRevision oldId newId data ttl requireOld expected) =>
    cycleByRevision oldId newId data ttl requireOld expected
  | .registry c => Row.step (.registry c)
  | .identity c => Row.step (.identity c)
  | .deliver key value => Row.step (.deliver key value)

def byRows (p : Async V α) : Steps V α := p.expand implement

theorem byRows_bind {β : Type} (p : Async V α) (f : α → Async V β) :
    byRows (p >>= f) = byRows p >>= fun a => byRows (f a) :=
  Prog.expand_bind implement p f

theorem byRows_await (e : Call V) : byRows (await e) = implement e := Prog.bind_ret (implement e)

section Alone

variable (same : SessionData V → SessionData V → Bool)

def Rows.writeIf (rows : Rows V) (id : SessionId) (seen : SessionData V) (next : Rows V) :
    CasWrite × Rows V :=
  match rows id with
  | none => (.gone, rows)
  | some row => if same seen row then (.done, next) else (.missed, rows)

def Rows.performStep : (c : RowCall V) → Rows V → c.Result × Rows V
  | .load id, rows => (rows id, rows)
  | .save id data ttl, rows => ((), rows.save id data ttl)
  | .delete id, rows => ((), rows.drop id)
  | .cycle oldId newId data ttl requireOld, rows => rows.cycle oldId newId data ttl requireOld
  | .read id, rows => (rows id, rows)
  | .deleteIf id seen, rows => rows.writeIf same id seen (rows.drop id)
  | .replaceIf id seen data _, rows => rows.writeIf same id seen (rows.put id data)

def World.performStep : (e : StepCall V) → World V → e.Answer × World V
  | .row c, w =>
    (.ok (Rows.performStep same c w.rows).1, { w with rows := (Rows.performStep same c w.rows).2 })
  | .registry c, w => World.perform (.registry c) w
  | .identity c, w => World.perform (.identity c) w
  | .deliver key value, w => World.perform (.deliver key value) w

variable {same} (w : World V)

theorem Rows.cycle_of_ttl {ttl : Duration} (httl : ttl ≠ 0) (rows : Rows V)
    (oldId newId : SessionId) (data : SessionData V) (requireOld : Bool) :
    rows.cycle oldId newId data ttl requireOld =
      if requireOld && (rows oldId).isNone then (.sessionGone, rows)
      else (.rotated, (rows.drop oldId).put newId data) := by
  unfold Rows.cycle
  rw [if_neg httl]

section

variable (hsame : ∀ row, same row row = true) (data : SessionData V) (ttl : Duration)
  (expected : UInt64)
include hsame

theorem casByRevision_alone (id : SessionId) :
    (casByRevision id expected data ttl).eval (World.performStep same) w =
      World.perform (.store (.updateIfRevision id expected data ttl)) w := by
  simp only [World.perform, Rows.perform, Rows.updateIfRevision, casByRevision, casAttempts,
    casLoop, Row.read, Row.step, Prog.eval_bind, Prog.eval_perform, World.performStep,
    Rows.performStep]
  cases hrow : w.rows id with
  | none => rfl
  | some row =>
    by_cases hrev : row.revision = expected <;> by_cases httl : ttl = 0 <;>
      simp [casWrite, Row.deleteIf, Row.replaceIf, Row.step, World.performStep, Rows.performStep,
        Rows.writeIf, hrow, hrev, httl, hsame]

theorem cycleByRevision_alone (oldId newId : SessionId) (requireOld : Bool) :
    (cycleByRevision oldId newId data ttl requireOld expected).eval (World.performStep same) w =
      World.perform (.store (.cycleIfRevision oldId newId data ttl requireOld expected)) w := by
  simp only [World.perform, Rows.perform, Rows.cycleIfRevision, cycleByRevision, casAttempts,
    cycleSteps]
  have hput : (w.rows.drop newId).put newId data = w.rows.put newId data := Function.update_idem ..
  -- nobody else writes, so the first attempt decides
  cases hrow : w.rows oldId with
  | none =>
    by_cases httl : ttl = 0 <;> by_cases heq : oldId = newId <;> cases requireOld <;>
      simp_all [cycleGone, saveRotated, Row.read, Row.save, Row.delete, Row.cycle, Row.step,
        World.performStep, Rows.performStep, Rows.save, Rows.cycle]
  | some row =>
    by_cases httl : ttl = 0 <;> by_cases heq : oldId = newId <;>
      by_cases hrev : row.revision = expected <;>
      simp_all [cycleAttempt, saveRotated, Row.read, Row.save, Row.deleteIf, Row.replaceIf,
        Row.cycle, Row.step, World.performStep, Rows.performStep, Rows.writeIf, Rows.save,
        Rows.cycle]

end

/-- **The row steps refine the calls.** Alone on its rows a program does over the steps what it does
over the calls, whether the store compares revisions or whole rows. -/
theorem byRows_refines {K : Type} [DecidableEq K] (key : SessionData V → K) (p : Async V α) :
    (byRows p).eval (World.performStep fun seen row => key seen = key row) w =
      p.eval World.perform w := by
  refine Prog.eval_expand _ _ (fun e w => ?_) p w
  cases e with
  | store c =>
    cases c with
    | updateIfRevision => exact casByRevision_alone w (by simp) ..
    | cycleIfRevision => exact cycleByRevision_alone w (by simp) ..
    | _ => rfl
  | _ => rfl

end Alone

/-- What a step may answer: the store compares rows as it likes, and a step may fail. -/
def Rows.Allows (c : RowCall V) (rows : Rows V) (a : Except StoreError c.Result)
    (rows' : Rows V) : Prop :=
  (a = .error ⟨⟩ ∧ rows' = rows) ∨
    ∃ same, a = .ok (Rows.performStep same c rows).1 ∧ rows' = (Rows.performStep same c rows).2

/-- What a call may answer; the answers of the registry and of the accounts are left open. -/
def World.AllowsStep : (e : StepCall V) → World V → e.Answer → World V → Prop
  | .row c, w, a, w' => Rows.Allows c w.rows a w'.rows
  | _, w, _, w' => w'.rows = w.rows

def StepCall.isWrite : StepCall V → Bool
  | .row c => c.isWrite
  | _ => false

def StepCall.creates : StepCall V → Option SessionId
  | .row (.save id _ _) => some id
  | .row (.cycle _ newId _ _ _) => some newId
  | _ => none

variable {id : SessionId} {seen : SessionData V}

theorem Rows.writeIf_none {same : SessionData V → SessionData V → Bool} {rows next : Rows V}
    {i : SessionId} (hi : rows i = none) (hnext : (rows id).isSome → next i = none) :
    (rows.writeIf same id seen next).2 i = none := by
  unfold Rows.writeIf
  cases hrow : rows id with
  | none => exact hi
  | some row =>
    simp only
    split
    · exact hnext (by rw [hrow]; rfl)
    · exact hi

variable {w w' : World V}

theorem World.AllowsStep.none_of_none {e : StepCall V} {a : e.Answer}
    (h : World.AllowsStep e w a w') {i : SessionId} (hi : w.rows i = none)
    (hcreates : e.creates ≠ some i) : w'.rows i = none := by
  cases e with
  | registry c => rw [show w'.rows = w.rows from h]; exact hi
  | identity c => rw [show w'.rows = w.rows from h]; exact hi
  | deliver key value => rw [show w'.rows = w.rows from h]; exact hi
  | row c =>
    rcases h with ⟨-, hrows⟩ | ⟨same, -, hrows⟩
    · rw [hrows]
      exact hi
    · have hdrop (rows : Rows V) (id : SessionId) (h : rows i = none) : rows.drop id i = none := by
        rw [Rows.drop_apply, h, ite_self]
      rw [hrows]
      cases c with
      | load id => exact hi
      | read id => exact hi
      | delete id => exact hdrop w.rows id hi
      | save id data ttl =>
        have hne : i ≠ id := fun heq => hcreates (heq ▸ rfl)
        show (if ttl = 0 then w.rows.drop id else w.rows.put id data) i = none
        split
        · exact hdrop w.rows id hi
        · rw [Rows.put_of_ne _ _ hne]
          exact hi
      | cycle oldId newId data ttl requireOld =>
        have hne : i ≠ newId := fun heq => hcreates (heq ▸ rfl)
        show (w.rows.cycle oldId newId data ttl requireOld).2 i = none
        unfold Rows.cycle
        split
        · exact hdrop _ newId (hdrop w.rows oldId hi)
        · split
          · exact hi
          · show (w.rows.drop oldId).put newId data i = none
            rw [Rows.put_of_ne _ _ hne]
            exact hdrop w.rows oldId hi
      | deleteIf id seen => exact Rows.writeIf_none hi fun _ => hdrop w.rows id hi
      | replaceIf id seen data ttl =>
        refine Rows.writeIf_none hi fun hsome => ?_
        have hne : i ≠ id := by
          rintro rfl
          rw [hi] at hsome
          cases hsome
        rw [Rows.put_of_ne _ _ hne]
        exact hi

variable {written : CasWrite}

theorem Rows.writeIf_found {same : SessionData V → SessionData V → Bool} {rows next : Rows V}
    (h : (rows.writeIf same id seen next).1 = written) (hgone : written ≠ .gone) :
    (rows id).isSome = true := by
  unfold Rows.writeIf at h
  cases hrow : rows id with
  | none =>
    rw [hrow] at h
    exact absurd h.symm hgone
  | some row => rfl

theorem World.AllowsStep.replaceIf_found {data : SessionData V} {ttl : Duration}
    (h : World.AllowsStep (.row (.replaceIf id seen data ttl)) w (.ok written) w')
    (hgone : written ≠ .gone) : (w.rows id).isSome = true := by
  rcases h with ⟨herror, -⟩ | ⟨same, hok, -⟩
  · cases herror
  · exact Rows.writeIf_found (Except.ok.inj hok).symm hgone

theorem World.AllowsStep.deleteIf_found
    (h : World.AllowsStep (.row (.deleteIf id seen)) w (.ok written) w') (hgone : written ≠ .gone) :
    (w.rows id).isSome = true := by
  rcases h with ⟨herror, -⟩ | ⟨same, hok, -⟩
  · cases herror
  · exact Rows.writeIf_found (Except.ok.inj hok).symm hgone

theorem World.AllowsStep.deleteIf_done
    (h : World.AllowsStep (.row (.deleteIf id seen)) w (.ok .done) w') :
    w'.rows = w.rows.drop id := by
  rcases h with ⟨herror, -⟩ | ⟨same, hok, hrows⟩
  · cases herror
  · have hdone : (w.rows.writeIf same id seen (w.rows.drop id)).1 = .done :=
      (Except.ok.inj hok).symm
    rw [hrows]
    show (w.rows.writeIf same id seen (w.rows.drop id)).2 = _
    unfold Rows.writeIf at hdone ⊢
    cases hrow : w.rows id with
    | none =>
      rw [hrow] at hdone
      cases hdone
    | some row =>
      rw [hrow] at hdone
      simp only at hdone ⊢
      split at hdone
      · rename_i hsame
        rw [if_pos hsame]
      · cases hdone

theorem World.AllowsStep.read_found {row : SessionData V}
    (h : World.AllowsStep (.row (.read id)) w (.ok (some row)) w') : (w.rows id).isSome = true := by
  rcases h with ⟨herror, -⟩ | ⟨same, hok, -⟩
  · cases herror
  · have hrow : some row = w.rows id := Except.ok.inj hok
    rw [← hrow]
    rfl

end Axess
