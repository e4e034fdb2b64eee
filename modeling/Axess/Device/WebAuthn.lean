import Axess.Device.Frozen
import Axess.Device.Revoked

/-!
# WebAuthn bindings

An edit of a device's bindings (`device/lifecycle.rs`) reads the row, works out the new list, and swaps
it in if the device is not revoked and its bindings are still those that were read. A swap that
conflicts is decided again from a fresh read, a bounded number of times.
-/

namespace Axess

open Calls DeviceTable

namespace DeviceBinding

def credential : DeviceBinding → Option String
  | webAuthn credentialId .. => some credentialId
  | _ => none

end DeviceBinding

def credentials (bindings : List DeviceBinding) : List String :=
  bindings.filterMap DeviceBinding.credential

def touchCredential (credentialId : String) (now : Instant) :
    List DeviceBinding → Option (List DeviceBinding)
  | [] => none
  | .webAuthn cid attestation boundAt lastUsedAt :: rest =>
    if cid = credentialId then some (.webAuthn cid attestation boundAt now :: rest)
    else (touchCredential credentialId now rest).map (.webAuthn cid attestation boundAt lastUsedAt :: ·)
  | binding :: rest => (touchCredential credentialId now rest).map (binding :: ·)

structure DeviceBindingAdded where
  userId : Option UserId
  tenantId : TenantId
  deviceId : DeviceId
  occurredAt : Instant

inductive BindingCall where
  | device (e : DeviceCall)
  | replaceBindings (tenant : TenantId) (id : DeviceId) (expected bindings : List DeviceBinding)
  | emit (event : DeviceBindingAdded)

abbrev BindingCall.Answer : BindingCall → Type
  | device e => e.Answer
  | replaceBindings .. => BindingsUpdate
  | emit _ => Unit

abbrev BindingProg := Prog BindingCall BindingCall.Answer

def BindingCall.make (e : BindingCall) : BindingProg e.Answer := Prog.perform e

namespace DeviceLifecycle

open BindingCall

def bindingsRetries : Nat := 16

variable (tenant : TenantId) (id : DeviceId) (credentialId : String)
  (attestation : AttestationClass) (now : Instant)

def bindRound (again : BindingProg Bool) : BindingProg Bool := do
  match ← (device (.load tenant id)).make with
  | none => pure false
  | some stored =>
    if stored.trustLevel = .revoked then pure false
    else if credentialId ∈ credentials stored.bindings then pure false
    else
      match ← (replaceBindings tenant id stored.bindings
        (stored.bindings ++ [.webAuthn credentialId attestation now now])).make with
      | .written => do
        let _ ← (emit ⟨stored.userId, tenant, id, now⟩).make
        pure true
      | .conflict => again
      | .revoked => pure false
      | .missing => pure false

def bindFrom : Nat → BindingProg Bool
  | 0 => bindRound tenant id credentialId attestation now (pure false)
  | retries + 1 => bindRound tenant id credentialId attestation now (bindFrom retries)

def bindWebauthnCredential : BindingProg Bool :=
  bindFrom tenant id credentialId attestation now bindingsRetries

def useRound (again : BindingProg Unit) : BindingProg Unit := do
  match ← (device (.load tenant id)).make with
  | none => pure ()
  | some stored =>
    match touchCredential credentialId now stored.bindings with
    | none => pure ()
    | some bindings =>
      match ← (replaceBindings tenant id stored.bindings bindings).make with
      | .conflict => again
      | _ => pure ()

def useFrom : Nat → BindingProg Unit
  | 0 => useRound tenant id credentialId now (pure ())
  | retries + 1 => useRound tenant id credentialId now (useFrom retries)

def recordWebauthnUsage : BindingProg Unit :=
  useFrom tenant id credentialId now bindingsRetries

end DeviceLifecycle

def DeviceCall.Aside (e : DeviceCall) : Prop := e.Plain ∨ ∃ key now, e = .sweepRow key now

inductive BindingTask where
  | bind (credentialId : String) (attestation : AttestationClass) (now : Instant)
  | use (credentialId : String) (now : Instant)
  | other (e : DeviceCall) (aside : e.Aside)

open DeviceLifecycle in
/-- Only a bind that has added its binding returns `true`. -/
def BindingTask.prog (key : DeviceKey) : BindingTask → BindingProg Bool
  | bind credentialId attestation now =>
    bindWebauthnCredential key.1 key.2 credentialId attestation now
  | use credentialId now => do
    recordWebauthnUsage key.1 key.2 credentialId now
    pure false
  | other e _ => do
    let _ ← (BindingCall.device e).make
    pure false

def BindingTask.adds : BindingTask → Bool → List String
  | .bind credentialId _ _, true => [credentialId]
  | _, _ => []

theorem BindingTask.of_mem_adds {task : BindingTask} {a : Bool} {c : String} (h : c ∈ task.adds a) :
    a = true ∧ ∃ attestation now, task = .bind c attestation now := by
  cases task with
  | bind c' attestation now =>
    cases a with
    | false => cases h
    | true => exact ⟨rfl, attestation, now, by rw [List.mem_singleton.mp h]⟩
  | use => cases h
  | other => cases h

def DeviceTable.boundTo (t : DeviceTable) (key : DeviceKey) : List String :=
  (t.get key).elim [] fun row => credentials row.bindings

/-- The table, and who has added which credential, in order. -/
structure BindingsRun (ι : Type) where
  table : DeviceTable
  added : List (ι × String)

namespace BindingsRun

variable {ι : Type}

def sem (cfg : SweepConfig) (key : DeviceKey) (i : ι) :
    Sem BindingCall BindingCall.Answer (BindingsRun ι)
  | .device e, s, a, s' => (a, s'.table) = e.handle cfg s.table ∧ s'.added = s.added ∧
      ((s.table.get key).isSome → (s'.table.get key).isSome)
  | .replaceBindings tenant id expected bindings, s, a, s' =>
    (a, s'.table) = s.table.replaceBindings tenant id expected bindings ∧
      s'.added = s.added ++ if a = .written then
        ((credentials bindings).drop (credentials expected).length).map (i, ·) else []
  | .emit _, s, _, s' => s' = s

def start (key : DeviceKey) (task : ι → BindingTask) (table : DeviceTable) :
    Pool ι BindingCall BindingCall.Answer Bool (BindingsRun ι) :=
  ⟨fun i => (task i).prog key, ⟨table, []⟩⟩

/-- What member `i` does in one step: it adds a credential that is not bound, to a device that is not
revoked, or it leaves the credentials as they are. -/
inductive BindStep (key : DeviceKey) (i : ι) (s s' : BindingsRun ι) : Prop where
  | same (held : s'.table.boundTo key = s.table.boundTo key) (added : s'.added = s.added)
  | bind (c : String) (row : DeviceRow) (stored : s.table.get key = some row) (live : row.Live)
      (new : c ∉ s.table.boundTo key) (held : s'.table.boundTo key = s.table.boundTo key ++ [c])
      (added : s'.added = s.added ++ [(i, c)])

variable {cfg : SweepConfig} {key : DeviceKey} {i j : ι} {s s' : BindingsRun ι} {t : DeviceTable}

theorem map_bindings_put {entry x : DeviceRow} {other : DeviceKey}
    (hentry : t.get other = some entry) (hkey : x.key = entry.key)
    (hx : x.bindings = entry.bindings) :
    ((t.put x).get key).map (·.bindings) = (t.get key).map (·.bindings) := by
  rw [get_put]
  split
  · next heq => rw [heq, hkey, get_of_get hentry, Option.map_some, Option.map_some, hx]
  · rfl

theorem sweptRow_bindings {entry x : DeviceRow} {now : Instant}
    (h : sweptRow cfg entry now = some x) : x.bindings = entry.bindings := by
  unfold sweptRow at h
  dsimp only at h
  split at h
  · cases h
  · rw [← Option.some.inj h]
    unfold stampRevoked demote
    split <;> split <;> rfl

theorem map_bindings_handle (e : DeviceCall) (he : e.Aside)
    (hkept : (t.get key).isSome → ((e.handle cfg t).2.get key).isSome) :
    ((e.handle cfg t).2.get key).map (·.bindings) = (t.get key).map (·.bindings) := by
  cases he with
  | inl hplain =>
    exact hplain.keeps (P := fun t' => (t'.get key).map (·.bindings) = (t.get key).map (·.bindings))
      rfl (fun _ _ _ hentry hkey hx _ => map_bindings_put hentry hkey hx) fun _ _ _ h => h
  | inr hsweep =>
    obtain ⟨swept, now, rfl⟩ := hsweep
    replace hkept : (t.get key).isSome → ((t.sweepRow cfg swept now).2.get key).isSome := hkept
    show ((t.sweepRow cfg swept now).2.get key).map _ = _
    rw [get_sweepRow] at hkept ⊢
    split
    · next hkey =>
      cases hrow : t.get key with
      | none => rfl
      | some row =>
        rw [hrow, if_pos hkey, Option.bind_some] at hkept
        obtain ⟨x, hx⟩ := Option.isSome_iff_exists.mp (hkept rfl)
        rw [Option.bind_some, hx, Option.map_some, Option.map_some, sweptRow_bindings hx]
    · rfl

theorem boundTo_eq : t.boundTo key = ((t.get key).map (·.bindings)).elim [] credentials := by
  unfold boundTo
  cases t.get key <;> rfl

theorem step_device {e : DeviceCall} {a : e.Answer} (he : e.Aside)
    (h : sem cfg key i (.device e) s a s') : BindStep key i s s' := by
  obtain ⟨heq, hadded, hkept⟩ := h
  have htable : s'.table = (e.handle cfg s.table).2 := congrArg Prod.snd heq
  rw [htable] at hkept
  refine .same ?_ hadded
  rw [boundTo_eq, htable, map_bindings_handle e he hkept, boundTo_eq]

theorem replace_cases {a : BindingsUpdate} {expected bindings : List DeviceBinding}
    (h : sem cfg key i (.replaceBindings key.1 key.2 expected bindings) s a s') :
    (a ≠ .written ∧ s'.table = s.table ∧ s'.added = s.added) ∨
    ∃ row, a = .written ∧ s.table.get key = some row ∧ row.Live ∧ row.bindings = expected ∧
      s'.table.boundTo key = credentials bindings ∧
      s'.added = s.added ++
        ((credentials bindings).drop (credentials expected).length).map (i, ·) := by
  obtain ⟨heq, hadded⟩ := h
  have hfail {b : BindingsUpdate} (hb : b ≠ .written) (hsame : (a, s'.table) = (b, s.table)) :
      a ≠ .written ∧ s'.table = s.table ∧ s'.added = s.added := by
    obtain ⟨rfl, htable⟩ := Prod.mk.inj hsame
    rw [if_neg hb, List.append_nil] at hadded
    exact ⟨hb, htable, hadded⟩
  unfold replaceBindings at heq
  cases hrow : s.table.get key with
  | none =>
    rw [show s.table.get (key.1, key.2) = none from hrow] at heq
    exact .inl (hfail (by decide) heq)
  | some row =>
    rw [show s.table.get (key.1, key.2) = some row from hrow] at heq
    dsimp only at heq
    split at heq
    · exact .inl (hfail (by decide) heq)
    · next hlive =>
      split at heq
      · exact .inl (hfail (by decide) heq)
      · next hsame =>
        obtain ⟨rfl, htable⟩ := Prod.mk.inj heq
        rw [if_pos rfl] at hadded
        refine .inr ⟨row, rfl, rfl, hlive, not_ne_iff.mp hsame, ?_, hadded⟩
        have hput : s'.table.get key = some { row with bindings := bindings } := by
          rw [htable, get_put]
          exact if_pos (key_of_get hrow).symm
        rw [boundTo_eq, hput]
        rfl

/-! ## One member among the others -/

variable [DecidableEq ι]

def own (i : ι) (s : BindingsRun ι) : List String := (s.added.filter (·.1 = i)).map Prod.snd

theorem own_of_added {c : String} (h : s'.added = s.added ++ [(i, c)]) :
    s'.own j = s.own j ++ if i = j then [c] else [] := by
  by_cases hij : i = j <;> simp [own, h, hij]

theorem own_of_same (h : s'.added = s.added) : s'.own i = s.own i := by
  unfold own
  rw [h]

theorem own_stable (l : List String) :
    Stable (Pool.others (BindStep key) i) fun s => s.own i = l := by
  rintro s s' hs ⟨j, hj, hstep⟩
  cases hstep with
  | same _ hadded => exact (own_of_same hadded).trans hs
  | bind c _ _ _ _ _ hadded => rw [own_of_added hadded, if_neg hj, List.append_nil, hs]

/-- A member's program among the others. What it returns says what it has added. -/
abbrev Adds {α : Type} (cfg : SweepConfig) (key : DeviceKey) (i : ι) (adds : α → List String)
    (p : BindingProg α) (s : BindingsRun ι) : Prop :=
  p.Safe (sem cfg key i) (Pool.others (BindStep key) i) (BindStep key i)
    (fun a s => s.own i = adds a) s

section Programs

variable {α : Type} {adds : α → List String} {c : String} {attestation : AttestationClass}
  {now : Instant}

theorem adds_ret (a : α) (hs : s.own i = adds a) : Adds cfg key i adds (pure a) s :=
  Prog.Safe.ret (fun s => s.own i = adds a) (own_stable _) hs fun _ h => h

theorem adds_device {e : DeviceCall} {f : e.Answer → BindingProg α} (he : e.Aside)
    (hf : ∀ a s, s.own i = [] → Adds cfg key i adds (f a) s) (hs : s.own i = []) :
    Adds cfg key i adds ((BindingCall.device e).make >>= f) s := by
  refine Prog.Safe.perform_bind (fun s => s.own i = []) (own_stable _) hs fun s a s' hs h => ?_
  exact ⟨step_device he h, hf a s' ((own_of_same h.2.1).trans hs)⟩

theorem adds_replace {expected bindings : List DeviceBinding} {f : BindingsUpdate → BindingProg α}
    (hwritten : ∀ s s', s.own i = [] → s.table.boundTo key = credentials expected →
      s'.table.boundTo key = credentials bindings →
      s'.added = s.added ++
        ((credentials bindings).drop (credentials expected).length).map (i, ·) →
      (∃ row, s.table.get key = some row ∧ row.Live) →
      BindStep key i s s' ∧ Adds cfg key i adds (f .written) s')
    (hfailed : ∀ a s, a ≠ .written → s.own i = [] → Adds cfg key i adds (f a) s)
    (hs : s.own i = []) :
    Adds cfg key i adds ((BindingCall.replaceBindings key.1 key.2 expected bindings).make >>= f)
      s := by
  refine Prog.Safe.perform_bind (fun s => s.own i = []) (own_stable _) hs fun s a s' hs h => ?_
  rcases replace_cases h with
    ⟨ha, htable, hadded⟩ | ⟨row, rfl, hrow, hlive, hsame, hheld, hadded⟩
  · refine ⟨.same ?_ hadded, hfailed a s' ha ((own_of_same hadded).trans hs)⟩
    unfold boundTo
    rw [htable]
  · refine hwritten s s' hs ?_ hheld hadded ⟨row, hrow, hlive⟩
    unfold boundTo
    rw [hrow, ← hsame]
    rfl

open DeviceLifecycle

theorem bindRound_adds {again : BindingProg Bool}
    (hagain : ∀ s, s.own i = [] → Adds cfg key i (fun a => if a then [c] else []) again s)
    (hs : s.own i = []) :
    Adds cfg key i (fun a => if a then [c] else []) (bindRound key.1 key.2 c attestation now again)
      s := by
  refine adds_device (.inl trivial) (fun found s hs => ?_) hs
  cases found with
  | none => exact adds_ret false hs
  | some stored =>
    dsimp only
    split
    · exact adds_ret false hs
    split
    · exact adds_ret false hs
    next hnew =>
    refine adds_replace (fun s s' hs hbefore hafter hadded hlive => ?_) (fun a s ha hs => ?_) hs
    · have hcreds : credentials (stored.bindings ++ [.webAuthn c attestation now now]) =
          credentials stored.bindings ++ [c] := by
        simp [credentials, DeviceBinding.credential]
      rw [hcreds] at hafter hadded
      rw [List.drop_left, List.map_singleton] at hadded
      obtain ⟨row, hrow, hlive⟩ := hlive
      refine ⟨.bind c row hrow hlive (hbefore ▸ hnew) (hbefore ▸ hafter) hadded, ?_⟩
      have hown : s'.own i = [c] := by rw [own_of_added hadded, hs, if_pos rfl, List.nil_append]
      refine Prog.Safe.perform_bind (fun s => s.own i = [c]) (own_stable _) hown
        fun s _ s' hs h => ?_
      obtain rfl : s' = s := h
      exact ⟨.same rfl rfl, adds_ret true hs⟩
    · cases a with
      | written => exact absurd rfl ha
      | conflict => exact hagain s hs
      | revoked => exact adds_ret false hs
      | missing => exact adds_ret false hs

theorem bindFrom_adds (retries : Nat) (hs : s.own i = []) :
    Adds cfg key i (fun a => if a then [c] else []) (bindFrom key.1 key.2 c attestation now retries)
      s := by
  induction retries generalizing s with
  | zero => exact bindRound_adds (fun _ hs => adds_ret false hs) hs
  | succ retries ih => exact bindRound_adds (fun _ hs => ih hs) hs

omit [DecidableEq ι] in
theorem credentials_touch {bindings touched : List DeviceBinding}
    (h : touchCredential c now bindings = some touched) :
    credentials touched = credentials bindings := by
  induction bindings generalizing touched with
  | nil => cases h
  | cons binding rest ih =>
    have hrest (h : (touchCredential c now rest).map (binding :: ·) = some touched) :
        credentials touched = credentials (binding :: rest) := by
      obtain ⟨touched', htouched, rfl⟩ := Option.map_eq_some_iff.mp h
      have := ih htouched
      unfold credentials at this ⊢
      rw [List.filterMap_cons, List.filterMap_cons, this]
    cases binding with
    | webAuthn cid attestation boundAt lastUsedAt =>
      rw [touchCredential] at h
      split at h
      · cases h
        rfl
      · exact hrest h
    | cookie => exact hrest h
    | refresh => exact hrest h

theorem useRound_adds {again : BindingProg Unit}
    (hagain : ∀ s, s.own i = [] → Adds cfg key i (fun _ => []) again s) (hs : s.own i = []) :
    Adds cfg key i (fun _ => []) (useRound key.1 key.2 c now again) s := by
  refine adds_device (.inl trivial) (fun found s hs => ?_) hs
  cases found with
  | none => exact adds_ret () hs
  | some stored =>
    dsimp only
    split
    · exact adds_ret () hs
    next touched htouched =>
    have hcreds := credentials_touch htouched
    refine adds_replace (fun s s' hs hbefore hafter hadded _ => ?_) (fun a s ha hs => ?_) hs
    · rw [hcreds] at hafter hadded
      rw [List.drop_length, List.map_nil, List.append_nil] at hadded
      exact ⟨.same (hafter.trans hbefore.symm) hadded,
        adds_ret () ((own_of_same hadded).trans hs)⟩
    · cases a with
      | conflict => exact hagain s hs
      | written => exact adds_ret () hs
      | revoked => exact adds_ret () hs
      | missing => exact adds_ret () hs

theorem useFrom_adds (retries : Nat) (hs : s.own i = []) :
    Adds cfg key i (fun _ => []) (useFrom key.1 key.2 c now retries) s := by
  induction retries generalizing s with
  | zero => exact useRound_adds (fun _ hs => adds_ret () hs) hs
  | succ retries ih => exact useRound_adds (fun _ hs => ih hs) hs

end Programs

theorem prog_adds (task : BindingTask) (hs : s.own i = []) :
    Adds cfg key i task.adds (task.prog key) s := by
  cases task with
  | bind c attestation now =>
    refine (bindFrom_adds DeviceLifecycle.bindingsRetries hs).conseq fun a s h => ?_
    cases a <;> exact h
  | use c now =>
    exact (useFrom_adds DeviceLifecycle.bindingsRetries hs).bind fun _ s h => adds_ret false h
  | other e he => exact adds_device he (fun _ s h => adds_ret false h) hs

theorem start_allSafe (key : DeviceKey) (cfg : SweepConfig) (task : ι → BindingTask) (table : DeviceTable) :
    Pool.AllSafe (sem cfg key) (BindStep key) (fun i a s => s.own i = (task i).adds a)
      (start key task table) :=
  fun i => prog_adds (task i) rfl

/-- The credentials are those of the start and what has been added since, none of them twice. -/
def Intact (key : DeviceKey) (before : List String) (s : BindingsRun ι) : Prop :=
  s.table.boundTo key = before ++ s.added.map Prod.snd ∧ (s.table.boundTo key).Nodup

omit [DecidableEq ι] in
theorem Intact.step {before : List String} (h : Intact key before s) (hstep : BindStep key i s s') :
    Intact key before s' := by
  unfold Intact at h ⊢
  cases hstep with
  | same hheld hadded =>
    rw [hheld, hadded]
    exact h
  | bind c _ _ _ hnew hheld hadded =>
    rw [hheld, hadded, List.map_append, ← List.append_assoc, ← h.1]
    exact ⟨rfl, List.nodup_append.mpr ⟨h.2, List.nodup_singleton c, by
      rintro a ha _ hc rfl
      exact hnew (List.mem_singleton.mp hc ▸ ha)⟩⟩

/-- Whatever edits of a device's bindings run beside sightings, sweeps, trust changes and revocations:
no credential is lost or bound twice, one that was not bound before is bound only by a call that
returns `true`, and none is added while the device is revoked. -/
theorem no_binding_lost_or_doubled (cfg : SweepConfig) (key : DeviceKey) (task : ι → BindingTask)
    (table : DeviceTable) (hstart : (table.boundTo key).Nodup)
    {s : Pool ι BindingCall BindingCall.Answer Bool (BindingsRun ι)}
    (hr : Pool.Reaches (sem cfg key) (start key task table) s) :
    (∀ i c attestation now, task i = .bind c attestation now → s.prog i = .ret true →
      c ∈ s.state.table.boundTo key) ∧
    (∀ c ∈ table.boundTo key, c ∈ s.state.table.boundTo key) ∧
    (s.state.table.boundTo key).Nodup ∧
    ((∀ i, ∃ a, s.prog i = .ret a) → ∀ c ∈ s.state.table.boundTo key,
      c ∉ table.boundTo key →
      ∃ i attestation now, task i = .bind c attestation now ∧ s.prog i = .ret true) ∧
    (∀ s' row, Pool.Step (sem cfg key) s s' → s.state.table.get key = some row →
      row.trustLevel = .revoked → s'.state.table.boundTo key = s.state.table.boundTo key) := by
  have hall := start_allSafe key cfg task table
  obtain ⟨hheld, hnodup⟩ : Intact key (table.boundTo key) s.state :=
    hr.invariant hall (fun _ _ _ hstep h => h.step hstep)
      ⟨(List.append_nil _).symm, hstart⟩
  have hown (i : ι) (c : String) : c ∈ s.state.own i ↔ (i, c) ∈ s.state.added := by
    simp [own]
  refine ⟨fun i c attestation now htask hret => ?_, fun c hc => ?_, hnodup, fun hdone c hc hnew => ?_,
    fun s' row hstep hrow hrevoked => ?_⟩
  · have hpost := hr.post hall hret
    rw [htask] at hpost
    rw [hheld]
    refine List.mem_append_right _ (List.mem_map.mpr ⟨(i, c), (hown i c).mp ?_, rfl⟩)
    rw [hpost]
    exact List.mem_singleton_self c
  · rw [hheld]
    exact List.mem_append_left _ hc
  · rw [hheld, List.mem_append, List.mem_map] at hc
    obtain hc | ⟨⟨i, c'⟩, hadded, rfl⟩ := hc
    · exact absurd hc hnew
    · obtain ⟨a, hret⟩ := hdone i
      have hmem := (hown i c').mpr hadded
      rw [hr.post hall hret] at hmem
      obtain ⟨rfl, attestation, now, htask⟩ := BindingTask.of_mem_adds hmem
      exact ⟨i, attestation, now, htask, hret⟩
  · obtain ⟨-, i, hG⟩ := hstep.safe (hr.safe hall)
    cases hG with
    | same hsame => exact hsame
    | bind _ row' hrow' hlive =>
      rw [hrow] at hrow'
      exact absurd (Option.some.inj hrow' ▸ hrevoked) hlive

def answering (cfg : SweepConfig) :
    Pool.Answerer ι Unit BindingCall BindingCall.Answer (BindingsRun ι)
  | _, _, .device e, s => ((e.handle cfg s.table).1, ⟨(e.handle cfg s.table).2, s.added⟩)
  | i, _, .replaceBindings tenant id expected bindings, s =>
    let update := s.table.replaceBindings tenant id expected bindings
    (update.1, ⟨update.2, s.added ++ if update.1 = .written then
      ((credentials bindings).drop (credentials expected).length).map (i, ·) else []⟩)
  | _, _, .emit _, s => ((), s)

def keepsRow (cfg : SweepConfig) (key : DeviceKey) : BindingCall → BindingsRun ι → Bool
  | .device e, s => !(s.table.get key).isSome || ((e.handle cfg s.table).2.get key).isSome
  | _, _ => true

omit [DecidableEq ι] in
theorem sem_answering (i : ι) (u : Unit) {e : BindingCall} {s : BindingsRun ι}
    (h : keepsRow cfg key e s = true) :
    sem cfg key i e s (answering cfg i u e s).1 (answering cfg i u e s).2 := by
  cases e with
  | device e =>
    refine ⟨rfl, rfl, fun hsome => ?_⟩
    rcases Bool.or_eq_true_iff.mp h with hnone | hkept
    · rw [hsome] at hnone
      cases hnone
    · exact hkept
  | replaceBindings => exact ⟨rfl, rfl⟩
  | emit => rfl

namespace TwoKeys

def config : SweepConfig := ⟨0, 0, 0⟩

def task : Fin 2 → BindingTask
  | 0 => .bind "laptop" .basic 5
  | 1 => .bind "phone" .none 6

def schedule : List (Fin 2 × Unit) :=
  Pool.turns [(1, 0, ()), (1, 1, ()), (1, 0, ()), (1, 1, ()), (1, 0, ()), (3, 1, ())]

def begun : Pool (Fin 2) BindingCall BindingCall.Answer Bool (BindingsRun (Fin 2)) :=
  start seenRow.key task (seenTable config)

end TwoKeys

open TwoKeys in
theorem no_binding_lost_of_two_keys :
    ∃ s, Pool.Reaches (sem config seenRow.key) begun s ∧ s.prog 0 = .ret true ∧
      s.prog 1 = .ret true ∧ "laptop" ∈ s.state.table.boundTo seenRow.key ∧
      "phone" ∈ s.state.table.boundTo seenRow.key := by
  have hr : Pool.Reaches (sem config seenRow.key) begun
      (Pool.replay (answering config) schedule begun) :=
    Pool.reaches_replay_of_admits (h := answering config)
      (fun i c e s (h : keepsRow config seenRow.key e s = true) => sem_answering i c h)
      schedule begun (by decide +kernel)
  have h0 : (Pool.replay (answering config) schedule begun).prog 0 = .ret true :=
    Prog.eq_ret_of_returned (by decide +kernel)
  have h1 : (Pool.replay (answering config) schedule begun).prog 1 = .ret true :=
    Prog.eq_ret_of_returned (by decide +kernel)
  obtain ⟨hkept, -⟩ := no_binding_lost_or_doubled config seenRow.key task
    (seenTable config) (by decide +kernel) hr
  exact ⟨_, hr, h0, h1, hkept 0 "laptop" .basic 5 rfl h0, hkept 1 "phone" .none 6 rfl h1⟩

end BindingsRun

end Axess
