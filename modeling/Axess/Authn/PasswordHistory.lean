import Axess.Session.Data

/-!
# The password history

A reset compares the new password with the last `history_count` hashes
(`authn/service/account/password_reset/install.rs`); a login may hash the live password again under
newer parameters (`authn/service/login/rehash.rs`). The history is of hashes: a rehash makes the live
one differ from the entry of the same password, which then takes two of the slots.
-/

namespace Axess

structure PasswordHash where
  password : String
  params : Nat
  salt : Nat
  deriving DecidableEq

structure PasswordAccount where
  live : Option PasswordHash
  history : List PasswordHash

namespace PasswordAccount

variable (account : PasswordAccount)

def passwordHistory (count : Nat) : List PasswordHash := account.history.take count

def replacedHashToRecord : Option PasswordHash :=
  match account.live with
  | none => none
  | some old => if (account.passwordHistory 1).head? ≠ some old then some old else none

def checkHistoryAndHash (historyCount : Nat) (new : String) (replaced : Option PasswordHash)
    (params salt : Nat) : Option PasswordHash :=
  let history :=
    if historyCount = 0 then []
    else
      let stored := historyCount - if replaced.isSome then 1 else 0
      replaced.toList ++ if stored > 0 then account.passwordHistory stored else []
  if history.any fun old => old.password = new then none else some ⟨new, params, salt⟩

def recordPasswordHash (hash : PasswordHash) : PasswordAccount :=
  { account with history := hash :: account.history }

def installNewPassword (replaced : Option PasswordHash) (new : PasswordHash) : PasswordAccount :=
  let recorded := replaced.elim account account.recordPasswordHash
  { recorded.recordPasswordHash new with live := some new }

def completePasswordReset (historyCount : Nat) (new : String) (params salt : Nat) :
    Option PasswordAccount :=
  let replaced := account.replacedHashToRecord
  (account.checkHistoryAndHash historyCount new replaced params salt).map
    (account.installNewPassword replaced)

def rehashOutdatedPassword (params salt : Nat) : PasswordAccount :=
  match account.live with
  | none => account
  | some hash =>
    if hash.params ≠ params then { account with live := some ⟨hash.password, params, salt⟩ }
    else account

end PasswordAccount

structure PasswordRun where
  account : PasswordAccount
  used : List String

namespace PasswordRun

def new (live : Option PasswordHash) : PasswordRun := ⟨⟨live, []⟩, (live.map (·.password)).toList⟩

/-- The parameters are those current at the time. -/
inductive PasswordOp where
  | reset (new : String) (params salt : Nat)
  | login (params salt : Nat)

def serve (historyCount : Nat) (s : PasswordRun) : PasswordOp → PasswordRun
  | .reset new params salt =>
    (s.account.completePasswordReset historyCount new params salt).elim s fun account =>
      ⟨account, new :: s.used⟩
  | .login params salt => ⟨s.account.rehashOutdatedPassword params salt, s.used⟩

inductive Reached (historyCount : Nat) (ok : PasswordRun → PasswordOp → Prop) :
    PasswordRun → Prop where
  | new (live : Option PasswordHash) : Reached historyCount ok (.new live)
  | serve {s : PasswordRun} (op : PasswordOp) :
      Reached historyCount ok s → ok s op → Reached historyCount ok (s.serve historyCount op)

def distinct : List String → List String
  | [] => []
  | password :: older => password :: (distinct older).filter (· ≠ password)

def Refuses (historyCount : Nat) (s : PasswordRun) : Prop :=
  ∀ password ∈ (distinct s.used).take historyCount, ∀ params salt,
    s.account.completePasswordReset historyCount password params salt = none

/-- A login finds the hash of its password outdated only while the history is empty. -/
def RehashesEarly (s : PasswordRun) : PasswordOp → Prop
  | .reset .. => True
  | .login params _ =>
    ∀ hash, s.account.live = some hash → hash.params ≠ params → s.account.history = []

variable {historyCount : Nat} {s : PasswordRun} {account : PasswordAccount}

theorem take_filter_of_forall {l : List String} {q : String → Bool} {n : Nat}
    (h : ∀ x ∈ l.take n, q x = true) : (l.filter q).take n = l.take n := by
  induction l generalizing n with
  | nil => rfl
  | cons x l ih =>
    cases n with
    | zero => rfl
    | succ n =>
      rw [List.take_succ_cons] at h
      rw [List.filter_cons_of_pos (h x List.mem_cons_self), List.take_succ_cons,
        List.take_succ_cons, ih fun y hy => h y (List.mem_cons_of_mem _ hy)]

theorem take_distinct_of_nodup {l : List String} {n : Nat} (h : (l.take n).Nodup) :
    (distinct l).take n = l.take n := by
  induction l generalizing n with
  | nil => rfl
  | cons x l ih =>
    cases n with
    | zero => rfl
    | succ n =>
      rw [List.take_succ_cons, List.nodup_cons] at h
      rw [distinct, List.take_succ_cons, List.take_succ_cons]
      have hrest := ih h.2
      rw [take_filter_of_forall, hrest]
      intro y hy
      rw [hrest] at hy
      have hne : y ≠ x := fun heq => h.1 (heq ▸ hy)
      simpa using hne

def entries (account : PasswordAccount) : List PasswordHash :=
  account.replacedHashToRecord.toList ++ account.history

theorem completePasswordReset_eq (account : PasswordAccount) (historyCount : Nat) (new : String)
    (params salt : Nat) :
    account.completePasswordReset historyCount new params salt =
      if new ∈ ((entries account).take historyCount).map (·.password) then none
      else some ⟨some ⟨new, params, salt⟩, ⟨new, params, salt⟩ :: entries account⟩ := by
  have hinstall : ∀ replaced hash, account.installNewPassword replaced hash =
      ⟨some hash, hash :: (replaced.toList ++ account.history)⟩ := by
    intro replaced hash
    cases replaced <;> rfl
  have hchecked : ∀ replaced : Option PasswordHash,
      (if historyCount = 0 then []
        else replaced.toList ++
          if historyCount - (if replaced.isSome then 1 else 0) > 0 then
            account.history.take (historyCount - if replaced.isSome then 1 else 0)
          else []) =
        (replaced.toList ++ account.history).take historyCount := by
    intro replaced
    cases historyCount with
    | zero => simp
    | succ n => cases replaced <;> cases n <;> simp
  simp only [PasswordAccount.completePasswordReset, PasswordAccount.checkHistoryAndHash,
    PasswordAccount.passwordHistory, hchecked]
  split
  · next hused =>
    rw [if_pos (List.mem_map.mpr (by simpa [entries] using hused))]
    rfl
  · next hunused =>
    rw [if_neg (mt List.mem_map.mp (by simpa [entries] using hunused))]
    exact congrArg some (hinstall _ _)

/-- While only the first password has been rehashed, each entry stands for one password. -/
structure Slots (historyCount : Nat) (s : PasswordRun) : Prop where
  used : s.used = (entries s.account).map (·.password)
  nodup : (s.used.take historyCount).Nodup
  recorded : s.account.history ≠ [] → s.account.history.head? = s.account.live

theorem Slots.map_take (h : Slots historyCount s) :
    s.used.take historyCount = ((entries s.account).take historyCount).map (·.password) := by
  rw [h.used, List.map_take]

theorem Slots.new (live : Option PasswordHash) : Slots historyCount (.new live) := by
  refine ⟨?_, ?_, fun hne => absurd rfl hne⟩
  · cases live <;> rfl
  · apply List.Nodup.sublist (List.take_sublist ..)
    cases live <;> simp [PasswordRun.new]

theorem Slots.serve (h : Slots historyCount s) (op : PasswordOp) (hop : RehashesEarly s op) :
    Slots historyCount (s.serve historyCount op) := by
  cases op with
  | reset new params salt =>
    simp only [PasswordRun.serve]
    rw [completePasswordReset_eq]
    split
    · exact h
    · next hfresh =>
      rw [← h.map_take] at hfresh
      have hentries : entries ⟨some ⟨new, params, salt⟩, ⟨new, params, salt⟩ :: entries s.account⟩ =
          ⟨new, params, salt⟩ :: entries s.account := by
        simp [entries, PasswordAccount.replacedHashToRecord, PasswordAccount.passwordHistory]
      refine ⟨?_, ?_, fun _ => rfl⟩
      · simp [hentries, h.used]
      · have hnew : ((new :: s.used).take (historyCount + 1)).Nodup :=
          List.nodup_cons.mpr ⟨hfresh, h.nodup⟩
        exact hnew.sublist ((List.take_sublist_take_left (Nat.le_succ _)))
  | login params salt =>
    unfold PasswordRun.serve PasswordAccount.rehashOutdatedPassword
    cases hlive : s.account.live with
    | none => exact h
    | some hash =>
      dsimp only
      split
      · next houtdated =>
        have hempty := hop hash hlive houtdated
        have hused := h.used
        refine ⟨?_, h.nodup, fun hne => absurd hempty hne⟩
        simpa [entries, PasswordAccount.replacedHashToRecord, PasswordAccount.passwordHistory,
          hempty, hlive] using hused
      · exact h

theorem Slots.refuses (h : Slots historyCount s) : Refuses historyCount s := by
  intro password hmem params salt
  rw [take_distinct_of_nodup h.nodup, h.map_take] at hmem
  rw [completePasswordReset_eq, if_pos hmem]

/-- In every run whose logins rehash before the first reset only, a reset to one of the last
`historyCount` passwords is refused. -/
theorem history_covers_last_passwords (h : Reached historyCount RehashesEarly s) :
    Refuses historyCount s := by
  have hslots : Slots historyCount s := by
    induction h with
    | new live => exact .new live
    | serve op _ hop ih => exact ih.serve op hop
  exact hslots.refuses

def outdated : PasswordHash := ⟨"a", 0, 0⟩

/-- The first password is rehashed, then replaced. -/
theorem history_covers_last_passwords_of_two :
    Refuses 2 (((PasswordRun.new (some outdated)).serve 2 (.login 1 1)).serve 2 (.reset "b" 1 2)) :=
  history_covers_last_passwords (.serve _ (.serve _ (.new _) fun _ _ _ => rfl) trivial)

/-- The second password is rehashed: it takes both slots, and the first can be set again. -/
theorem rehash_uncovers_a_password :
    let s := ((PasswordRun.new (some outdated)).serve 2 (.reset "b" 0 1)).serve 2 (.login 1 2)
    Reached 2 (fun _ _ => True) s ∧ "a" ∈ (distinct s.used).take 2 ∧
      (s.account.completePasswordReset 2 "a" 1 3).isSome = true :=
  ⟨.serve _ (.serve _ (.new _) trivial) trivial, by decide, by decide⟩

end PasswordRun

end Axess
