import Axess.Maps.Expiring
import Axess.Session.Data

/-!
# The replay log of logout tokens

The `(issuer, jti)` pairs of the logout tokens seen lately
(`federation/backchannel_logout/jti_log.rs`). A pair is in flight from the moment its token is
admitted until the action on it has ended. Entries age out of one queue, in the order they arrived.
-/

namespace Axess

open Maps

structure JtiEntry where
  seenAt : Instant
  inFlight : Bool
  deriving DecidableEq

structure JtiLog where
  entries : AList fun _ : String × String => JtiEntry
  order : List (Instant × String × String)

inductive Recorded where
  | new
  | replay
  | inFlight
  | full
  deriving DecidableEq, Repr

namespace JtiLog

def empty : JtiLog := ⟨∅, []⟩

variable (log : JtiLog)

def held (issuer : String) : Nat := (log.entries.keys.filter (·.1 = issuer)).length

def expireBefore (cutoff : Instant) : JtiLog :=
  let left := popDue (fun seenAt => seenAt < cutoff) log.entries log.order
  ⟨left.1, left.2⟩

/-- Record a pair as seen at `now`, unless it is held or its issuer has no room. -/
def record (capacity : Nat) (pair : String × String) (now cutoff : Instant) : Recorded × JtiLog :=
  let log := log.expireBefore cutoff
  match log.entries.lookup pair with
  | some entry => (if entry.inFlight then .inFlight else .replay, log)
  | none =>
    -- an issuer without an entry has no partition that could be full
    if log.held pair.1 ≠ 0 ∧ capacity ≤ log.held pair.1 then (.full, log)
    else (.new, ⟨log.entries.insert pair ⟨now, true⟩, log.order ++ [(now, pair)]⟩)

def settle (pair : String × String) : JtiLog :=
  match log.entries.lookup pair with
  | none => log
  | some entry => { log with entries := log.entries.insert pair { entry with inFlight := false } }

def forget (pair : String × String) : Bool × JtiLog :=
  match log.entries.lookup pair with
  | none => (false, log)
  | some entry =>
    (true, ⟨log.entries.erase pair, log.order.filter (· ≠ (entry.seenAt, pair))⟩)

/-- The order has one item for each entry it names. -/
def Ordered : Prop := Queued JtiEntry.seenAt log.entries log.order

variable {log} {pair other : String × String} {entry : JtiEntry} {now cutoff : Instant}
  {capacity : Nat}

theorem ordered_empty : Ordered empty := Queued.empty

theorem Ordered.expireBefore (h : log.Ordered) (cutoff : Instant) :
    (log.expireBefore cutoff).Ordered :=
  h.popDue _

theorem Ordered.lookup_expireBefore (h : log.Ordered) (hentry : log.entries.lookup pair = some entry)
    (hcutoff : cutoff ≤ entry.seenAt) :
    (log.expireBefore cutoff).entries.lookup pair = some entry :=
  h.lookup_popDue hentry (decide_eq_false (Int.not_lt.mpr hcutoff))

theorem lookup_expireBefore_none (hentry : log.entries.lookup pair = none) :
    (log.expireBefore cutoff).entries.lookup pair = none :=
  lookup_popDue_none _ hentry log.order

theorem record_cases (log : JtiLog) (capacity : Nat) (pair : String × String)
    (now cutoff : Instant) :
    (∃ r, r ≠ .new ∧ log.record capacity pair now cutoff = (r, log.expireBefore cutoff)) ∨
      (log.expireBefore cutoff).entries.lookup pair = none ∧
        log.record capacity pair now cutoff =
          (.new, ⟨(log.expireBefore cutoff).entries.insert pair ⟨now, true⟩,
            (log.expireBefore cutoff).order ++ [(now, pair)]⟩) := by
  unfold record
  simp only
  cases hentry : (log.expireBefore cutoff).entries.lookup pair with
  | some entry =>
    refine .inl ⟨_, ?_, rfl⟩
    cases entry.inFlight <;> simp
  | none =>
    simp only
    split
    · exact .inl ⟨.full, nofun, rfl⟩
    · exact .inr ⟨trivial, rfl⟩

theorem lookup_settle : (log.settle pair).entries.lookup other =
    if other = pair then (log.entries.lookup pair).map ({ · with inFlight := false })
    else log.entries.lookup other := by
  unfold settle
  by_cases hsame : other = pair
  · subst hsame
    rw [if_pos rfl]
    cases hentry : log.entries.lookup other with
    | none => exact hentry
    | some entry => exact AList.lookup_insert log.entries
  · rw [if_neg hsame]
    cases log.entries.lookup pair with
    | none => rfl
    | some entry => exact AList.lookup_insert_ne hsame

theorem Ordered.settle (h : log.Ordered) (pair : String × String) : (log.settle pair).Ordered := by
  unfold JtiLog.settle
  cases hentry : log.entries.lookup pair with
  | none => exact h
  | some entry => exact h.replace hentry rfl

theorem lookup_forget : (log.forget pair).2.entries.lookup other =
    if other = pair then none else log.entries.lookup other := by
  unfold forget
  by_cases hsame : other = pair
  · subst hsame
    rw [if_pos rfl]
    cases hentry : log.entries.lookup other with
    | none => exact hentry
    | some entry => exact AList.lookup_erase other log.entries
  · rw [if_neg hsame]
    cases log.entries.lookup pair with
    | none => rfl
    | some entry => exact AList.lookup_erase_ne hsame

theorem Ordered.forget (h : log.Ordered) (pair : String × String) :
    (log.forget pair).2.Ordered := by
  unfold JtiLog.forget
  cases hentry : log.entries.lookup pair with
  | none => exact h
  | some entry =>
    refine h.erase fun item hitem hkept heq => ?_
    -- the item of the pair carries the time of its entry, so it goes
    obtain ⟨entry', hentry', hseen⟩ := h.held item hitem
    rw [heq] at hentry'
    obtain rfl := Option.some.inj (hentry.symm.trans hentry')
    exact of_decide_eq_true hkept (Prod.ext hseen.symm heq)

end JtiLog

end Axess
