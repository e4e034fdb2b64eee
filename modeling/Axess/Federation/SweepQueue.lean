import Axess.Federation.Consistent

/-!
# The length of the sweep's queue

A registration that lengthens the queue compacts it once it is past twice the number of records and a
slack. What is left then is one item for each record, unless a record was forgotten and registered again
while its old item was still in the queue: both items are of the record, and no compaction drops either.
-/

namespace Axess

namespace SidState

variable {s : SidState}

inductive SweepCall where
  | register (issuer subject : String) (user : UserId) (session : SessionId)
  | forget (issuer : String) (user : UserId) (session : SessionId)
  | removeSession (session : SessionId)
  | sweep (max : Nat)

def SweepCall.run (s : SidState) : SweepCall → SidState
  | register issuer subject user session => s.registerSubject issuer subject user session
  | forget issuer user session => (s.forgetSubject issuer user session).2
  | removeSession session => (s.removeSession session).2
  | sweep max => (s.sweepSubjectCandidates max).2

def runAll (calls : List SweepCall) : SidState := calls.foldl SweepCall.run empty

def Bounded (s : SidState) : Prop := s.subjectOrder.length ≤ 2 * s.subjectOf.keys.length + 65

/-- How many records have been forgotten, by a call or for another record of their session, since the
queue was last compacted. -/
def SweepCall.forgotten (s : SidState) (before : Nat) (call : SweepCall) : Nat :=
  let live := (call.run s).subjectOf.keys.length
  match call with
  | register issuer subject user session =>
    if s.subjectOf.lookup session = some ⟨issuer, subject, user⟩ then before
    else if 2 * live + queueSlack < s.subjectOrder.length + 1 then 0
    else before + (s.subjectOf.keys.length + 1 - live)
  | _ => before + (s.subjectOf.keys.length - live)

/-- A registration that changes the registry finds no item of its own in the queue. One that finds its
record as it is comes before too many have been forgotten: such a call compacts nothing. -/
def SweepCall.Timely (s : SidState) (forgotten : Nat) : SweepCall → Prop
  | register issuer subject user session =>
    (s.subjectOf.lookup session ≠ some ⟨issuer, subject, user⟩ →
      (issuer, user, session) ∉ s.subjectOrder) ∧
    (s.subjectOf.lookup session = some ⟨issuer, subject, user⟩ →
      forgotten ≤ s.subjectOf.keys.length + 65)
  | _ => True

def AllTimely (s : SidState) (forgotten : Nat) : List SweepCall → Prop
  | [] => True
  | call :: calls =>
    call.Timely s forgotten ∧ AllTimely (call.run s) (call.forgotten s forgotten) calls

theorem subperm_sweepFrom (n : Nat) (named : List SessionId) (s : SidState) :
    (sweepFrom n named s).2.subjectOrder.Subperm s.subjectOrder := by
  induction n generalizing named s with
  | zero => exact .refl _
  | succ n ih =>
    unfold sweepFrom
    cases hqueue : s.subjectOrder with
    | nil => exact (List.Perm.of_eq hqueue).subperm
    | cons item queue =>
      dsimp only
      split
      · exact (ih _ _).trans (List.perm_append_singleton item queue).subperm
      · exact (ih _ _).trans (List.sublist_cons_self item queue).subperm

theorem subjectOrder_forgetSubject (issuer : String) (user : UserId) (session : SessionId) :
    (s.forgetSubject issuer user session).2.subjectOrder = s.subjectOrder := by
  unfold forgetSubject
  cases s.subjectOf.lookup session with
  | none => rfl
  | some held =>
    dsimp only
    split <;> rfl

theorem subjectOrder_removeSession (session : SessionId) :
    (s.removeSession session).2.subjectOrder = s.subjectOrder := by
  have hkeys (keys : List SidKey) (s : SidState) :
      (removeKeys keys s).2.subjectOrder = s.subjectOrder := by
    induction keys generalizing s with
    | nil => rfl
    | cons key keys ih => exact (ih (s.remove key).2).trans subjectOrder_remove
  unfold removeSession
  dsimp only
  split
  · exact hkeys _ s
  · exact (subjectOrder_forgetSubject _ _ session).trans (hkeys _ s)

/-- Distinct items of records are of distinct sessions. -/
theorem length_recorded_le (h : s.subjectOrder.Nodup) :
    (s.subjectOrder.filter s.recorded).length ≤ s.subjectOf.keys.length := by
  rw [← List.length_map (f := fun item => item.2.2)]
  refine ((List.Nodup.map_on (fun item hitem item' hitem' heq => ?_) (h.filter _)).subperm
    fun session hsession => ?_).length_le
  · exact recorded_unique (List.of_mem_filter hitem) (List.of_mem_filter hitem') heq
  · obtain ⟨item, hitem, rfl⟩ := List.mem_map.mp hsession
    obtain ⟨held, hheld, -⟩ := recorded_iff.mp (List.of_mem_filter hitem)
    exact AList.mem_keys.mp (AList.lookup_isSome.mp (by rw [hheld]; rfl))

/-- A registration that changes the registry adds its item to the queue, and then compacts it. -/
theorem registerSubject_cases (s : SidState) (issuer subject : String) (user : UserId)
    (session : SessionId) :
    s.subjectOf.lookup session = some ⟨issuer, subject, user⟩ ∧
      s.registerSubject issuer subject user session = s ∨
    s.subjectOf.lookup session ≠ some ⟨issuer, subject, user⟩ ∧
      ∃ s' : SidState, s'.subjectOrder = s.subjectOrder ++ [(issuer, user, session)] ∧
        s.registerSubject issuer subject user session = s'.compact := by
  unfold registerSubject
  cases hlookup : s.subjectOf.lookup session with
  | none => exact .inr ⟨nofun, _, rfl, rfl⟩
  | some held =>
    dsimp only
    split
    · next hsame => exact .inl ⟨congrArg some hsame, rfl⟩
    · next hother =>
      refine .inr ⟨fun heq => hother (Option.some.inj heq), _, ?_, rfl⟩
      rw [record, subjectOrder_forgetSubject]

/-- The items of the queue are of live records, one each, and of records forgotten since it was last
compacted. -/
structure Settled (s : SidState) (forgotten : Nat) : Prop where
  nodup : s.subjectOrder.Nodup
  length_le : s.subjectOrder.length ≤ s.subjectOf.keys.length + forgotten

theorem register_settled {issuer subject : String} {user : UserId} {session : SessionId}
    {forgotten : Nat} (h : Settled s forgotten)
    (htimely : (SweepCall.register issuer subject user session).Timely s forgotten) :
    Settled (s.registerSubject issuer subject user session)
        ((SweepCall.register issuer subject user session).forgotten s forgotten) ∧
      (s.registerSubject issuer subject user session).Bounded := by
  obtain ⟨hnodup, hlen⟩ := h
  have hslack : queueSlack = 64 := rfl
  simp only [SweepCall.forgotten, SweepCall.run]
  obtain ⟨hheld, heq⟩ | ⟨hnew, s', hqueue, heq⟩ :=
    registerSubject_cases s issuer subject user session
  · have hle := htimely.2 hheld
    rw [if_pos hheld, heq]
    exact ⟨⟨hnodup, hlen⟩, by unfold Bounded; omega⟩
  · have hnodup' : s'.subjectOrder.Nodup := by
      rw [hqueue]
      exact List.nodup_append.mpr ⟨hnodup, List.nodup_singleton _, fun item hitem item' hitem' hsame =>
        htimely.1 hnew (List.mem_singleton.mp hitem' ▸ hsame ▸ hitem)⟩
    have hlen' : s'.subjectOrder.length = s.subjectOrder.length + 1 := by rw [hqueue]; simp
    simp only [if_neg hnew, heq, ← hlen', compact]
    split
    · have hle := length_recorded_le hnodup'
      exact ⟨⟨hnodup'.filter _, by omega⟩, by unfold Bounded; dsimp only; omega⟩
    · exact ⟨⟨hnodup', by omega⟩, by unfold Bounded; omega⟩

theorem SweepCall.settled (call : SweepCall) {forgotten : Nat} (h : Settled s forgotten)
    (htimely : call.Timely s forgotten) : Settled (call.run s) (call.forgotten s forgotten) := by
  -- the calls that register nothing leave a part of the queue
  have hrest {s' : SidState} (hsub : s'.subjectOrder.Subperm s.subjectOrder) :
      Settled s' (forgotten + (s.subjectOf.keys.length - s'.subjectOf.keys.length)) := by
    obtain ⟨queue, hperm, hsublist⟩ := hsub
    have hlen := hperm.length_eq ▸ hsublist.length_le
    exact ⟨hperm.nodup_iff.mp (hsublist.nodup h.nodup), by have := h.length_le; omega⟩
  cases call with
  | register => exact (register_settled h htimely).1
  | forget issuer user session => exact hrest (List.Perm.of_eq (subjectOrder_forgetSubject ..)).subperm
  | removeSession session => exact hrest (List.Perm.of_eq (subjectOrder_removeSession _)).subperm
  | sweep max => exact hrest (subperm_sweepFrom (min max s.subjectOrder.length) [] s)

theorem AllTimely.settled {calls rest : List SweepCall} {forgotten : Nat} (h : Settled s forgotten)
    (htimely : AllTimely s forgotten (calls ++ rest)) :
    ∃ forgotten', Settled (calls.foldl SweepCall.run s) forgotten' ∧
      AllTimely (calls.foldl SweepCall.run s) forgotten' rest := by
  induction calls generalizing s forgotten with
  | nil => exact ⟨forgotten, h, htimely⟩
  | cons call calls ih => exact ih (call.settled h htimely.1) htimely.2

/-- In every run whose registrations are all timely, the queue is within the bound after each. -/
theorem sweep_queue_bounded {calls : List SweepCall} {issuer subject : String} {user : UserId}
    {session : SessionId}
    (htimely : AllTimely empty 0 (calls ++ [.register issuer subject user session])) :
    (runAll (calls ++ [.register issuer subject user session])).Bounded := by
  obtain ⟨forgotten, hsettled, hlast⟩ :=
    AllTimely.settled (s := empty) ⟨List.nodup_nil, Nat.zero_le _⟩ htimely
  unfold runAll
  rw [List.foldl_append]
  exact (register_settled hsettled hlast.1).2

theorem sweep_queue_bounded_again :
    let again : List SweepCall := [.register "op" "sub" ⟨1⟩ ⟨2⟩, .register "op" "sub" ⟨1⟩ ⟨3⟩,
      .forget "op" ⟨1⟩ ⟨2⟩, .register "op" "sub" ⟨1⟩ ⟨3⟩, .sweep 1]
    (runAll (again ++ [.register "op" "sub" ⟨1⟩ ⟨2⟩])).Bounded :=
  sweep_queue_bounded ⟨⟨nofun, nofun⟩, ⟨by decide, nofun⟩, trivial, ⟨by decide, by decide⟩, trivial,
    ⟨by decide, nofun⟩, trivial⟩

/-- A record that is forgotten and registered again sixty-seven times has sixty-eight items in the
queue, and sixty-seven are the bound. -/
theorem sweep_queue_unbounded :
    ∃ calls : List SweepCall,
      ¬(runAll (calls ++ [.register "op" "sub" ⟨1⟩ ⟨2⟩])).Bounded := by
  refine ⟨(List.replicate 67
    [SweepCall.register "op" "sub" ⟨1⟩ ⟨2⟩, .forget "op" ⟨1⟩ ⟨2⟩]).flatten, ?_⟩
  unfold Bounded
  decide +kernel

end SidState

end Axess
