import Axess.Audit.Tick

/-!
# What a tick marks

Whatever the table and the sink answer, a tick marks as archived the rows the sink acknowledged in
that tick and no others, offers no row alone twice, and purges.

The calls of a tick are noted in a ledger as they are answered.
-/

namespace Axess

open Calls Prog

namespace AuditRetentionLoop

variable {Id Event SourceError ArchiverError : Type}

structure Ledger (Id Event : Type) where
  selected : List (Id × Event) := []
  offers : List (List (Id × Event)) := []
  acknowledged : List (List (Id × Event)) := []
  marks : List (List Id) := []
  marked : List Id := []
  purges : Nat := 0

def Ledger.note (ledger : Ledger Id Event) :
    (e : RetentionCall Id Event) → e.Answer Id Event SourceError ArchiverError → Ledger Id Event
  | .now, _ => ledger
  | .selectUnarchivedBefore _ _, .ok rows => { ledger with selected := ledger.selected ++ rows }
  | .selectUnarchivedBefore _ _, .error _ => ledger
  | .archiveBatch rows, .ok () =>
    { ledger with offers := ledger.offers ++ [rows], acknowledged := ledger.acknowledged ++ [rows] }
  | .archiveBatch rows, .error _ => { ledger with offers := ledger.offers ++ [rows] }
  | .markArchived ids _, .ok () =>
    { ledger with marks := ledger.marks ++ [ids], marked := ledger.marked ++ ids }
  | .markArchived ids _, .error _ => { ledger with marks := ledger.marks ++ [ids] }
  | .purgeHotArchivedBefore _, _ => { ledger with purges := ledger.purges + 1 }

def noted : Sem (RetentionCall Id Event) (RetentionCall.Answer Id Event SourceError ArchiverError)
    (Ledger Id Event) :=
  fun e ledger answer ledger' => ledger' = ledger.note e answer

variable {ledger : Ledger Id Event}

theorem ends_perform {α : Type} {e : RetentionCall Id Event}
    {f : e.Answer Id Event SourceError ArchiverError →
      RetentionProg Id Event SourceError ArchiverError α} {Q : α → Ledger Id Event → Prop}
    (hf : ∀ answer, (f answer).Ends noted Q (ledger.note e answer)) :
    (perform e >>= f).Ends noted Q ledger :=
  Ends.perform_bind fun answer _ hnote => hnote ▸ hf answer

structure Passed (rows : List (Id × Event)) (pass pass' : Pass Id ArchiverError)
    (ledger ledger' : Ledger Id Event) (accepted : List (Id × Event)) : Prop where
  accepted_sublist : accepted.Sublist rows
  taken : pass'.taken = pass.taken ++ accepted.map Prod.fst
  ledger : ledger' = { ledger with
    offers := ledger.offers ++ rows.map fun row => [row]
    acknowledged := ledger.acknowledged ++ accepted.map fun row => [row] }

theorem offerEach_ends (rows : List (Id × Event)) (pass : Pass Id ArchiverError)
    (ledger : Ledger Id Event) :
    (offerEach rows pass : RetentionProg Id Event SourceError ArchiverError _).Ends noted
      (fun pass' ledger' => ∃ accepted, Passed rows pass pass' ledger ledger' accepted) ledger := by
  induction rows generalizing pass ledger with
  | nil => exact .ret ⟨[], .slnil, by simp, by simp⟩
  | cons row rows ih =>
    refine ends_perform fun answer => ?_
    cases answer with
    | ok =>
      refine (ih _ _).conseq ?_
      rintro pass' ledger' ⟨accepted, hsub, htaken, hledger⟩
      refine ⟨row :: accepted, hsub.cons_cons row, ?_, ?_⟩
      · simp [htaken, Pass.note]
      · simp [hledger, Ledger.note]
    | error e =>
      refine (ih _ _).conseq ?_
      rintro pass' ledger' ⟨accepted, hsub, htaken, hledger⟩
      refine ⟨accepted, hsub.cons row, ?_, ?_⟩
      · simp [htaken, Pass.note]
      · simp [hledger, Ledger.note]

/-! ## The archive step -/

/-- What the sink was asked and what was marked, for a batch of rows. -/
structure Settled (batch : List (Id × Event)) (ledger : Ledger Id Event) : Prop where
  offered : ∀ rows ∈ ledger.offers, rows = batch ∨ ∃ row ∈ batch, rows = [row]
  alone : (ledger.offers.filter fun rows => rows.length = 1).flatten.Subperm batch
  offers_le : ledger.offers.length ≤ batch.length + 1
  acknowledged : ledger.acknowledged = [batch] ∨ ∀ rows ∈ ledger.acknowledged, rows.length = 1
  acknowledged_subperm : ledger.acknowledged.flatten.Subperm batch
  /-- What was acknowledged is marked, by one call, and nothing else is. -/
  marks : ledger.marks =
    if ledger.acknowledged = [] then [] else [ledger.acknowledged.flatten.map Prod.fst]

structure RowByRow (batch offered accepted : List (Id × Event)) (ledger : Ledger Id Event) :
    Prop where
  two_le : 2 ≤ batch.length
  offered_subperm : offered.Subperm batch
  accepted_subperm : accepted.Subperm batch
  offers : ledger.offers = batch :: offered.map fun row => [row]
  acknowledged : ledger.acknowledged = accepted.map fun row => [row]

theorem flatten_map_singleton {α : Type} (l : List α) : (l.map fun x => [x]).flatten = l := by
  induction l with
  | nil => rfl
  | cons x l ih => simp [ih]

theorem RowByRow.settled {batch offered accepted : List (Id × Event)}
    (h : RowByRow batch offered accepted ledger)
    (hmarks : ledger.marks = if accepted = [] then [] else [accepted.map Prod.fst]) :
    Settled batch ledger where
  offered rows hrows := by
    rw [h.offers, List.mem_cons, List.mem_map] at hrows
    rcases hrows with rfl | ⟨row, hrow, rfl⟩
    · exact .inl rfl
    · exact .inr ⟨row, h.offered_subperm.subset hrow, rfl⟩
  alone := by
    -- the batch itself has more than one row, so what is left are the rows offered alone
    have hbatch : ¬batch.length = 1 := by
      have := h.two_le
      omega
    rw [h.offers, List.filter_cons_of_neg (by simpa using hbatch),
      List.filter_eq_self.mpr ?_, flatten_map_singleton]
    · exact h.offered_subperm
    · intro rows hrows
      obtain ⟨row, _, rfl⟩ := List.mem_map.mp hrows
      rfl
  offers_le := by
    have hle := h.offered_subperm.length_le
    simp only [h.offers, List.length_cons, List.length_map]
    omega
  acknowledged := by
    right
    intro rows hrows
    rw [h.acknowledged, List.mem_map] at hrows
    obtain ⟨row, _, rfl⟩ := hrows
    rfl
  acknowledged_subperm := by
    rw [h.acknowledged, flatten_map_singleton]
    exact h.accepted_subperm
  marks := by
    rw [hmarks, h.acknowledged, flatten_map_singleton]
    simp

theorem settled_nil (hoffers : ledger.offers = []) (hacknowledged : ledger.acknowledged = [])
    (hmarks : ledger.marks = []) :
    Settled [] ledger where
  offered := by simp [hoffers]
  alone := by simp [hoffers]
  offers_le := by simp [hoffers]
  acknowledged := by simp [hacknowledged]
  acknowledged_subperm := by simp [hacknowledged]
  marks := by simp [hacknowledged, hmarks]

theorem settled_whole {batch : List (Id × Event)} (hoffers : ledger.offers = [batch])
    (hmarks : (ledger.acknowledged = [batch] ∧ ledger.marks = [batch.map Prod.fst]) ∨
      (ledger.acknowledged = [] ∧ ledger.marks = [])) : Settled batch ledger where
  offered := by simp [hoffers]
  alone := by
    by_cases hone : batch.length = 1
    · simp [hoffers, hone, List.Subperm.refl]
    · simp [hoffers, hone]
  offers_le := by simp [hoffers]
  acknowledged := by
    rcases hmarks with ⟨hacknowledged, _⟩ | ⟨hacknowledged, _⟩
    · exact .inl hacknowledged
    · exact .inr (by simp [hacknowledged])
  acknowledged_subperm := by
    rcases hmarks with ⟨hacknowledged, _⟩ | ⟨hacknowledged, _⟩
    · simp [hacknowledged, List.Subperm.refl]
    · simp [hacknowledged]
  marks := by
    rcases hmarks with ⟨hacknowledged, hmarks⟩ | ⟨hacknowledged, hmarks⟩
    · simp [hacknowledged, hmarks]
    · simp [hacknowledged, hmarks]

section Tick

variable [ToString Id]

def Archived (batch : List (Id × Event)) (step : ArchiveStep SourceError ArchiverError)
    (ledger : Ledger Id Event) : Prop :=
  Settled batch ledger ∧ step.archived = ledger.marked.length

theorem finishPass_ends (batch offered accepted : List (Id × Event)) {ledger : Ledger Id Event}
    {pass : Pass Id ArchiverError} (now : Instant) (skipped : Skipped)
    (hrows : RowByRow batch offered accepted ledger) (htaken : pass.taken = accepted.map Prod.fst)
    (hmarks : ledger.marks = []) (hmarked : ledger.marked = []) :
    (finishPass now skipped pass : RetentionProg Id Event SourceError ArchiverError _).Ends noted
      (fun step ledger' => Archived batch step ledger' ∧ ledger'.selected = ledger.selected ∧
        ledger'.purges = ledger.purges) ledger := by
  unfold finishPass
  by_cases hempty : pass.taken.isEmpty
  · rw [if_pos hempty]
    have hnone : accepted = [] := by simpa [htaken] using hempty
    refine .ret ⟨⟨hrows.settled ?_, ?_⟩, rfl, rfl⟩
    · simp [hnone, hmarks]
    · simp [hmarked]
  · rw [if_neg hempty]
    have hsome : accepted ≠ [] := by simpa [htaken] using hempty
    refine ends_perform fun answer => ?_
    cases answer with
    | error e =>
      refine .ret ⟨⟨RowByRow.settled ⟨hrows.two_le, hrows.offered_subperm, hrows.accepted_subperm,
        hrows.offers, hrows.acknowledged⟩ ?_, ?_⟩, rfl, rfl⟩
      · simp [hsome, hmarks, htaken, Ledger.note]
      · simp [hmarked, Ledger.note]
    | ok =>
      refine .ret ⟨⟨RowByRow.settled ⟨hrows.two_le, hrows.offered_subperm, hrows.accepted_subperm,
        hrows.offers, hrows.acknowledged⟩ ?_, ?_⟩, rfl, rfl⟩
      · simp [hsome, hmarks, htaken, Ledger.note]
      · simp [hmarked, htaken, Ledger.note]

theorem offerRows_ends {first last : Id × Event} {rest : List (Id × Event)} (now : Instant)
    (skipped : Skipped) (selected : List (Id × Event)) (refused : ArchiverError)
    (hlast : rest.getLast? = some last) :
    (offerRows now skipped first rest last refused :
      RetentionProg Id Event SourceError ArchiverError _).Ends noted
      (fun step ledger => Archived (first :: rest) step ledger ∧ ledger.selected = selected ∧
        ledger.purges = 0) { selected := selected, offers := [first :: rest] } := by
  -- the rest ends in the newest row
  have hrest : rest.dropLast ++ [last] = rest := List.dropLast_append_getLast? last hlast
  have htwo : 2 ≤ (first :: rest).length := by
    rw [← hrest]
    simp
  have hends : (last :: rest.dropLast).Perm rest := by
    have hperm := List.perm_append_singleton last rest.dropLast
    rw [hrest] at hperm
    exact hperm.symm
  refine ends_perform fun answer => ?_
  cases answer with
  | ok =>
    refine (offerEach_ends rest _ _).bind ?_
    rintro pass ledger ⟨accepted, hsub, htaken, rfl⟩
    refine finishPass_ends (first :: rest) (first :: rest) (first :: accepted) now skipped ?_ htaken
      rfl rfl
    exact ⟨htwo, .refl _, (hsub.cons_cons first).subperm, rfl, rfl⟩
  | error e =>
    refine ends_perform fun answer => ?_
    cases answer with
    | ok =>
      refine (offerEach_ends rest.dropLast _ _).bind ?_
      rintro pass ledger ⟨accepted, hsub, htaken, rfl⟩
      have hrest_subperm : rest.Subperm (first :: rest) :=
        (List.sublist_cons_self first rest).subperm
      refine finishPass_ends (first :: rest) (first :: last :: rest.dropLast) (last :: accepted) now
        skipped ?_ htaken rfl rfl
      exact ⟨htwo, (hends.cons first).subperm,
        ((hsub.cons_cons last).subperm.trans hends.subperm).trans hrest_subperm, rfl, rfl⟩
    | error e' =>
      have hpair : [first, last].Subperm (first :: rest) :=
        ((List.singleton_sublist.mpr (List.mem_of_getLast? hlast)).cons_cons first).subperm
      refine .ret ⟨⟨?_, rfl⟩, rfl, rfl⟩
      have hrows : ∀ ledger : Ledger Id Event, ledger.offers = [first :: rest, [first], [last]] →
          ledger.acknowledged = [] → RowByRow (first :: rest) [first, last] [] ledger :=
        fun ledger hoffers hnone => ⟨htwo, hpair, List.nil_subperm, hoffers, hnone⟩
      exact (hrows _ rfl rfl).settled rfl

theorem offerBatch_ends (now : Instant) (skipped : Skipped) (selected batch : List (Id × Event)) :
    (offerBatch now skipped batch : RetentionProg Id Event SourceError ArchiverError _).Ends noted
      (fun step ledger => Archived batch step ledger ∧ ledger.selected = selected ∧
        ledger.purges = 0) { selected := selected } := by
  cases batch with
  | nil => exact .ret ⟨⟨settled_nil rfl rfl rfl, rfl⟩, rfl, rfl⟩
  | cons first rest =>
    refine ends_perform fun answer => ?_
    cases answer with
    | ok =>
      refine ends_perform fun answer => ?_
      cases answer with
      | ok =>
        refine .ret ⟨⟨settled_whole rfl (.inl ⟨rfl, rfl⟩), ?_⟩, rfl, rfl⟩
        simp [Ledger.note]
      | error e => exact .ret ⟨⟨settled_whole rfl (.inl ⟨rfl, rfl⟩), rfl⟩, rfl, rfl⟩
    | error refused =>
      cases hlast : rest.getLast? with
      | none => exact .ret ⟨⟨settled_whole rfl (.inr ⟨rfl, rfl⟩), rfl⟩, rfl, rfl⟩
      | some last => exact offerRows_ends now skipped selected refused hlast

theorem archiveDue_ends (loop : AuditRetentionLoop) (skipped : Skipped) (now cutoff : Instant) :
    (loop.archiveDue skipped now cutoff :
      RetentionProg Id Event SourceError ArchiverError _).Ends noted
      (fun step ledger => (∃ batch, batch.Sublist ledger.selected ∧ Archived batch step ledger) ∧
        ledger.purges = 0) {} := by
  refine ends_perform fun answer => ?_
  cases answer with
  | error e => exact .ret ⟨⟨[], .slnil, settled_nil rfl rfl rfl, rfl⟩, rfl⟩
  | ok rows =>
    refine (offerBatch_ends now _ rows (loop.batchOf _ rows)).conseq ?_
    rintro step ledger ⟨harchived, hselected, hpurges⟩
    refine ⟨⟨_, ?_, harchived⟩, hpurges⟩
    rw [hselected]
    exact (List.take_sublist _ _).trans List.filter_sublist

/-- Whatever the table and the sink answer: the rows marked are those the sink acknowledged, no row
is offered alone twice, the report counts the rows whose marking succeeded, and the tick purges
once. -/
theorem tick_marks_what_was_acknowledged (minUtc : Instant) (loop : AuditRetentionLoop)
    (skipped : Skipped) (outcome : TickOutcome SourceError ArchiverError)
    (ledger : Ledger Id Event)
    (hrun : (tickWithReport minUtc loop skipped).Runs noted {} outcome ledger) :
    (∃ batch, batch.Sublist ledger.selected ∧ Settled batch ledger) ∧
      outcome.report.archived = ledger.marked.length ∧ ledger.purges = 1 := by
  have hends : (tickWithReport minUtc loop skipped :
      RetentionProg Id Event SourceError ArchiverError _).Ends noted
      (fun outcome ledger => (∃ batch, batch.Sublist ledger.selected ∧ Settled batch ledger) ∧
        outcome.report.archived = ledger.marked.length ∧ ledger.purges = 1) {} := by
    refine ends_perform fun now => ?_
    refine (archiveDue_ends loop skipped now _).bind ?_
    rintro step ledger ⟨⟨batch, hsub, hsettled, harchived⟩, hpurges⟩
    refine ends_perform fun answer => ?_
    have hsettled' : Settled batch { ledger with purges := ledger.purges + 1 } :=
      { hsettled with }
    cases answer with
    | ok purged => exact .ret ⟨⟨batch, hsub, hsettled'⟩, harchived, by simp [hpurges, Ledger.note]⟩
    | error e => exact .ret ⟨⟨batch, hsub, hsettled'⟩, harchived, by simp [hpurges, Ledger.note]⟩
  exact hends outcome ledger hrun

def refusesFirst :
    (e : RetentionCall String Unit) → e.Answer String Unit Unit Unit
  | .now => 0
  | .selectUnarchivedBefore _ _ => .ok [("a", ()), ("b", ()), ("c", ())]
  | .archiveBatch rows => if ("a", ()) ∈ rows then .error () else .ok ()
  | .markArchived _ _ => .ok ()
  | .purgeHotArchivedBefore _ => .ok 0

/-- The newest row is probed before the one in the middle is offered. -/
theorem tick_marks_what_was_acknowledged_of_three :
    let run := (tickWithReport 0 {} ∅ : RetentionProg String Unit Unit Unit _).eval
      (fun e (ledger : Ledger String Unit) => (refusesFirst e, ledger.note e (refusesFirst e))) {}
    run.2.marks = [["c", "b"]] ∧ (∃ batch, batch.Sublist run.2.selected ∧ Settled batch run.2) ∧
      run.1.report.archived = run.2.marked.length ∧ run.2.purges = 1 :=
  ⟨by decide +kernel, tick_marks_what_was_acknowledged 0 {} ∅ _ _ (runs_eval (fun _ _ => rfl) _ _)⟩

end Tick

end AuditRetentionLoop

end Axess
