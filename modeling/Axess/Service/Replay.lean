import Axess.Calls.Once
import Axess.Service.Memory

/-!
# A signed request is accepted once

Any number of checks share one verifier, each at its own reading of a clock that may step either
way. Every decision of the memory is noted with the memory it left. A tag that was accepted is held
or its stamp is below the mark, so it is not accepted again; and the mark is the stamp of something
that was accepted and is held no more.
-/

namespace Axess

open Calls Remembered

variable {ι : Type}

structure Decision (ι : Type) where
  who : ι
  tag : Tag
  stamp : Int
  outcome : Except MemoryRefusal Unit
  seen : Remembered

/-- The verifier, the readings of the clock so far, and the decisions so far. -/
structure VerifierRun (ι : Type) where
  verifier : VerifierState
  reads : List (ι × Instant)
  log : List (Decision ι)

namespace Decision

def accepted (d : Decision ι) : Bool := d.outcome.isOk

def admission (d : Decision ι) : Admission ι (Tag × Int) := ⟨d.who, d.tag, d.stamp⟩

end Decision

namespace Verifying

def admissions (s : VerifierRun ι) : List (Admission ι (Tag × Int)) :=
  (s.log.filter Decision.accepted).map Decision.admission

variable (config : SignedRequests)

/-- The clock reads anything. A claim on the sweep is won as the stamp allows, or lost to another
check. The memory is under a lock; the claim made there may be lost as well. -/
def sem (i : ι) : Sem VerifierCall VerifierCall.Answer (VerifierRun ι)
  | .clock, s, (a : Instant), s' => s' = { s with reads := s.reads ++ [(i, a)] }
  | .claimSweep now interval, s, a, s' =>
    a = (claimSweep now interval s.verifier.lastSweep).1 ∧
        s' = { s with verifier := { s.verifier with
          lastSweep := (claimSweep now interval s.verifier.lastSweep).2 } } ∨
      a = false ∧ s' = s
  | .remember now sweepDue tag stamp, s, a, s' => ∃ lost,
      a = (s.verifier.remember config now sweepDue lost tag stamp).1 ∧
      s' = { s with
        verifier := (s.verifier.remember config now sweepDue lost tag stamp).2
        log := s.log ++ [⟨i, tag, stamp, a,
          (s.verifier.remember config now sweepDue lost tag stamp).2.seen⟩] }

inductive Guarantee (i : ι) (s s' : VerifierRun ι) : Prop where
  | quiet : s'.verifier.seen = s.verifier.seen → s'.log = s.log →
      (s'.reads = s.reads ∨ ∃ t, s'.reads = s.reads ++ [(i, t)]) → Guarantee i s s'
  | decided (now : Int) (sweepDue lost : Bool) (tag : Tag) (stamp : Int) :
      s'.verifier = (s.verifier.remember config now sweepDue lost tag stamp).2 →
      s'.reads = s.reads →
      s'.log = s.log ++ [⟨i, tag, stamp,
        (s.verifier.remember config now sweepDue lost tag stamp).1, s'.verifier.seen⟩] →
      Guarantee i s s'

/-! ## What every run keeps -/

/-- A refusal has its reason in the decisions before it: the tag was presented before, or the stamp
is at or below one that was accepted and is held no more, or the memory is full. -/
def Justified (earlier : List (Decision ι)) (d : Decision ι) : Prop :=
  (∃ d' ∈ earlier, d'.tag = d.tag) ∨
    (∃ d' ∈ earlier, d'.accepted = true ∧ ¬d.seen.Holds d'.tag d'.stamp ∧ d.stamp ≤ d'.stamp) ∨
    config.maxRemembered ≤ d.seen.live.keys.length

structure Inv (s : VerifierRun ι) : Prop where
  apart : s.verifier.seen.Apart
  once : Once (fun key s => Barred key s.verifier.seen) admissions s
  known : ∀ tag stamp, s.verifier.seen.Holds tag stamp →
    ∃ d ∈ s.log, d.accepted = true ∧ d.tag = tag ∧ d.stamp = stamp
  mark : ∀ mark, s.verifier.seen.forgottenThrough = some mark →
    ∃ d ∈ s.log, d.accepted = true ∧ d.stamp = mark ∧ ¬s.verifier.seen.Holds d.tag mark
  judged : ∀ k d, s.log[k]? = some d → d.accepted = false → Justified config (s.log.take k) d

variable {config} {i : ι} {s s' : VerifierRun ι}

theorem inv_start (last : Nat) : Inv config (⟨⟨.empty, last⟩, [], []⟩ : VerifierRun ι) where
  apart := fun tag h => absurd h (AList.notMem_empty tag)
  once := .nil rfl
  known := by rintro tag stamp (h | h) <;> cases h
  mark := nofun
  judged := nofun

theorem admissions_snoc {d : Decision ι} (hlog : s'.log = s.log ++ [d]) :
    admissions s' = admissions s ++ if d.accepted then [d.admission] else [] := by
  rw [admissions, hlog, List.filter_append, List.map_append]
  congr 1
  cases h : d.accepted <;> simp [h]

theorem mem_admissions {d : Decision ι} (hd : d ∈ s.log) (hok : d.accepted = true) :
    d.admission ∈ admissions s :=
  List.mem_map_of_mem (List.mem_filter.mpr ⟨hd, hok⟩)

theorem justified_snoc {d : Decision ι} (hlog : s'.log = s.log ++ [d])
    (h : ∀ k d, s.log[k]? = some d → d.accepted = false → Justified config (s.log.take k) d)
    (hd : d.accepted = false → Justified config s.log d) :
    ∀ k d, s'.log[k]? = some d → d.accepted = false → Justified config (s'.log.take k) d := by
  intro k e hk
  rw [hlog] at hk ⊢
  have hlt := (List.getElem?_eq_some_iff.mp hk).1
  rw [List.length_append, List.length_singleton] at hlt
  rcases Nat.lt_or_ge k s.log.length with hold | hnew
  · rw [List.getElem?_append_left hold] at hk
    rw [List.take_append_of_le_length (Nat.le_of_lt hold)]
    exact h k e hk
  · obtain rfl : k = s.log.length := by omega
    rw [List.getElem?_concat_length] at hk
    cases hk
    rw [List.take_left]
    exact hd

theorem Inv.known_swept (h : Inv config s) {swept : Remembered}
    (hswept : Swept s.verifier.seen swept) {tag : Tag} {stamp : Int} (hs : swept.Holds tag stamp) :
    ∃ d ∈ s.log, d.accepted = true ∧ d.tag = tag ∧ d.stamp = stamp :=
  h.known tag stamp (hswept.holds tag stamp hs)

theorem Inv.mark_swept (h : Inv config s) {swept : Remembered}
    (hswept : Swept s.verifier.seen swept) {mark : Int}
    (hmark : swept.forgottenThrough = some mark) :
    ∃ d ∈ s.log, d.accepted = true ∧ d.stamp = mark ∧ ¬swept.Holds d.tag mark := by
  rcases hswept.mark mark hmark with hold | ⟨tag, hs, hnot⟩
  · obtain ⟨d, hd, hok, hstamp, hgone⟩ := h.mark mark hold
    exact ⟨d, hd, hok, hstamp, fun hs => hgone (hswept.holds _ _ hs)⟩
  · obtain ⟨d, hd, hok, rfl, hstamp⟩ := h.known tag mark hs
    exact ⟨d, hd, hok, hstamp, hnot⟩

theorem Inv.accept (h : Inv config s) {swept : Remembered}
    (hswept : Swept s.verifier.seen swept) {d : Decision ι} (hok : d.accepted = true)
    (hfree : ¬Barred (d.tag, d.stamp) s.verifier.seen) (hlive : d.tag ∉ swept.live)
    (hahead : d.tag ∉ swept.ahead) (hseen : s'.verifier.seen = swept.add d.tag d.stamp)
    (hlog : s'.log = s.log ++ [d]) : Inv config s' where
  apart := hseen ▸ apart_add hswept.apart hahead
  once := by
    have hkeeps : ∀ key, Barred key s.verifier.seen → Barred key s'.verifier.seen := by
      intro key hkey
      rw [hseen]
      exact (hswept.barred hkey).imp_left fun hs => (holds_add hlive).mpr (.inl hs)
    refine h.once.step ⟨hkeeps, .inr ⟨d.admission, ?_, hfree, ?_⟩⟩
    · rw [admissions_snoc hlog, if_pos hok]
    · show Barred (d.tag, d.stamp) s'.verifier.seen
      rw [hseen]
      exact .inl ((holds_add hlive).mpr (.inr ⟨rfl, rfl⟩))
  known tag stamp hs := by
    rw [hseen] at hs
    rw [hlog]
    rcases (holds_add hlive).mp hs with hs | ⟨rfl, rfl⟩
    · obtain ⟨e, he, hrest⟩ := h.known_swept hswept hs
      exact ⟨e, List.mem_append_left _ he, hrest⟩
    · exact ⟨d, List.mem_append_right _ (List.mem_singleton_self d), hok, rfl, rfl⟩
  mark mark hmark := by
    rw [hseen] at hmark ⊢
    rw [hlog]
    obtain ⟨e, he, hek, hstamp, hgone⟩ := h.mark_swept hswept hmark
    refine ⟨e, List.mem_append_left _ he, hek, hstamp, fun hs => ?_⟩
    -- were it held again, it would be the tag just accepted, which was free
    rcases (holds_add hlive).mp hs with hs | ⟨htag, rfl⟩
    · exact hgone hs
    · have hbarred := h.once.barred _ (mem_admissions he hek)
      have hkey : e.admission.key = (d.tag, d.stamp) := Prod.ext htag hstamp
      rw [hkey] at hbarred
      exact hfree hbarred
  judged := justified_snoc hlog h.judged fun hnot => by rw [hok] at hnot; cases hnot

theorem Inv.refuse (h : Inv config s) {swept : Remembered}
    (hswept : Swept s.verifier.seen swept) {d : Decision ι} (hno : d.accepted = false)
    (hseen : s'.verifier.seen = swept) (hd : d.seen = swept)
    (hwhy : swept.Below d.stamp ∨ (∃ t, swept.Holds d.tag t) ∨
      config.maxRemembered ≤ swept.live.keys.length)
    (hlog : s'.log = s.log ++ [d]) : Inv config s' where
  apart := hseen ▸ hswept.apart
  once := by
    refine h.once.step ⟨fun key hkey => hseen ▸ hswept.barred hkey, .inl ?_⟩
    rw [admissions_snoc hlog, hno]
    exact List.append_nil _
  known tag stamp hs := by
    rw [hseen] at hs
    obtain ⟨e, he, hrest⟩ := h.known_swept hswept hs
    exact ⟨e, hlog ▸ List.mem_append_left _ he, hrest⟩
  mark mark hmark := by
    rw [hseen] at hmark ⊢
    obtain ⟨e, he, hrest⟩ := h.mark_swept hswept hmark
    exact ⟨e, hlog ▸ List.mem_append_left _ he, hrest⟩
  judged := justified_snoc hlog h.judged fun _ => by
    rcases hwhy with ⟨mark, hmark, hle⟩ | ⟨t, hs⟩ | hfull
    · obtain ⟨e, he, hok, rfl, hgone⟩ := h.mark_swept hswept hmark
      exact .inr (.inl ⟨e, he, hok, hd ▸ hgone, hle⟩)
    · obtain ⟨e, he, -, htag, -⟩ := h.known_swept hswept hs
      exact .inl ⟨e, he, htag⟩
    · exact .inr (.inr (hd ▸ hfull))

theorem Inv.step (h : Inv config s) (hg : Guarantee config i s s') : Inv config s' := by
  cases hg with
  | quiet hseen hlog _ =>
    have hadmissions : admissions s' = admissions s := by rw [admissions, hlog, admissions]
    exact
      { apart := hseen ▸ h.apart
        once := h.once.step ⟨fun _ hkey => hseen ▸ hkey, .inl hadmissions⟩
        known := by rw [hseen, hlog]; exact h.known
        mark := by rw [hseen, hlog]; exact h.mark
        judged := by rw [hlog]; exact h.judged }
  | decided now sweepDue lost tag stamp hverifier _ hlog =>
    obtain ⟨swept, hswept, hcases⟩ :=
      VerifierState.remember_cases config now sweepDue lost tag stamp h.apart
    rw [← hverifier] at hcases
    rcases hcases with ⟨hok, hfree, hlive, hahead, hseen⟩ | ⟨⟨e, hno⟩, hseen, hwhy⟩
    · rw [hok] at hlog
      exact h.accept hswept rfl hfree hlive hahead hseen hlog
    · rw [hno] at hlog
      exact h.refuse hswept rfl hseen hseen hwhy hlog

/-! ## One check -/

end Verifying

namespace SignedRequests

structure Sound (config : SignedRequests) (mac : ServiceMac) (secrets : List ServiceSecret)
    (req : SignedRequest) (instant : Instant) (stamp : Int) (tag : Scheme) : Prop where
  header : ∃ tags, (req.signature.bind HeaderValue.toStr).bind parseHeader = some (stamp, tags) ∧
    config.scheme instant tags = some tag
  tolerated : (timestamp instant - stamp).natAbs ≤ config.window
  declared : ∀ length, req.declaredLength = some length → length ≤ config.maxBodyBytes
  sent : req.body.length ≤ config.maxBodyBytes
  signed : ∃ secret ∈ secrets, config.signedWith mac req stamp tag secret = true

theorem Sound.unique {config : SignedRequests} {mac : ServiceMac} {secrets : List ServiceSecret}
    {req : SignedRequest} {instant : Instant} {stamp stamp' : Int} {tag tag' : Scheme}
    (h : config.Sound mac secrets req instant stamp tag)
    (h' : config.Sound mac secrets req instant stamp' tag') : stamp = stamp' ∧ tag = tag' := by
  obtain ⟨tags, hheader, htag⟩ := h.header
  obtain ⟨tags', hheader', htag'⟩ := h'.header
  obtain ⟨rfl, rfl⟩ := Prod.mk.inj (Option.some.inj (hheader.symm.trans hheader'))
  exact ⟨rfl, Option.some.inj (htag.symm.trans htag')⟩

end SignedRequests

namespace Verifying

open SignedRequests

def Read (i : ι) (instant : Instant) (s : VerifierRun ι) : Prop :=
  ∀ t, (i, t) ∈ s.reads ↔ t = instant

def Unread (i : ι) (s : VerifierRun ι) : Prop := ∀ t, (i, t) ∉ s.reads

def Decided (config : SignedRequests) (mac : ServiceMac) (secrets : List ServiceSecret)
    (req : SignedRequest) (i : ι) (accepted : Bool) (s : VerifierRun ι) : Prop :=
  ∃ instant stamp tag, config.Sound mac secrets req instant stamp tag ∧ Read i instant s ∧
    ∃ d ∈ s.log, d.who = i ∧ d.tag = tag.bytes ∧ d.stamp = stamp ∧ d.accepted = accepted

def Ended (config : SignedRequests) (mac : ServiceMac) (secrets : List ServiceSecret)
    (req : SignedRequest) (i : ι) (r : Except Rejection String) (s : VerifierRun ι) : Prop :=
  Decided config mac secrets req i r.isOk s ∨
    r.isOk = false ∧ ∀ instant stamp tag, (i, instant) ∈ s.reads →
      ¬config.Sound mac secrets req instant stamp tag

variable {config : SignedRequests} {i : ι} {s s' : VerifierRun ι}
variable {mac : ServiceMac} {secrets : List ServiceSecret} {req : SignedRequest}

theorem others_keep (h : Pool.others (Guarantee config) i s s') :
    (∀ t, (i, t) ∈ s'.reads ↔ (i, t) ∈ s.reads) ∧ ∀ d ∈ s.log, d ∈ s'.log := by
  obtain ⟨j, hne, hg⟩ := h
  cases hg with
  | quiet _ hlog hreads =>
    refine ⟨fun t => ?_, fun d hd => hlog ▸ hd⟩
    rcases hreads with hreads | ⟨t', hreads⟩
    · rw [hreads]
    · rw [hreads, List.mem_append, List.mem_singleton]
      exact or_iff_left fun heq => hne (Prod.mk.inj heq).1.symm
  | decided _ _ _ _ _ _ hreads hlog =>
    exact ⟨fun t => by rw [hreads], fun d hd => hlog ▸ List.mem_append_left _ hd⟩

theorem unread_stable : Stable (Pool.others (Guarantee config) i) (Unread i) :=
  fun _ _ h hg t ht => h t (((others_keep hg).1 t).mp ht)

theorem read_stable (instant : Instant) :
    Stable (Pool.others (Guarantee config) i) (Read i instant) :=
  fun _ _ h hg t => ((others_keep hg).1 t).trans (h t)

theorem ended_stable (r : Except Rejection String) :
    Stable (Pool.others (Guarantee config) i) (Ended config mac secrets req i r) := by
  intro s s' h hg
  rcases h with ⟨instant, stamp, tag, hsound, hread, d, hd, hrest⟩ | ⟨hno, hall⟩
  · exact .inl ⟨instant, stamp, tag, hsound, read_stable instant hread hg, d,
      (others_keep hg).2 d hd, hrest⟩
  · exact .inr ⟨hno, fun instant stamp tag ht =>
      hall instant stamp tag (((others_keep hg).1 instant).mp ht)⟩

theorem ended_safe {r : Except Rejection String} (h : Ended config mac secrets req i r s) :
    (pure r : Prog VerifierCall VerifierCall.Answer (Except Rejection String)).SafeAmong
      (sem config) (Guarantee config) i (Ended config mac secrets req i) s :=
  Prog.Safe.ret (Ended config mac secrets req i r) (ended_stable r) h fun _ hw => hw

theorem refused_safe {instant : Instant} (hread : Read i instant s) {e : Rejection}
    (h : ∀ stamp tag, ¬config.Sound mac secrets req instant stamp tag) :
    (pure (.error e) : Prog VerifierCall VerifierCall.Answer (Except Rejection String)).Safe
      (sem config i) (Pool.others (Guarantee config) i) (Guarantee config i)
      (Ended config mac secrets req i) s := by
  refine ended_safe (.inr ⟨rfl, fun t stamp tag ht => ?_⟩)
  rw [(hread t).mp ht]
  exact h stamp tag

theorem outcome_isOk (caller : ServiceSecret) (r : Except MemoryRefusal Unit) :
    (caller.outcome r).isOk = r.isOk := by
  rcases r with (_ | _ | _) | _ <;> rfl

theorem remember_safe {instant : Instant} {stamp : Int} {tag : Scheme} {now : Int}
    {sweepDue : Bool} {caller : ServiceSecret}
    (hsound : config.Sound mac secrets req instant stamp tag) (hread : Read i instant s) :
    (Prog.perform (A := VerifierCall.Answer) (.remember now sweepDue tag.bytes stamp) >>=
      fun a => pure (caller.outcome a)).SafeAmong (sem config) (Guarantee config) i
        (Ended config mac secrets req i) s := by
  refine Prog.Safe.perform_bind (Read i instant) (read_stable instant) hread ?_
  rintro w a w' hw ⟨lost, ha, hw'⟩
  have hlog : w'.log = w.log ++ [⟨i, tag.bytes, stamp, a, w'.verifier.seen⟩] := by rw [hw']
  refine ⟨.decided now sweepDue lost tag.bytes stamp ?_ ?_ ?_, ended_safe (.inl ?_)⟩
  · rw [hw']
  · rw [hw']
  · rw [hlog, ha]
  · have hread' : Read i instant w' := by rw [hw']; exact hw
    exact ⟨instant, stamp, tag, hsound, hread', ⟨i, tag.bytes, stamp, a, w'.verifier.seen⟩,
      hlog ▸ List.mem_append_right _ (List.mem_singleton_self _), rfl, rfl, rfl,
      (outcome_isOk caller a).symm⟩

theorem check_safe (hunread : Unread i s) :
    (config.check mac secrets req).SafeAmong (sem config) (Guarantee config) i
      (Ended config mac secrets req i) s := by
  unfold check
  split
  · next hheader =>
    refine ended_safe (.inr ⟨rfl, fun instant stamp tag _ hsound => ?_⟩)
    obtain ⟨tags, hsome, -⟩ := hsound.header
    rw [hheader] at hsome
    cases hsome
  · next stamp tags hheader =>
    refine Prog.Safe.perform_bind (Unread i) unread_stable hunread ?_
    intro w instant w' hw hclock
    change Instant at instant
    have hclock : w' = { w with reads := w.reads ++ [(i, instant)] } := hclock
    have hread : Read i instant w' := by
      intro t
      rw [hclock, List.mem_append, List.mem_singleton, or_iff_right (hw t)]
      exact ⟨fun h => (Prod.mk.inj h).2, fun h => h ▸ rfl⟩
    refine ⟨.quiet (by rw [hclock]) (by rw [hclock]) (.inr ⟨instant, by rw [hclock]⟩), ?_⟩
    -- what the header fixes for a sound reading of it
    have hfixed {stamp' tag} (hsound : config.Sound mac secrets req instant stamp' tag) :
        stamp' = stamp ∧ config.scheme instant tags = some tag := by
      obtain ⟨tags', hheader', htag⟩ := hsound.header
      obtain ⟨rfl, rfl⟩ := Prod.mk.inj (Option.some.inj (hheader.symm.trans hheader'))
      exact ⟨rfl, htag⟩
    simp only
    split
    · next hnone =>
      refine refused_safe hread fun stamp' tag hsound => ?_
      rw [hnone] at hfixed
      cases (hfixed hsound).2
    · next tag htag =>
      split
      · next hfar =>
        refine refused_safe hread fun stamp' _ hsound => ?_
        have htolerated := hsound.tolerated
        rw [(hfixed hsound).1] at htolerated
        exact absurd htolerated (Nat.not_le.mpr hfar)
      · next hnear =>
        split
        · next hdeclared =>
          refine refused_safe hread fun _ _ hsound => ?_
          cases hlength : req.declaredLength with
          | none => rw [hlength] at hdeclared; cases hdeclared
          | some length =>
            rw [hlength] at hdeclared
            exact absurd (hsound.declared length hlength)
              (Nat.not_le.mpr (of_decide_eq_true hdeclared))
        · next hdeclared =>
          split
          · next hsent =>
            exact refused_safe hread fun _ _ hsound =>
              absurd hsound.sent (Nat.not_le.mpr hsent)
          · next hsent =>
            split
            · next hnone =>
              refine refused_safe hread fun stamp' tag' hsound => ?_
              obtain ⟨rfl, htag'⟩ := hfixed hsound
              obtain rfl := Option.some.inj (htag.symm.trans htag')
              obtain ⟨secret, hmem, hsigned⟩ := hsound.signed
              exact List.find?_eq_none.mp hnone secret hmem hsigned
            · next caller hcaller =>
              have hsound : config.Sound mac secrets req instant stamp tag :=
                { header := ⟨tags, hheader, htag⟩
                  tolerated := Nat.not_lt.mp hnear
                  declared := fun length hlength => by
                    rw [hlength] at hdeclared
                    exact Nat.not_lt.mp fun hlt => hdeclared (decide_eq_true hlt)
                  sent := Nat.not_lt.mp hsent
                  signed := ⟨caller, List.mem_of_find?_eq_some hcaller,
                    List.find?_some hcaller⟩ }
              refine Prog.Safe.perform_bind (Read i instant) (read_stable instant) hread ?_
              intro v sweepDue v' hv hclaim
              obtain ⟨hseen, hlog, hreads⟩ : v'.verifier.seen = v.verifier.seen ∧
                  v'.log = v.log ∧ v'.reads = v.reads := by
                rcases hclaim with ⟨-, rfl⟩ | ⟨-, rfl⟩ <;> exact ⟨rfl, rfl, rfl⟩
              refine ⟨.quiet hseen hlog (.inl hreads), ?_⟩
              have hread' : Read i instant v' := by
                intro t
                rw [hreads]
                exact hv t
              exact remember_safe hsound hread'

def start : VerifierRun ι := ⟨⟨.empty, 0⟩, [], []⟩

section Run

variable [DecidableEq ι] {secrets : ι → List ServiceSecret} {req : ι → SignedRequest}
variable {pool : Pool ι VerifierCall VerifierCall.Answer (Except Rejection String) (VerifierRun ι)}

omit [DecidableEq ι] in
theorem all_safe (mac : ServiceMac) (secrets : ι → List ServiceSecret) (req : ι → SignedRequest) :
    Pool.AllSafe (sem config) (Guarantee config)
    (fun i => Ended config mac (secrets i) (req i) i)
    ⟨fun i => config.check mac (secrets i) (req i), start⟩ :=
  fun _ => check_safe fun _ => List.not_mem_nil

theorem inv_of_reaches
    (hrun : Pool.Reaches (sem config) ⟨fun i => config.check mac (secrets i) (req i), start⟩ pool) :
    Inv config pool.state :=
  hrun.invariant (all_safe mac secrets req) (fun _ _ _ hg h => h.step hg)
    (inv_start 0)

theorem decided_of_accepted
    (hrun : Pool.Reaches (sem config) ⟨fun i => config.check mac (secrets i) (req i), start⟩ pool)
    {name : String} (hret : pool.prog i = .ret (.ok name)) :
    Decided config mac (secrets i) (req i) i true pool.state := by
  rcases hrun.post (all_safe mac secrets req) hret with h | ⟨hno, -⟩
  · exact h
  · cases hno

theorem accepted_once
    (hrun : Pool.Reaches (sem config) ⟨fun i => config.check mac (secrets i) (req i), start⟩ pool)
    {d d' : Decision ι} (hd : d ∈ pool.state.log) (hd' : d' ∈ pool.state.log)
    (hok : d.accepted = true) (hok' : d'.accepted = true) (htag : d.tag = d'.tag)
    (hstamp : d.stamp = d'.stamp) : d.who = d'.who :=
  congrArg Admission.who ((inv_of_reaches hrun).once.eq (mem_admissions hd hok)
    (mem_admissions hd' hok') (Prod.ext htag hstamp))

end Run

def answering (config : SignedRequests) :
    Pool.Answerer ι Instant VerifierCall VerifierCall.Answer (VerifierRun ι)
  | i, t, .clock, s => (t, { s with reads := s.reads ++ [(i, t)] })
  | _, _, .claimSweep now interval, s => ((claimSweep now interval s.verifier.lastSweep).1,
      { s with verifier := { s.verifier with
        lastSweep := (claimSweep now interval s.verifier.lastSweep).2 } })
  | i, _, .remember now sweepDue tag stamp, s =>
    let r := s.verifier.remember config now sweepDue false tag stamp
    (r.1, { s with verifier := r.2, log := s.log ++ [⟨i, tag, stamp, r.1, r.2.seen⟩] })

theorem sem_answering (config : SignedRequests) (i : ι) (t : Instant) (e : VerifierCall)
    (s : VerifierRun ι) : sem config i e s (answering config i t e s).1
      (answering config i t e s).2 := by
  cases e with
  | clock => rfl
  | claimSweep now interval => exact .inl ⟨rfl, rfl⟩
  | remember now sweepDue tag stamp => exact ⟨false, rfl, rfl⟩

end Verifying

/-! ## One tag, one acceptance -/

namespace SignedRequest

def stamp (req : SignedRequest) : Option Int :=
  ((req.signature.bind HeaderValue.toStr).bind parseHeader).map (·.1)

def v3 (req : SignedRequest) : Option Tag :=
  ((req.signature.bind HeaderValue.toStr).bind parseHeader).bind (·.2.v3)

end SignedRequest

/-- The route names an audience and has no window for an older scheme. -/
structure SignedRequests.ReadsOnlyV3 (config : SignedRequests) (audience : String) : Prop where
  audience : config.audience = some audience
  unaddressed : config.unaddressedUntil = none
  v2 : config.v2Until = none

namespace SignedRequests

variable {config : SignedRequests} {audience : String} {mac : ServiceMac}
  {secrets : List ServiceSecret} {req : SignedRequest} {instant : Instant} {signedAt : Int}
  {tag : Scheme}

theorem scheme_of_readsOnlyV3 (hroute : config.ReadsOnlyV3 audience) (tags : Tags) :
    config.scheme instant tags = tags.v3.map .v3 := by
  unfold scheme
  rw [hroute.audience, hroute.unaddressed, hroute.v2]
  cases tags.v3 <;> rfl

theorem Sound.v3 (hroute : config.ReadsOnlyV3 audience)
    (h : config.Sound mac secrets req instant signedAt tag) :
    req.stamp = some signedAt ∧ req.v3 = some tag.bytes ∧
      ∃ secret ∈ secrets, mac.signBytesV3 secret.signingKey signedAt req audience = tag.bytes := by
  obtain ⟨tags, hheader, htag⟩ := h.header
  obtain ⟨secret, hmem, hsigned⟩ := h.signed
  rw [scheme_of_readsOnlyV3 hroute, Option.map_eq_some_iff] at htag
  obtain ⟨bytes, hbytes, rfl⟩ := htag
  refine ⟨?_, ?_, secret, hmem, ?_⟩
  · rw [SignedRequest.stamp, hheader]
    rfl
  · rw [SignedRequest.v3, hheader]
    exact hbytes
  · unfold signedWith at hsigned
    rw [hroute.audience] at hsigned
    exact eq_of_beq hsigned

end SignedRequests

/-- The route reads only the newest scheme, and no two of the requests share a tag under different
stamps. Whatever the clock reads and however the checks interleave, a tag is accepted once; and a
refused request that is sound was presented before, or its stamp is at or below one that was
accepted and forgotten, or as many tags as may be are held. -/
theorem tag_accepted_once_whatever_clock [DecidableEq ι] {config : SignedRequests}
    {audience : String} (hroute : config.ReadsOnlyV3 audience) {mac : ServiceMac}
    {secrets : ι → List ServiceSecret} {req : ι → SignedRequest}
    (hmac : ∀ i j, ∀ secret ∈ secrets i, ∀ secret' ∈ secrets j, ∀ stamp stamp',
      (req i).stamp = some stamp → (req j).stamp = some stamp' →
      mac.signBytesV3 secret.signingKey stamp (req i) audience =
        mac.signBytesV3 secret'.signingKey stamp' (req j) audience → stamp = stamp')
    {pool : Pool ι VerifierCall VerifierCall.Answer (Except Rejection String) (VerifierRun ι)}
    (hrun : Pool.Reaches (Verifying.sem config)
      ⟨fun i => config.check mac (secrets i) (req i), Verifying.start⟩ pool) :
    (∀ i j name name', pool.prog i = .ret (.ok name) → pool.prog j = .ret (.ok name') →
      (req i).v3 = (req j).v3 → i = j) ∧
    ∀ i e instant stamp tag, pool.prog i = .ret (.error e) → (i, instant) ∈ pool.state.reads →
      config.Sound mac (secrets i) (req i) instant stamp (.v3 tag) →
      ∃ k d, pool.state.log[k]? = some d ∧ d.who = i ∧ d.tag = tag ∧ d.stamp = stamp ∧
        ((∃ d' ∈ pool.state.log.take k, d'.tag = tag) ∨
          (∃ d' ∈ pool.state.log.take k, d'.accepted = true ∧
            ¬d.seen.Holds d'.tag d'.stamp ∧ stamp ≤ d'.stamp) ∨
          config.maxRemembered ≤ d.seen.live.keys.length) := by
  refine ⟨fun i j name name' hi hj htag => ?_, fun i e instant stamp tag hret ht hsound => ?_⟩
  · obtain ⟨t, stamp, sch, hsound, -, d, hd, rfl, hdtag, hdstamp, hok⟩ :=
      Verifying.decided_of_accepted hrun hi
    obtain ⟨t', stamp', sch', hsound', -, d', hd', rfl, hdtag', hdstamp', hok'⟩ :=
      Verifying.decided_of_accepted hrun hj
    obtain ⟨hstamp, hv3, secret, hmem, hsigned⟩ := hsound.v3 hroute
    obtain ⟨hstamp', hv3', secret', hmem', hsigned'⟩ := hsound'.v3 hroute
    have hbytes : sch.bytes = sch'.bytes := Option.some.inj (hv3.symm.trans (htag.trans hv3'))
    have hsame : stamp = stamp' := hmac _ _ secret hmem secret' hmem' stamp stamp' hstamp hstamp'
      (hsigned.trans (hbytes.trans hsigned'.symm))
    exact Verifying.accepted_once hrun hd hd' hok hok' (hdtag.trans (hbytes.trans hdtag'.symm))
      (hdstamp.trans (hsame.trans hdstamp'.symm))
  · rcases hrun.post (Verifying.all_safe mac secrets req) hret with hdecided | ⟨-, hnot⟩
    · obtain ⟨t, stamp', sch, hsound', hread, d, hd, hwho, htag, hstamp, hno⟩ := hdecided
      obtain rfl := (hread instant).mp ht
      obtain ⟨rfl, rfl⟩ := hsound.unique hsound'
      obtain ⟨k, hk⟩ := List.getElem?_of_mem hd
      have hwhy := (Verifying.inv_of_reaches hrun).judged k d hk hno
      rw [Verifying.Justified, htag, hstamp] at hwhy
      exact ⟨k, d, hk, hwho, htag, hstamp, hwhy⟩
    · exact absurd hsound (hnot instant stamp _ ht)

namespace SignedTwice

def mac : ServiceMac := ⟨fun _ _ _ => Vector.replicate 32 7, id⟩

def secret : ServiceSecret := ⟨"billing", Vector.replicate 32 1⟩

def config : SignedRequests := ⟨300, 1024, 1, some "ledger", none, none⟩

def unsigned : SignedRequest := ⟨"POST", "/post", [], [], none, [], none⟩

def request : SignedRequest :=
  { unsigned with signature := some ((mac.signFor secret.signingKey "ledger" 1000 unsigned).map
      fun c => UInt8.ofNat c.toNat) }

def run : Pool (Fin 2) VerifierCall VerifierCall.Answer (Except Rejection String)
    (VerifierRun (Fin 2)) :=
  Pool.replay (Verifying.answering config)
    (Pool.turns [(1, 0, 1100000000000), (1, 1, 900000000000), (1, 1, 0), (2, 0, 0), (1, 1, 0)])
    ⟨fun _ => config.check mac [secret] request, Verifying.start⟩

theorem reaches_run : Pool.Reaches (Verifying.sem config)
    ⟨fun _ => config.check mac [secret] request, Verifying.start⟩ run :=
  Pool.reaches_replay (Verifying.sem_answering config) _ _

theorem readsOnlyV3 : config.ReadsOnlyV3 "ledger" := ⟨rfl, rfl, rfl⟩

theorem sound :
    config.Sound mac [secret] request 900000000000 1000 (.v3 (Vector.replicate 32 7)) where
  header := ⟨⟨none, some (Vector.replicate 32 7), some (Vector.replicate 32 7)⟩,
    by decide +kernel, rfl⟩
  tolerated := by decide
  declared := nofun
  sent := by decide
  signed := ⟨secret, List.mem_singleton_self secret, by decide +kernel⟩

end SignedTwice

open SignedTwice

theorem tag_accepted_once_twice_presented :
    run.prog 0 = .ret (.ok "billing") ∧
    (∀ j name, run.prog j = .ret (.ok name) → j = 0) ∧
    ∃ k d, run.state.log[k]? = some d ∧ d.who = 1 ∧
      ((∃ d' ∈ run.state.log.take k, d'.tag = Vector.replicate 32 7) ∨
        (∃ d' ∈ run.state.log.take k, d'.accepted = true ∧
          ¬d.seen.Holds d'.tag d'.stamp ∧ 1000 ≤ d'.stamp) ∨
        config.maxRemembered ≤ d.seen.live.keys.length) := by
  have haccepted : run.prog 0 = .ret (.ok "billing") :=
    Prog.eq_ret_of_returned (by decide +kernel)
  have hrefused : run.prog 1 = .ret (.error (.replay "billing")) :=
    Prog.eq_ret_of_returned (by decide +kernel)
  have hmac (stamp stamp' : Int) (hstamp : request.stamp = some stamp)
      (hstamp' : request.stamp = some stamp') : stamp = stamp' :=
    Option.some.inj (hstamp.symm.trans hstamp')
  obtain ⟨honce, hwhy⟩ := tag_accepted_once_whatever_clock readsOnlyV3
    (fun _ _ _ _ _ _ stamp stamp' hstamp hstamp' _ => hmac stamp stamp' hstamp hstamp')
    reaches_run
  obtain ⟨k, d, hk, hwho, -, -, hcases⟩ := hwhy 1 _ 900000000000 1000 _ hrefused
    (by decide +kernel) sound
  exact ⟨haccepted, fun j name hj => honce j 0 name "billing" hj haccepted rfl, k, d, hk, hwho,
    hcases⟩

end Axess
