import Axess.Service.Signature

/-!
# What the memory of accepted tags keeps

A sweep moves an entry between the live and the set-aside map, or forgets it and raises the mark to
its stamp. So an accepted tag is held, or its stamp is at or below the mark, whatever the clock does.
-/

namespace Axess

theorem TagMap.lookup_retain {m : TagMap} {keep : Int → Bool} {tag : Tag} {stamp : Int} :
    (TagMap.retain m keep).lookup tag = some stamp ↔
      m.lookup tag = some stamp ∧ keep stamp = true := by
  rw [← Option.mem_def, AList.mem_lookup_iff, ← Option.mem_def, AList.mem_lookup_iff]
  exact List.mem_filter

theorem TagMap.mem_iff_lookup {m : TagMap} {tag : Tag} :
    tag ∈ m ↔ ∃ stamp, m.lookup tag = some stamp := by
  rw [← AList.lookup_isSome, Option.isSome_iff_exists]

namespace Remembered

variable {seen : Remembered} {now : Int} {window : Nat} {tag : Tag} {stamp : Int}

def Holds (seen : Remembered) (tag : Tag) (stamp : Int) : Prop :=
  seen.live.lookup tag = some stamp ∨ seen.ahead.lookup tag = some stamp

def Apart (seen : Remembered) : Prop := ∀ tag, tag ∈ seen.live → tag ∉ seen.ahead

def Below (seen : Remembered) (stamp : Int) : Prop :=
  ∃ mark, seen.forgottenThrough = some mark ∧ stamp ≤ mark

theorem foldl_raise_cases {l : List Int} {mark : Option Int} {m : Int}
    (h : l.foldl raise mark = some m) : mark = some m ∨ m ∈ l := by
  induction l generalizing mark with
  | nil => exact .inl h
  | cons x l ih =>
    rcases ih h with hraise | hin
    · have hx : mark.elim x (fun m => max m x) = m := Option.some.inj hraise
      cases mark with
      | none => exact .inr (List.mem_cons.mpr (.inl hx.symm))
      | some m₀ =>
        rcases max_choice m₀ x with hmax | hmax
        · exact .inl (congrArg some (hmax.symm.trans hx))
        · exact .inr (List.mem_cons.mpr (.inl (hx.symm.trans hmax)))
    · exact .inr (List.mem_cons_of_mem x hin)

theorem le_raise {mark : Option Int} {x : Int} (stamp : Int)
    (h : x = stamp ∨ ∃ m, mark = some m ∧ stamp ≤ m) : ∃ m, raise mark x = some m ∧ stamp ≤ m := by
  refine ⟨_, rfl, ?_⟩
  rcases h with rfl | ⟨m, rfl, hle⟩
  · cases mark with
    | none => exact le_rfl
    | some m => exact le_max_right m x
  · exact le_trans hle (le_max_left m x)

theorem le_foldl_raise {l : List Int} {mark : Option Int}
    (h : stamp ∈ l ∨ ∃ m, mark = some m ∧ stamp ≤ m) :
    ∃ m, l.foldl raise mark = some m ∧ stamp ≤ m := by
  induction l generalizing mark with
  | nil => exact h.resolve_left List.not_mem_nil
  | cons x l ih =>
    refine ih ?_
    rcases h with hin | hle
    · rcases List.mem_cons.mp hin with rfl | hin
      · exact .inr (le_raise stamp (.inl rfl))
      · exact .inl hin
    · exact .inr (le_raise stamp (.inr hle))

theorem lookup_back_union (h : seen.Apart) :
    (seen.back now window ∪ seen.live).lookup tag = some stamp ↔
      seen.live.lookup tag = some stamp ∨
        seen.ahead.lookup tag = some stamp ∧ aged now window stamp = false ∧
          early now window stamp = false := by
  have hback : (seen.back now window).lookup tag = some stamp ↔
      seen.ahead.lookup tag = some stamp ∧ aged now window stamp = false ∧
        early now window stamp = false := by
    rw [back, TagMap.lookup_retain]
    simp
  rw [AList.lookup_union_eq_some, hback]
  constructor
  · rintro (hin | ⟨-, hlive⟩)
    · exact .inr hin
    · exact .inl hlive
  · rintro (hlive | hin)
    · refine .inr ⟨fun hmem => ?_, hlive⟩
      obtain ⟨s, hs⟩ := TagMap.mem_iff_lookup.mp hmem
      exact h tag (TagMap.mem_iff_lookup.mpr ⟨stamp, hlive⟩)
        (TagMap.mem_iff_lookup.mpr ⟨s, (TagMap.lookup_retain.mp hs).1⟩)
    · exact .inl hin

theorem lookup_live_sweep :
    (seen.sweep now window).live.lookup tag = some stamp ↔
      (seen.back now window ∪ seen.live).lookup tag = some stamp ∧
        aged now window stamp = false ∧ early now window stamp = false := by
  rw [sweep, TagMap.lookup_retain]
  simp

theorem lookup_ahead_sweep (h : seen.Apart) :
    (seen.sweep now window).ahead.lookup tag = some stamp ↔
      seen.Holds tag stamp ∧ aged now window stamp = false ∧ early now window stamp = true := by
  have hset {stamp : Int} : (TagMap.retain (seen.back now window ∪ seen.live) fun s =>
      !aged now window s && early now window s).lookup tag = some stamp ↔
      seen.live.lookup tag = some stamp ∧ aged now window stamp = false ∧
        early now window stamp = true := by
    rw [TagMap.lookup_retain, lookup_back_union h, Bool.and_eq_true, Bool.not_eq_true']
    constructor
    · rintro ⟨hlive | ⟨-, -, hnot⟩, haged, hearly⟩
      · exact ⟨hlive, haged, hearly⟩
      · rw [hnot] at hearly
        cases hearly
    · rintro ⟨hlive, hrest⟩
      exact ⟨.inl hlive, hrest⟩
  have hkept : (TagMap.retain seen.ahead fun s =>
      !aged now window s && early now window s).lookup tag = some stamp ↔
      seen.ahead.lookup tag = some stamp ∧ aged now window stamp = false ∧
        early now window stamp = true := by
    rw [TagMap.lookup_retain, Bool.and_eq_true, Bool.not_eq_true']
  rw [sweep, AList.lookup_union_eq_some, hset, hkept]
  constructor
  · rintro (⟨hlive, hrest⟩ | ⟨-, hahead, hrest⟩)
    · exact ⟨.inl hlive, hrest⟩
    · exact ⟨.inr hahead, hrest⟩
  · rintro ⟨hlive | hahead, hrest⟩
    · exact .inl ⟨hlive, hrest⟩
    · refine .inr ⟨fun hmem => ?_, hahead, hrest⟩
      obtain ⟨s, hs⟩ := TagMap.mem_iff_lookup.mp hmem
      exact h tag (TagMap.mem_iff_lookup.mpr ⟨s, (hset.mp hs).1⟩)
        (TagMap.mem_iff_lookup.mpr ⟨stamp, hahead⟩)

theorem holds_sweep (h : seen.Apart) :
    (seen.sweep now window).Holds tag stamp ↔
      seen.Holds tag stamp ∧ aged now window stamp = false := by
  unfold Holds
  rw [lookup_live_sweep, lookup_ahead_sweep h, lookup_back_union h]
  constructor
  · rintro (⟨hlive | ⟨hahead, -⟩, haged, -⟩ | ⟨hheld, haged, -⟩)
    · exact ⟨.inl hlive, haged⟩
    · exact ⟨.inr hahead, haged⟩
    · exact ⟨hheld, haged⟩
  · rintro ⟨hheld, haged⟩
    cases hearly : early now window stamp with
    | true => exact .inr ⟨hheld, haged, rfl⟩
    | false =>
      refine .inl ⟨?_, haged, rfl⟩
      rcases hheld with hlive | hahead
      · exact .inl hlive
      · exact .inr ⟨hahead, haged, rfl⟩

theorem apart_sweep (h : seen.Apart) : (seen.sweep now window).Apart := by
  intro tag hlive hahead
  obtain ⟨s, hs⟩ := TagMap.mem_iff_lookup.mp hlive
  obtain ⟨s', hs'⟩ := TagMap.mem_iff_lookup.mp hahead
  obtain ⟨hunion, -, hnot⟩ := lookup_live_sweep.mp hs
  obtain ⟨hheld, -, hearly⟩ := (lookup_ahead_sweep h).mp hs'
  -- the two entries are one, and it is not both ahead of the window and within it
  have hsame : s = s' := by
    rcases (lookup_back_union h).mp hunion with hl | ⟨ha, -⟩ <;> rcases hheld with hl' | ha'
    · exact Option.some.inj (hl.symm.trans hl')
    · exact absurd (TagMap.mem_iff_lookup.mpr ⟨s', ha'⟩)
        (h tag (TagMap.mem_iff_lookup.mpr ⟨s, hl⟩))
    · exact absurd (TagMap.mem_iff_lookup.mpr ⟨s, ha⟩)
        (h tag (TagMap.mem_iff_lookup.mpr ⟨s', hl'⟩))
    · exact Option.some.inj (ha.symm.trans ha')
  rw [← hsame, hnot] at hearly
  cases hearly

theorem mem_forgets (h : seen.Apart) :
    stamp ∈ seen.forgets now window ↔
      ∃ tag, seen.Holds tag stamp ∧ aged now window stamp = true := by
  have hentry (m : TagMap) (tag : Tag) : (⟨tag, stamp⟩ : Sigma fun _ : Tag => Int) ∈ m.entries ↔
      m.lookup tag = some stamp := by
    rw [← AList.mem_lookup_iff, Option.mem_def]
  rw [forgets, List.mem_map]
  constructor
  · rintro ⟨⟨tag, s⟩, hmem, rfl⟩
    obtain ⟨hmem, haged⟩ := List.mem_filter.mp hmem
    refine ⟨tag, ?_, haged⟩
    rcases List.mem_append.mp hmem with hahead | hunion
    · exact .inr ((hentry _ _).mp hahead)
    · rcases (lookup_back_union h).mp ((hentry _ _).mp hunion) with hlive | ⟨hahead, -⟩
      · exact .inl hlive
      · exact .inr hahead
  · rintro ⟨tag, hheld, haged⟩
    refine ⟨⟨tag, stamp⟩, List.mem_filter.mpr ⟨List.mem_append.mpr ?_, haged⟩, rfl⟩
    rcases hheld with hlive | hahead
    · exact .inr ((hentry _ _).mpr ((lookup_back_union h).mpr (.inl hlive)))
    · exact .inl ((hentry _ _).mpr hahead)

theorem mark_sweep (h : seen.Apart) {mark : Int}
    (hmark : (seen.sweep now window).forgottenThrough = some mark) :
    seen.forgottenThrough = some mark ∨
      ∃ tag, seen.Holds tag mark ∧ aged now window mark = true :=
  (foldl_raise_cases hmark).imp_right (mem_forgets h).mp

theorem below_sweep (h : seen.Apart)
    (hbelow : seen.Below stamp ∨ ∃ tag, seen.Holds tag stamp ∧ aged now window stamp = true) :
    (seen.sweep now window).Below stamp :=
  le_foldl_raise (hbelow.symm.imp_left (mem_forgets h).mpr)

/-- What any number of sweeps make of the memory. -/
structure Swept (seen seen' : Remembered) : Prop where
  apart : seen'.Apart
  holds : ∀ tag stamp, seen'.Holds tag stamp → seen.Holds tag stamp
  kept : ∀ tag stamp, seen.Holds tag stamp → seen'.Holds tag stamp ∨ seen'.Below stamp
  below : ∀ stamp, seen.Below stamp → seen'.Below stamp
  mark : ∀ mark, seen'.forgottenThrough = some mark → seen.forgottenThrough = some mark ∨
    ∃ tag, seen.Holds tag mark ∧ ¬seen'.Holds tag mark

theorem Swept.refl (h : seen.Apart) : Swept seen seen :=
  ⟨h, fun _ _ hs => hs, fun _ _ hs => .inl hs, fun _ hs => hs, fun _ hm => .inl hm⟩

theorem swept_sweep (h : seen.Apart) (now : Int) (window : Nat) :
    Swept seen (seen.sweep now window) where
  apart := apart_sweep h
  holds _ _ hs := ((holds_sweep h).mp hs).1
  kept tag stamp hs := by
    cases haged : aged now window stamp with
    | false => exact .inl ((holds_sweep h).mpr ⟨hs, haged⟩)
    | true => exact .inr (below_sweep h (.inr ⟨tag, hs, haged⟩))
  below _ hb := below_sweep h (.inl hb)
  mark m hm := by
    refine (mark_sweep h hm).imp_right ?_
    rintro ⟨tag, hs, haged⟩
    refine ⟨tag, hs, fun hs' => ?_⟩
    have hnot := ((holds_sweep h).mp hs').2
    rw [haged] at hnot
    cases hnot

theorem Swept.trans {a b c : Remembered} (h : Swept a b) (h' : Swept b c) : Swept a c where
  apart := h'.apart
  holds tag stamp hs := h.holds tag stamp (h'.holds tag stamp hs)
  kept tag stamp hs := by
    rcases h.kept tag stamp hs with hb | hb
    · exact h'.kept tag stamp hb
    · exact .inr (h'.below stamp hb)
  below stamp hb := h'.below stamp (h.below stamp hb)
  mark m hm := by
    rcases h'.mark m hm with hb | ⟨tag, hs, hnot⟩
    · exact (h.mark m hb).imp_right fun ⟨tag, hs, hnot⟩ =>
        ⟨tag, hs, fun hc => hnot (h'.holds tag m hc)⟩
    · exact .inr ⟨tag, h.holds tag m hs, hnot⟩

def Barred (key : Tag × Int) (seen : Remembered) : Prop :=
  seen.Holds key.1 key.2 ∨ seen.Below key.2

theorem Swept.barred {seen' : Remembered} (h : Swept seen seen') {key : Tag × Int}
    (hkey : Barred key seen) : Barred key seen' := by
  rcases hkey with hs | hb
  · exact h.kept _ _ hs
  · exact .inr (h.below _ hb)

def add (seen : Remembered) (tag : Tag) (stamp : Int) : Remembered :=
  { seen with live := seen.live.insert tag stamp }

theorem holds_add (hlive : tag ∉ seen.live) {tag' : Tag} {stamp' : Int} :
    (seen.add tag stamp).Holds tag' stamp' ↔
      seen.Holds tag' stamp' ∨ tag' = tag ∧ stamp' = stamp := by
  unfold Holds add
  by_cases htag : tag' = tag
  · subst htag
    have hnone : seen.live.lookup tag' = none := AList.lookup_eq_none.mpr hlive
    simp only [AList.lookup_insert, Option.some.injEq, hnone, reduceCtorEq, false_or, true_and]
    constructor
    · rintro (rfl | hahead)
      · exact .inr rfl
      · exact .inl hahead
    · rintro (hahead | rfl)
      · exact .inr hahead
      · exact .inl rfl
  · simp only [AList.lookup_insert_ne htag, htag, false_and, or_false]

theorem apart_add (h : seen.Apart) (hahead : tag ∉ seen.ahead) : (seen.add tag stamp).Apart := by
  intro tag' hlive
  rcases (AList.mem_insert seen.live).mp hlive with rfl | hlive
  · exact hahead
  · exact h tag' hlive

end Remembered

namespace VerifierState

open Remembered

variable {config : SignedRequests} {now : Int} {s : VerifierState}

theorem swept_makeRoom (h : s.seen.Apart) (lost : Bool) :
    Swept s.seen (s.makeRoom config now lost).seen := by
  unfold makeRoom
  split
  · simp only
    split
    · exact swept_sweep h now config.window
    · exact .refl h
  · exact .refl h

/-- The memory is swept; then a tag that is neither held nor below the mark is added if there is
room. -/
theorem remember_cases (config : SignedRequests) (now : Int) (sweepDue lost : Bool) (tag : Tag)
    (stamp : Int) (h : s.seen.Apart) :
    ∃ swept, Swept s.seen swept ∧
      ((s.remember config now sweepDue lost tag stamp).1 = .ok () ∧
          ¬Barred (tag, stamp) s.seen ∧ tag ∉ swept.live ∧ tag ∉ swept.ahead ∧
          (s.remember config now sweepDue lost tag stamp).2.seen = swept.add tag stamp ∨
        (∃ e, (s.remember config now sweepDue lost tag stamp).1 = .error e) ∧
          (s.remember config now sweepDue lost tag stamp).2.seen = swept ∧
          (swept.Below stamp ∨ (∃ t, swept.Holds tag t) ∨
            config.maxRemembered ≤ swept.live.keys.length)) := by
  let s₁ : VerifierState :=
    if sweepDue then { s with seen := s.seen.sweep now config.window } else s
  have hfirst : Swept s.seen s₁.seen := by
    cases sweepDue with
    | true => exact swept_sweep h now config.window
    | false => exact .refl h
  have hroom : Swept s₁.seen (s₁.makeRoom config now lost).seen := swept_makeRoom hfirst.apart lost
  have hremember : s.remember config now sweepDue lost tag stamp =
      if s₁.seen.forgottenThrough.any (stamp ≤ ·) then (.error .staleStamp, s₁)
      else if tag ∈ s₁.seen.live ∨ tag ∈ s₁.seen.ahead then (.error .replay, s₁)
      else if config.maxRemembered ≤ (s₁.makeRoom config now lost).seen.live.keys.length then
        (.error .cacheFull, s₁.makeRoom config now lost)
      else (.ok (), { s₁.makeRoom config now lost with
        seen := (s₁.makeRoom config now lost).seen.add tag stamp }) := rfl
  rw [hremember]
  split
  · next hbelow =>
    refine ⟨s₁.seen, hfirst, .inr ⟨⟨_, rfl⟩, rfl, .inl ?_⟩⟩
    cases hmark : s₁.seen.forgottenThrough with
    | none => rw [hmark] at hbelow; cases hbelow
    | some mark =>
      rw [hmark] at hbelow
      exact ⟨mark, hmark, of_decide_eq_true hbelow⟩
  · next hbelow =>
    split
    · next hheld =>
      refine ⟨s₁.seen, hfirst, .inr ⟨⟨_, rfl⟩, rfl, .inr (.inl ?_)⟩⟩
      rcases hheld with hlive | hahead
      · exact (TagMap.mem_iff_lookup.mp hlive).imp fun _ ht => .inl ht
      · exact (TagMap.mem_iff_lookup.mp hahead).imp fun _ ht => .inr ht
    · next hheld =>
      split
      · next hfull => exact ⟨_, hfirst.trans hroom, .inr ⟨⟨_, rfl⟩, rfl, .inr (.inr hfull)⟩⟩
      · have hnotHeld (t : Int) : ¬s₁.seen.Holds tag t := by
          rintro (hlive | hahead)
          · exact hheld (.inl (TagMap.mem_iff_lookup.mpr ⟨t, hlive⟩))
          · exact hheld (.inr (TagMap.mem_iff_lookup.mpr ⟨t, hahead⟩))
        refine ⟨_, hfirst.trans hroom, .inl ⟨rfl, fun hbarred => ?_, ?_, ?_, rfl⟩⟩
        · rcases hfirst.barred hbarred with hs | ⟨mark, hmark, hle⟩
          · exact hnotHeld stamp hs
          · exact hbelow (by rw [hmark]; exact decide_eq_true hle)
        · intro hlive
          obtain ⟨t, ht⟩ := TagMap.mem_iff_lookup.mp hlive
          exact hnotHeld t (hroom.holds tag t (.inl ht))
        · intro hahead
          obtain ⟨t, ht⟩ := TagMap.mem_iff_lookup.mp hahead
          exact hnotHeld t (hroom.holds tag t (.inr ht))

end VerifierState

end Axess
