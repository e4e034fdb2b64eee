import Axess.Maps.Expiring
import Axess.Authn.Throttle
import Axess.Service.Signature

/-!
# The password reset cooldown

`already_asked` (`authn/service/reset_cooldown.rs`) keeps a map of the cooldowns and a queue of their ends,
and trusts the queue's order: it pops what is due off the front only. The clock never goes back and all
cooldowns have one length, so the queue is what was let through and has not run out, in order.
-/

namespace Axess

/-- The code's strings: no allocation is longer than an `isize` counts. -/
abbrev RustString := { text : String // text.utf8ByteSize < 2 ^ 63 }

structure KeyFns where
  sha256 : List UInt8 → Tag
  normaliseIdentifier : String → Option RustString

structure ResetRequest where
  tenantIdentifier : String
  identifier : String
  now : UtcTime

structure ResetCooldowns where
  capacity : Nat
  cooldown : Int
  pos : 0 < capacity
  nonneg : 0 ≤ cooldown

structure Cooling where
  runsUntil : AList fun _ : Tag => Instant
  ending : List (Instant × Tag)
  alarmed : Option Instant

namespace ResetCooldowns

def new (capacity : Nat) (cooldown : Duration) : ResetCooldowns where
  capacity := max capacity 1
  cooldown := (fromStd cooldown).getD maxChronoDuration
  pos := Nat.le_max_right capacity 1
  nonneg := by unfold fromStd; split <;> exact Int.natCast_nonneg _

/-- What a part adds to the digest: its length in eight bytes, then its bytes. -/
def hashed (part : RustString) : List UInt8 :=
  Bytes.toBytes 8 part.val.utf8ByteSize ++ part.val.toByteArray.data.toList

variable (fns : KeyFns)

def parts (request : ResetRequest) : RustString × RustString :=
  ((fns.normaliseIdentifier request.tenantIdentifier).getD ⟨"", by decide⟩,
    (fns.normaliseIdentifier request.identifier).getD ⟨"", by decide⟩)

def digested (request : ResetRequest) : List UInt8 :=
  hashed (parts fns request).1 ++ hashed (parts fns request).2

def key (request : ResetRequest) : Tag := fns.sha256 (digested fns request)

def endOf (cooldowns : ResetCooldowns) (now : UtcTime) : Instant :=
  (checkedAddSigned now.ns cooldowns.cooldown).getD maxUtc

def alreadyAsked (cooldowns : ResetCooldowns) (cooling : Cooling) (request : ResetRequest) :
    Bool × Cooling :=
  let key := key fns request
  let now := request.now
  let (runsUntil, ending) :=
    Maps.popDue (fun runsUntil => decide (runsUntil ≤ now.ns)) cooling.runsUntil cooling.ending
  if key ∈ runsUntil then (true, { cooling with runsUntil, ending })
  else if runsUntil.keys.length ≥ cooldowns.capacity then
    -- the alarm sounds once a second
    let alarmed :=
      if cooling.alarmed.all fun at' => decide (now.ns - at' ≥ 1000000000) then some now.ns
      else cooling.alarmed
    (true, { runsUntil, ending, alarmed })
  else
    let ends := cooldowns.endOf now
    (false, { cooling with runsUntil := runsUntil.insert key ends, ending := ending ++ [(ends, key)] })

def step (cooldowns : ResetCooldowns) (s : Cooling × List ResetRequest) (request : ResetRequest) :
    Cooling × List ResetRequest :=
  let (asked, cooling) := alreadyAsked fns cooldowns s.1 request
  (cooling, if asked then s.2 else s.2 ++ [request])

def runAll (cooldowns : ResetCooldowns) (requests : List ResetRequest) : Cooling × List ResetRequest :=
  requests.foldl (step fns cooldowns) (⟨∅, [], none⟩, [])

/-- No cooldown of the same parts is running, and fewer than `capacity` keys have one that is. -/
def Free (ends : ResetRequest → Instant) (capacity : Nat) (admitted : List ResetRequest)
    (request : ResetRequest) : Prop :=
  (∀ earlier ∈ admitted, parts fns earlier = parts fns request →
    ends earlier ≤ request.now.ns) ∧
  ((admitted.filter fun earlier => decide (request.now.ns < ends earlier)).map
    (parts fns)).dedup.length < capacity

/-- The digest of no two requests collides. -/
def CollisionFree (requests : List ResetRequest) : Prop :=
  ∀ a ∈ requests, ∀ b ∈ requests, key fns a = key fns b → digested fns a = digested fns b

def InOrder (requests : List ResetRequest) : Prop := requests.Pairwise fun a b => a.now.ns ≤ b.now.ns

theorem hashed_append_inj {a b : RustString} {x y : List UInt8} (h : hashed a ++ x = hashed b ++ y) :
    a = b ∧ x = y := by
  unfold hashed at h
  rw [List.append_assoc, List.append_assoc] at h
  obtain ⟨hlen, hrest⟩ := List.append_inj h (by rw [Bytes.length_toBytes, Bytes.length_toBytes])
  have hsize : a.val.utf8ByteSize = b.val.utf8ByteSize := by
    have hfits (part : RustString) : part.val.utf8ByteSize < 256 ^ 8 :=
      part.property.trans (by norm_num)
    rw [← Bytes.ofBytes_toBytes (hfits a), hlen, Bytes.ofBytes_toBytes (hfits b)]
  obtain ⟨hbytes, hxy⟩ := List.append_inj hrest hsize
  exact ⟨Subtype.ext (String.toByteArray_inj.mp (ByteArray.ext (Array.toList_inj.mp hbytes))), hxy⟩

theorem parts_eq_of_digested {fns : KeyFns} {a b : ResetRequest}
    (h : digested fns a = digested fns b) : parts fns a = parts fns b := by
  obtain ⟨htenant, hrest⟩ := hashed_append_inj h
  have hidentifier := hashed_append_inj (x := []) (y := [])
    ((List.append_nil _).trans (hrest.trans (List.append_nil _).symm))
  exact Prod.ext htenant hidentifier.1

theorem endOf_eq_min (cooldowns : ResetCooldowns) (now : UtcTime) :
    cooldowns.endOf now = min (now.ns + cooldowns.cooldown) maxUtc := by
  have hfirst : minUtc ≤ now.ns + cooldowns.cooldown :=
    now.ge_min.trans (Int.le_add_of_nonneg_right cooldowns.nonneg)
  unfold endOf checkedAddSigned
  split
  · next hfits => exact (min_eq_left hfits.2).symm
  · next hlong => exact (min_eq_right (not_le.mp fun hle => hlong ⟨hfirst, hle⟩).le).symm

theorem endOf_mono (cooldowns : ResetCooldowns) {a b : UtcTime} (h : a.ns ≤ b.ns) :
    cooldowns.endOf a ≤ cooldowns.endOf b := by
  rw [endOf_eq_min, endOf_eq_min]
  exact min_le_min_right _ (Int.add_le_add_right h _)

/-- A cooldown that the calendar library cannot hold ends with the calendar anyway. -/
theorem endOf_new (capacity : Nat) (cooldown : Duration) (now : UtcTime) :
    (new capacity cooldown).endOf now = min (now.ns + (cooldown : Int)) maxUtc := by
  rw [endOf_eq_min]
  unfold new fromStd
  dsimp only
  split
  · rfl
  · next hlong =>
    have hlast : maxUtc ≤ now.ns + (maxChronoDuration : Int) :=
      (by decide +kernel : maxUtc ≤ minUtc + (maxChronoDuration : Int)).trans
        (Int.add_le_add_right now.ge_min _)
    have hlonger : (maxChronoDuration : Int) ≤ (cooldown : Int) := Int.ofNat_le.mpr (not_le.mp hlong).le
    rw [Option.getD_none, min_eq_right hlast,
      min_eq_right (hlast.trans (Int.add_le_add_left hlonger _))]

/-! ## The queue is what is live -/

section

variable {fns : KeyFns} {cooldowns : ResetCooldowns} {s : Cooling × List ResetRequest} {t now : Instant}
  {request : ResetRequest}

def live (cooldowns : ResetCooldowns) (admitted : List ResetRequest) (now : Instant) :
    List ResetRequest :=
  admitted.filter fun earlier => decide (now < cooldowns.endOf earlier.now)

variable (fns cooldowns t s) in
structure Follows : Prop where
  keys : s.1.runsUntil.keys.Perm (s.1.ending.map (·.2))
  length_le : s.1.runsUntil.keys.length ≤ cooldowns.capacity
  inOrder : InOrder s.2
  past : ∀ earlier ∈ s.2, earlier.now.ns ≤ t
  queue : ∃ gone kept, s.2 = gone ++ kept ∧ (∀ earlier ∈ gone, cooldowns.endOf earlier.now ≤ t) ∧
    s.1.ending = kept.map fun earlier => (cooldowns.endOf earlier.now, key fns earlier)

def popped (cooling : Cooling) (now : Instant) : (AList fun _ : Tag => Instant) × List (Instant × Tag) :=
  Maps.popDue (fun runsUntil => decide (runsUntil ≤ now)) cooling.runsUntil cooling.ending

theorem live_eq_dropWhile {admitted : List ResetRequest} (h : InOrder admitted) (now : Instant) :
    live cooldowns admitted now =
      admitted.dropWhile fun earlier => decide (cooldowns.endOf earlier.now ≤ now) :=
  Maps.filter_eq_dropWhile (h.imp fun hle => cooldowns.endOf_mono hle) now

theorem Follows.snd_popped (h : Follows fns cooldowns s t) (hnow : t ≤ now) :
    (popped s.1 now).2 = (live cooldowns s.2 now).map fun earlier =>
      (cooldowns.endOf earlier.now, key fns earlier) := by
  obtain ⟨gone, kept, hadmitted, hgone, hending⟩ := h.queue
  have hall : ∀ earlier ∈ gone, decide (cooldowns.endOf earlier.now ≤ now) = true :=
    fun earlier hmem => decide_eq_true ((hgone earlier hmem).trans hnow)
  rw [popped, Maps.snd_popDue, hending, List.dropWhile_map, live_eq_dropWhile h.inOrder, hadmitted,
    List.dropWhile_append_of_pos hall]
  rfl

theorem Follows.perm_popped (h : Follows fns cooldowns s t) (now : Instant) :
    (popped s.1 now).1.keys.Perm ((popped s.1 now).2.map (·.2)) :=
  Maps.keys_popDue _ h.keys

theorem Follows.keys_popped (h : Follows fns cooldowns s t) (hnow : t ≤ now) :
    (popped s.1 now).1.keys.Perm ((live cooldowns s.2 now).map (key fns)) := by
  have hperm := h.perm_popped now
  rwa [h.snd_popped hnow, List.map_map] at hperm

theorem alreadyAsked_cases (fns : KeyFns) (cooldowns : ResetCooldowns) (cooling : Cooling)
    (request : ResetRequest) :
    let call := alreadyAsked fns cooldowns cooling request
    let before := popped cooling request.now.ns
    let key := key fns request
    (call.1 = true ∧ (key ∈ before.1 ∨ cooldowns.capacity ≤ before.1.keys.length) ∧
        (call.2.runsUntil, call.2.ending) = before) ∨
      (call.1 = false ∧ key ∉ before.1 ∧ before.1.keys.length < cooldowns.capacity ∧
        call.2.runsUntil = before.1.insert key (cooldowns.endOf request.now) ∧
        call.2.ending = before.2 ++ [(cooldowns.endOf request.now, key)]) := by
  unfold alreadyAsked
  dsimp only
  split
  · next hheld => exact .inl ⟨rfl, .inl hheld, rfl⟩
  · next hnew =>
    split
    · next hfull => exact .inl ⟨rfl, .inr hfull, rfl⟩
    · next hroom => exact .inr ⟨rfl, hnew, not_le.mp hroom, rfl, rfl⟩

theorem Follows.mem_popped (h : Follows fns cooldowns s t) (hnow : t ≤ now) (tag : Tag) :
    tag ∈ (popped s.1 now).1 ↔ ∃ earlier ∈ live cooldowns s.2 now, key fns earlier = tag := by
  rw [AList.mem_keys, (h.keys_popped hnow).mem_iff, List.mem_map]

theorem Follows.length_popped (h : Follows fns cooldowns s t) (hnow : t ≤ now) :
    (popped s.1 now).1.keys.length = (live cooldowns s.2 now).length := by
  rw [(h.keys_popped hnow).length_eq, List.length_map]

theorem Follows.length_popped_le (h : Follows fns cooldowns s t) (now : Instant) :
    (popped s.1 now).1.keys.length ≤ cooldowns.capacity := by
  have hsuffix : (popped s.1 now).2.length ≤ s.1.ending.length := by
    rw [popped, Maps.snd_popDue]
    exact (List.dropWhile_sublist _).length_le
  have hbefore := h.keys.length_eq
  have hafter := (h.perm_popped now).length_eq
  rw [List.length_map] at hbefore hafter
  exact hafter.trans_le (hsuffix.trans (hbefore ▸ h.length_le))

theorem Follows.step (h : Follows fns cooldowns s t) (hnow : t ≤ request.now.ns) :
    Follows fns cooldowns (step fns cooldowns s request) request.now.ns := by
  have hpast : ∀ earlier ∈ s.2, earlier.now.ns ≤ request.now.ns :=
    fun earlier hmem => (h.past earlier hmem).trans hnow
  have hperm := h.perm_popped request.now.ns
  -- the ones that went are those that are over now
  have hsplit := (List.takeWhile_append_dropWhile
    (p := fun earlier : ResetRequest => decide (cooldowns.endOf earlier.now ≤ request.now.ns))
    (l := s.2)).symm
  rw [← live_eq_dropWhile h.inOrder] at hsplit
  have hgone : ∀ earlier ∈ s.2.takeWhile fun earlier : ResetRequest =>
      decide (cooldowns.endOf earlier.now ≤ request.now.ns),
      cooldowns.endOf earlier.now ≤ request.now.ns := by
    intro earlier hmem
    have hdue := List.mem_takeWhile_imp hmem
    exact of_decide_eq_true hdue
  unfold ResetCooldowns.step
  rcases alreadyAsked_cases fns cooldowns s.1 request with
    ⟨hasked, -, hafter⟩ | ⟨hasked, hnew, hroom, hmap, hqueue⟩
  · obtain ⟨hmap, hqueue⟩ := Prod.ext_iff.mp hafter
    dsimp only at hmap hqueue ⊢
    rw [if_pos hasked]
    exact ⟨by rw [hmap, hqueue]; exact hperm, by rw [hmap]; exact h.length_popped_le _, h.inOrder, hpast,
      _, _, hsplit, hgone, hqueue.trans (h.snd_popped hnow)⟩
  · dsimp only
    rw [hasked, if_neg Bool.false_ne_true]
    refine ⟨?_, ?_, ?_, ?_, _, live cooldowns s.2 request.now.ns ++ [request], ?_, hgone, ?_⟩
    · rw [hmap, hqueue, Maps.keys_insert_of_notMem hnew, List.map_append]
      exact (hperm.cons _).trans (List.perm_append_singleton _ _).symm
    · rw [hmap, Maps.keys_insert_of_notMem hnew]
      exact hroom
    · exact List.pairwise_append.mpr ⟨h.inOrder, List.pairwise_singleton _ _, fun earlier hmem _ hlast =>
        List.mem_singleton.mp hlast ▸ hpast earlier hmem⟩
    · intro earlier hmem
      rcases List.mem_append.mp hmem with hmem | hmem
      · exact hpast earlier hmem
      · exact (List.mem_singleton.mp hmem ▸ le_refl _)
    · rw [← List.append_assoc, ← hsplit]
    · rw [hqueue, h.snd_popped hnow, List.map_append]
      rfl

def lastNow (requests : List ResetRequest) : Instant :=
  (requests.getLast?.map (·.now.ns)).getD minUtc

theorem lastNow_le {requests : List ResetRequest} (h : InOrder (requests ++ [request])) :
    lastNow requests ≤ request.now.ns := by
  unfold lastNow
  cases hget : requests.getLast? with
  | none => exact request.now.ge_min
  | some previous =>
    exact (List.pairwise_append.mp h).2.2 previous (List.mem_of_getLast? hget) request List.mem_cons_self

theorem follows_runAll (fns : KeyFns) (cooldowns : ResetCooldowns) {requests : List ResetRequest}
    (h : InOrder requests) :
    Follows fns cooldowns (runAll fns cooldowns requests) (lastNow requests) ∧
      (runAll fns cooldowns requests).2 ⊆ requests := by
  induction requests using List.reverseRecOn with
  | nil =>
    exact ⟨⟨.refl _, Nat.zero_le _, List.Pairwise.nil, fun _ hmem => absurd hmem List.not_mem_nil,
      [], [], rfl, fun _ hmem => absurd hmem List.not_mem_nil, rfl⟩, List.nil_subset _⟩
  | append_singleton requests request ih =>
    obtain ⟨hfollows, hsubset⟩ := ih (List.pairwise_append.mp h).1
    unfold runAll at hfollows hsubset ⊢
    rw [List.foldl_append, lastNow, List.getLast?_concat]
    refine ⟨hfollows.step (lastNow_le h), fun admitted hmem => ?_⟩
    rw [List.foldl_cons, List.foldl_nil, step] at hmem
    dsimp only at hmem
    split at hmem
    · exact List.mem_append_left _ (hsubset hmem)
    · exact List.append_subset.mpr ⟨fun _ hmem => List.mem_append_left _ (hsubset hmem),
        List.subset_append_right _ _⟩ hmem

theorem Follows.nodup_live (h : Follows fns cooldowns s t) (hnow : t ≤ now) :
    ((live cooldowns s.2 now).map (parts fns)).Nodup := by
  have hnodup := (h.keys_popped hnow).nodup_iff.mp (AList.keys_nodup _)
  refine List.Nodup.of_map (fun parts => fns.sha256 (hashed parts.1 ++ hashed parts.2)) ?_
  rwa [List.map_map]

/-- A request that finds no collision among the live ones is let through exactly if it is free. -/
theorem Follows.asked_iff (h : Follows fns cooldowns s t) (hnow : t ≤ request.now.ns)
    (hsha : ∀ earlier ∈ s.2, key fns earlier = key fns request →
      parts fns earlier = parts fns request) :
    (alreadyAsked fns cooldowns s.1 request).1 = false ↔
      Free fns (fun earlier => cooldowns.endOf earlier.now) cooldowns.capacity s.2 request := by
  have hkey : key fns request ∉ (popped s.1 request.now.ns).1 ↔
      ∀ earlier ∈ s.2, parts fns earlier = parts fns request →
        cooldowns.endOf earlier.now ≤ request.now.ns := by
    rw [h.mem_popped hnow]
    constructor
    · intro hnone earlier hmem hparts
      refine not_lt.mp fun hlive => hnone ⟨earlier, List.mem_filter.mpr ⟨hmem, decide_eq_true hlive⟩, ?_⟩
      rw [key, key, digested, digested, hparts]
    · rintro hover ⟨earlier, hlive, hkey⟩
      obtain ⟨hmem, hrunning⟩ := List.mem_filter.mp hlive
      exact (of_decide_eq_true hrunning).not_ge (hover earlier hmem (hsha earlier hmem hkey))
  unfold Free
  rw [← hkey, show s.2.filter _ = live cooldowns s.2 request.now.ns from rfl, (h.nodup_live hnow).dedup,
    List.length_map, ← h.length_popped hnow]
  rcases alreadyAsked_cases fns cooldowns s.1 request with
    ⟨hasked, hheld, -⟩ | ⟨hasked, hnew, hroom, -⟩
  · refine iff_of_false (by rw [hasked]; exact Bool.true_eq_false_eq_False) ?_
    rintro ⟨hnew, hroom⟩
    rcases hheld with hheld | hfull
    · exact hnew hheld
    · exact hroom.not_ge hfull
  · exact iff_of_true hasked ⟨hnew, hroom⟩

end

/-- A call is let through exactly if it is free, where a capacity of zero counts as one and a cooldown ends
with the calendar at the latest. -/
theorem asks_once_in_cooldown (fns : KeyFns) (capacity : Nat) (cooldown : Duration)
    (requests : List ResetRequest) (request : ResetRequest) (horder : InOrder (requests ++ [request]))
    (hsha : CollisionFree fns (requests ++ [request])) :
    let cooldowns := new capacity cooldown
    let s := runAll fns cooldowns requests
    ((alreadyAsked fns cooldowns s.1 request).1 = false ↔
        Free fns (fun earlier => min (earlier.now.ns + (cooldown : Int)) maxUtc)
          (max capacity 1) s.2 request) ∧
      s.1.runsUntil.keys.length ≤ max capacity 1 ∧
      s.1.runsUntil.keys.Perm (s.1.ending.map (·.2)) := by
  obtain ⟨hfollows, hsubset⟩ :=
    follows_runAll fns (new capacity cooldown) (List.pairwise_append.mp horder).1
  refine ⟨?_, hfollows.length_le, hfollows.keys⟩
  rw [hfollows.asked_iff (lastNow_le horder) fun earlier hmem hkey => ?_]
  · rw [funext fun earlier : ResetRequest => endOf_new capacity cooldown earlier.now]
    rfl
  · exact parts_eq_of_digested (hsha earlier (List.mem_append_left _ (hsubset hmem)) request
      (List.mem_append_right _ List.mem_cons_self) hkey)

def sums : KeyFns where
  sha256 bytes := Vector.replicate 32 (bytes.foldl (· + ·) 0)
  normaliseIdentifier identifier :=
    if identifier.toList.head? = some 'v' then some ⟨"v", by decide⟩ else none

def askedAt (identifier : String) (ns : Int) (h : minUtc ≤ ns ∧ ns ≤ maxUtc) :
    ResetRequest :=
  ⟨"t1", identifier, ns, h.1, h.2⟩

theorem asks_once_of_victim :
    let other := askedAt "other" 1 (by decide)
    let s := runAll sums (new 1 5) [askedAt "victim" 0 (by decide)]
    (alreadyAsked sums (new 1 5) s.1 other).1 = true ∧
      ¬Free sums (fun earlier => min (earlier.now.ns + ((5 : Nat) : Int)) maxUtc) 1 s.2
        other := by
  have hrule := (asks_once_in_cooldown sums 1 5 [askedAt "victim" 0 (by decide)]
    (askedAt "other" 1 (by decide)) (by unfold InOrder; decide +kernel)
    (by unfold CollisionFree; decide +kernel)).1
  have hasked : (alreadyAsked sums (new 1 5)
      (runAll sums (new 1 5) [askedAt "victim" 0 (by decide)]).1
      (askedAt "other" 1 (by decide))).1 = true := by decide +kernel
  exact ⟨hasked, fun hfree => absurd (hrule.mpr hfree) (by rw [hasked]; nofun)⟩

/-- A capacity of zero lets one key through, and at the calendar's last nanosecond a cooldown of five is
over after one. -/
theorem asks_again_at_last_nanosecond :
    (let victim := askedAt "victim" 0 (by decide)
     (alreadyAsked sums (new 0 5) ⟨∅, [], none⟩ victim).1 = false ∧
       ¬Free sums (fun earlier => earlier.now.ns + 5) 0 [] victim) ∧
    (let victim := askedAt "victim" (maxUtc - 1) (by decide)
     let again := askedAt "victim" maxUtc (by decide)
     let s := runAll sums (new 1 5) [victim]
     InOrder [victim, again] ∧ CollisionFree sums [victim, again] ∧
       (alreadyAsked sums (new 1 5) s.1 again).1 = false ∧
       ¬Free sums (fun earlier => earlier.now.ns + 5) 1 s.2 again) := by
  unfold InOrder CollisionFree Free
  decide +kernel

end ResetCooldowns

end Axess
