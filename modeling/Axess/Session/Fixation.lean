import Axess.Session.Alone

/-!
# Session fixation

Every operation that changes the user of a session, or how far its login has come, moves the
session to a new id (`Transition.apply_cases`). A session whose identity changed during a request
is therefore stored under an id that was minted during the request, and the row it arrived with is
gone (`identity_change_rotates`).
-/

namespace Axess

open Calls

variable {V : Type} [BEq V] [JsonSize V]

/-- The operations of `AuthSession` that change the state, the id or the custom bag. -/
def Op.changesSession : Op V → Bool
  | .transition _ => true
  | .custom _ => true
  | .takeCustom _ => true
  | _ => false

structure Handled (ttl : Duration) (s₀ : SessionInner V) (w₀ : World V) (s : SessionInner V)
    (w : World V) : Prop where
  alone : s.Alone ttl w.rows s₀.id
  others : ∀ i, i ≠ s₀.id → w.rows i = w₀.rows i
  present : (w.rows s₀.id).isSome = (w₀.rows s₀.id).isSome
  rng : ∃ n, s.rng = s₀.rng.drop n
  minted : s.preCycleId ≠ none → s.regenerate = true ∧ ∃ n, s.id = s₀.rng.get n
  /-- As long as the id is the one the session arrived with, so is the identity. -/
  identity : s.preCycleId = none → s.data.authState.identity = s₀.data.authState.identity

namespace Handled

variable {ttl : Duration} {s₀ s t : SessionInner V} {w₀ w : World V}

omit [BEq V] [JsonSize V] in
theorem start {layer : SessionLayer} {existingId : Option SessionId}
    (h : Begun layer w₀ s₀ existingId) : Handled layer.config.ttl s₀ w₀ s₀ w₀ where
  alone := h.alone
  others _ _ := rfl
  present := rfl
  rng := ⟨0, rfl⟩
  minted hpre := absurd h.preCycleId hpre
  identity _ := rfl

omit [BEq V] [JsonSize V] in
theorem keeps (h : Handled ttl s₀ w₀ s w) (hkeep : s.KeepsId t)
    (hidentity : t.data.authState.identity = s.data.authState.identity) :
    Handled ttl s₀ w₀ t w where
  alone := h.alone.keeps hkeep
  others := h.others
  present := h.present
  rng := by
    rw [hkeep.rng]
    exact h.rng
  minted hpre := by
    rw [hkeep.preCycleId] at hpre
    rw [hkeep.regenerate, hkeep.id]
    exact h.minted hpre
  identity hpre := by
    rw [hkeep.preCycleId] at hpre
    exact hidentity.trans (h.identity hpre)

omit [BEq V] [JsonSize V] in
theorem rotates (h : Handled ttl s₀ w₀ s w) (hrot : s.Rotates t) : Handled ttl s₀ w₀ t w where
  alone := h.alone.rotates hrot
  others := h.others
  present := h.present
  rng := by
    obtain ⟨n, hn⟩ := h.rng
    refine ⟨n + 1, ?_⟩
    rw [hrot.rng, hn, Stream'.tail_drop']
  minted _ := by
    obtain ⟨n, hn⟩ := h.rng
    refine ⟨hrot.regenerate, n, ?_⟩
    rw [hrot.id, hn, Stream'.head_drop]
  identity hpre := absurd (hrot.preCycleId.symm.trans hpre) (by simp)

theorem takeCustom (h : Handled ttl s₀ w₀ s w) (httl : ttl ≠ 0) (key : String) :
    let r := (s.consumeCustom key).eval World.perform w
    Handled ttl s₀ w₀ r.1.2 r.2 := by
  intro r
  obtain ⟨halone, htakes⟩ := consumeCustom_alone h.alone httl key
  have hrows : (∀ i, i ≠ s₀.id → r.2.rows i = w.rows i) ∧
      (r.2.rows s₀.id).isSome = (w.rows s₀.id).isSome := by
    rcases htakes.world with hw | ⟨row, row', hrow, hw, -⟩
    · rw [show r.2 = w from hw]
      exact ⟨fun _ _ => rfl, rfl⟩
    · rw [show r.2 = _ from hw, hrow]
      refine ⟨fun i hi => Rows.put_of_ne _ _ hi, ?_⟩
      show (w.rows.put s₀.id row' s₀.id).isSome = _
      rw [Rows.put_self]
      rfl
  exact {
    alone := halone
    others := fun i hi => (hrows.1 i hi).trans (h.others i hi)
    present := hrows.2.trans h.present
    rng := by rw [htakes.rng]; exact h.rng
    minted := fun hpre => by
      rw [htakes.preCycleId] at hpre
      rw [htakes.regenerate, htakes.id]
      exact h.minted hpre
    identity := fun hpre => by
      rw [htakes.preCycleId] at hpre
      rw [htakes.authState]
      exact h.identity hpre }

theorem run (h : Handled ttl s₀ w₀ s w) (httl : ttl ≠ 0) {op : Op V}
    (hop : op.changesSession = true) :
    let r := (op.run s).eval World.perform w
    Handled ttl s₀ w₀ r.1 r.2 := by
  cases op with
  | transition t =>
    rcases t.apply_cases s with hrot | ⟨hkeep, hidentity⟩
    · exact h.rotates hrot
    · exact h.keeps hkeep hidentity
  | custom c =>
    obtain ⟨hkeep, hstate⟩ := c.apply_keepsId s
    exact h.keeps hkeep (congrArg AuthState.identity hstate)
  | takeCustom key =>
    have htaken := h.takeCustom httl key
    -- handing the value over changes nothing
    have hdeliver : ((Op.takeCustom key).run s).eval World.perform w =
        (((s.consumeCustom key).eval World.perform w).1.2,
          ((s.consumeCustom key).eval World.perform w).2) := by
      simp only [Op.run, AuthSession.takeCustom, Prog.eval_bind]
      cases ((s.consumeCustom key).eval World.perform w).1.1 <;> rfl
    rw [hdeliver]
    exact htaken
  | beginStepUp => cases hop
  | setImpersonator => cases hop
  | recordAttemptAt => cases hop
  | sessionId => cases hop

theorem runOps (httl : ttl ≠ 0) (ops : List (Op V)) (hops : ∀ op ∈ ops, op.changesSession = true)
    {s : SessionInner V} {w : World V} (h : Handled ttl s₀ w₀ s w) :
    let r := (Axess.runOps ops s).eval World.perform w
    Handled ttl s₀ w₀ r.1 r.2 := by
  induction ops generalizing s w with
  | nil => exact h
  | cons op ops ih =>
    simp only [Axess.runOps, Prog.eval_bind]
    exact ih (fun op' hop' => hops op' (List.mem_cons_of_mem op hop'))
      (h.run httl (hops op List.mem_cons_self))

end Handled

/-- A session whose user or kind of state changed is stored under an id minted during the request
and under no other, and no row is left under the id it arrived with. -/
theorem identity_change_rotates {layer : SessionLayer} {req : Request} {w : World V}
    (hmint : req.Mints w.rows) {ops : List (Op V)} (hops : ∀ op ∈ ops, op.changesSession = true) :
    let b := (beginRequest layer req).eval World.perform w
    let h := (runOps ops b.1.1).eval World.perform b.2
    let f := (finalizeSession layer.config req.finishedAt h.1 b.1.2).eval World.perform h.2
    h.1.data.authState.identity ≠ b.1.1.data.authState.identity →
      f.2.rows b.1.1.id = none ∧
        ∃ n data, b.1.1.rng.get n ≠ b.1.1.id ∧ data.authState = h.1.data.authState ∧
          f.1.1.finalId = b.1.1.rng.get n ∧
          f.2.rows = (b.2.rows.drop b.1.1.id).put (b.1.1.rng.get n) data := by
  intro b h f hchanged
  have hbegun : Begun layer b.2 b.1.1 b.1.2 := beginRequest_alone hmint
  have hhandled : Handled layer.config.ttl b.1.1 b.2 h.1 h.2 :=
    Handled.runOps (Nat.ne_of_gt layer.config.ttl_pos) ops hops (.start hbegun)
  -- the identity changed, so the id did
  have hpre : h.1.preCycleId ≠ none := fun hnone => hchanged (hhandled.identity hnone)
  obtain ⟨hregen, n, hid⟩ := hhandled.minted hpre
  obtain ⟨old, hold⟩ := Option.ne_none_iff_exists'.mp hpre
  have hfinal := finalizeSession_regenerate req.finishedAt hhandled.alone
    (hbegun.existing.trans hhandled.present.symm) hregen
  rw [SessionInner.moved_id hold, hid] at hfinal
  have hf : f = _ := hfinal
  have hdrop : h.2.rows.drop b.1.1.id = b.2.rows.drop b.1.1.id := by
    funext i
    by_cases hi : i = b.1.1.id
    · rw [hi, Rows.drop_self, Rows.drop_self]
    · rw [Rows.drop_of_ne _ hi, Rows.drop_of_ne _ hi, hhandled.others i hi]
  have hrows : f.2.rows = (b.2.rows.drop b.1.1.id).put (b.1.1.rng.get n)
      (h.1.stamped layer.config req.finishedAt).data := by
    rw [hf, ← hdrop]
  refine ⟨?_, n, (h.1.stamped layer.config req.finishedAt).data, hbegun.fresh n, rfl, ?_, hrows⟩
  · rw [hrows, Rows.put_of_ne _ _ (hbegun.fresh n).symm, Rows.drop_self]
  · rw [hf]

namespace Fixation

def plantedWorld : World Nat :=
  { (World.empty : World Nat) with rows := fun i => if i = ⟨1⟩ then some .default else none }

def victim : Request := .counting (some ⟨⟨1⟩, false⟩) 2

def login : List (Op Nat) :=
  [.transition (.setAuthenticated ⟨7⟩ ⟨1⟩ 5 []), .transition .regenerate, .takeCustom "nonce"]

end Fixation

open Fixation in
theorem identity_change_rotates_login :
    let b := (beginRequest SessionLayer.plain victim).eval World.perform plantedWorld
    let h := (runOps login b.1.1).eval World.perform b.2
    let f := (finalizeSession SessionLayer.plain.config 0 h.1 b.1.2).eval World.perform h.2
    b.1.1.id = ⟨1⟩ ∧ f.2.rows ⟨1⟩ = none := by
  have hmint : victim.Mints plantedWorld.rows := by
    apply Request.counting_mints
    · intro c hc
      cases hc
      decide
    · intro i hi
      have hne : i ≠ ⟨1⟩ := by
        rintro rfl
        exact absurd hi (by decide)
      exact if_neg hne
  refine ⟨rfl, ?_⟩
  have hops : ∀ op ∈ login, op.changesSession = true := by
    intro op hop
    simp only [login, List.mem_cons, List.not_mem_nil, or_false] at hop
    rcases hop with rfl | rfl | rfl <;> rfl
  have hchanged : ((runOps login ((beginRequest SessionLayer.plain victim).eval World.perform
      plantedWorld).1.1).eval World.perform ((beginRequest SessionLayer.plain victim).eval
      World.perform plantedWorld).2).1.data.authState.identity ≠ AuthState.guest.identity := by
    decide
  exact (identity_change_rotates hmint hops hchanged).1

end Axess
