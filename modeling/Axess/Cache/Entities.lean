import Axess.Cache.Invalidate

/-!
# The cache of authorization entities

The cache in front of the entity provider (`axess-core/src/authz/cache/entity_cache.rs`) with its
invalidation counters (`generation.rs`). A request takes a snapshot of the counters that govern it
and looks its entities up under a key that has the snapshot in it; an invalidation raises a counter
and then drops what the cache has and loads.

A counter is shared by all that fall on one stripe; which stripe that is, is any function here. A
counter that is raised often enough begins again at zero. What is proved does not rest on the
counters: the invalidation of the cache itself drops the entries and the loads of every generation.
-/

namespace Axess

open Calls Maps

def generationStripes : Nat := 256

inductive GenerationCounter where
  | all
  | principal (stripe : Fin generationStripes)
  | tenant (stripe : Fin generationStripes)
  | resource (stripe : Fin generationStripes)
  deriving DecidableEq

structure Generation where
  all : UInt64
  principal : UInt64
  tenant : UInt64
  resource : UInt64
  deriving DecidableEq, Inhabited

structure Generations where
  counter : GenerationCounter → UInt64

namespace Generations

def new : Generations := ⟨fun _ => 0⟩

def fetchAdd (g : Generations) (c : GenerationCounter) : Generations :=
  ⟨Function.update g.counter c (g.counter c + 1)⟩

end Generations

structure Stripe (Uid : Type) where
  uid : Uid → Fin generationStripes
  tenant : String → Fin generationStripes

structure EntityCacheKey (Uid : Type) where
  principal : Uid
  tenant : Option String
  resource : Uid
  action : Uid
  discriminator : Option String
  generation : Generation
  deriving DecidableEq

structure CachedEntities {Uid Entity : Type} (uidOf : Entity → Uid) where
  entities : List Entity
  uids : List Uid
  uids_eq : uids = entities.map uidOf

abbrev EntityCells (ι : Type) {Uid Entity : Type} (uidOf : Entity → Uid) :=
  CacheState ι (EntityCacheKey Uid) (Produced (CachedEntities uidOf))

abbrev EntityCacheProg {Uid Entity : Type} (uidOf : Entity → Uid) :=
  CacheProg (EntityCacheKey Uid) (Produced (CachedEntities uidOf))

section Programs

variable {Uid Entity : Type} (uidOf : Entity → Uid)

inductive EntityCall where
  | cache (e : CacheCall (EntityCacheKey Uid) (Produced (CachedEntities uidOf)))
  | load (c : GenerationCounter)
  | fetchAdd (c : GenerationCounter)

abbrev EntityCall.Answer (Err : Type) : EntityCall uidOf → Type
  | cache e => e.Answer Err
  | load _ => UInt64
  | fetchAdd _ => Unit

abbrev EntityProg (Err α : Type) := Prog (EntityCall uidOf) (EntityCall.Answer uidOf Err) α

variable {uidOf} {Err α : Type}

def onCache (p : EntityCacheProg uidOf Err α) : EntityProg uidOf Err α :=
  p.expand fun e => Prog.perform (E := EntityCall uidOf) (A := EntityCall.Answer uidOf Err) (.cache e)

structure EntityRequest (Uid : Type) where
  principal : Uid
  tenant : Option String
  resource : Uid
  action : Uid
  discriminator : Option String

def EntityRequest.key (request : EntityRequest Uid) (generation : Generation) :
    EntityCacheKey Uid :=
  { principal := request.principal
    tenant := request.tenant
    resource := request.resource
    action := request.action
    discriminator := request.discriminator
    generation }

namespace EntityCache

variable [DecidableEq Uid] (stripe : Stripe Uid)

def load (c : GenerationCounter) : EntityProg uidOf Err UInt64 :=
  Prog.perform (EntityCall.load c)

def bump (c : GenerationCounter) : EntityProg uidOf Err Unit :=
  Prog.perform (EntityCall.fetchAdd c)

def snapshot (principal : Uid) (tenant : Option String) (resource : Uid) :
    EntityProg uidOf Err Generation := do
  let all ← load .all
  let principal ← load (.principal (stripe.uid principal))
  let tenant ← match tenant with
    | none => pure 0
    | some tenant => load (.tenant (stripe.tenant tenant))
  let resource ← load (.resource (stripe.uid resource))
  pure ⟨all, principal, tenant, resource⟩

def entitiesOf (cached : Produced (CachedEntities uidOf)) : Produced (List Entity) :=
  ⟨cached.value.entities, cached.fetch⟩

def sharedEntitiesFor (ttlMicros : Nat) (request : EntityRequest Uid) :
    EntityProg uidOf Err (Option (Except Err (Produced (List Entity)))) := do
  let generation ← snapshot stripe request.principal request.tenant request.resource
  let cached ← onCache (ClockTtlCache.getOrTryInsertWith ttlMicros (request.key generation))
  pure (cached.map (Except.map entitiesOf))

def invalidatePrincipal (principal : Uid) : EntityProg uidOf Err Nat := do
  bump (.principal (stripe.uid principal))
  onCache (ClockTtlCache.invalidateBy fun key => key.principal = principal)

/-- The tenant, the resource and the action are not looked at. -/
def invalidate (principal : Uid) (_tenant : Option String) (_resource _action : Uid) :
    EntityProg uidOf Err Unit := do
  bump (.principal (stripe.uid principal))
  let _ ← onCache (ClockTtlCache.invalidateBy fun key => key.principal = principal)
  pure ()

def invalidateAll : EntityProg uidOf Err Unit := do
  bump .all
  onCache ClockTtlCache.invalidateAll

def invalidateTenant (tenant : String) : EntityProg uidOf Err Nat := do
  bump (.tenant (stripe.tenant tenant))
  onCache (ClockTtlCache.invalidateBy fun key => key.tenant = some tenant)

def invalidateResource (resource : Uid) : EntityProg uidOf Err Nat := do
  bump (.resource (stripe.uid resource))
  let own ← onCache (ClockTtlCache.invalidateBy fun key => key.resource = resource)
  let held ← onCache (ClockTtlCache.invalidateEntriesBy fun _ cached =>
    cached.value.uids.contains resource)
  pure (own + held)

end EntityCache

inductive EntityOp (Uid : Type) where
  | sharedEntitiesFor (request : EntityRequest Uid)
  | invalidate (principal : Uid) (tenant : Option String) (resource action : Uid)
  | invalidatePrincipal (principal : Uid)
  | invalidateTenant (tenant : String)
  | invalidateAll
  | invalidateResource (resource : Uid)

inductive EntityOutcome (Entity Err : Type) where
  | served (r : Option (Except Err (Produced (List Entity))))
  | invalidated (count : Nat)

namespace EntityOp

def run [DecidableEq Uid] (stripe : Stripe Uid) (ttlMicros : Nat) :
    EntityOp Uid → EntityProg uidOf Err (EntityOutcome Entity Err)
  | sharedEntitiesFor request => .served <$> EntityCache.sharedEntitiesFor stripe ttlMicros request
  | invalidate principal tenant resource action =>
    (fun _ => .invalidated 0) <$> EntityCache.invalidate stripe principal tenant resource action
  | invalidatePrincipal principal =>
    .invalidated <$> EntityCache.invalidatePrincipal stripe principal
  | invalidateTenant tenant => .invalidated <$> EntityCache.invalidateTenant stripe tenant
  | invalidateAll => (fun _ => .invalidated 0) <$> EntityCache.invalidateAll
  | invalidateResource resource => .invalidated <$> EntityCache.invalidateResource stripe resource

def Covers (request : EntityRequest Uid) : EntityOp Uid → Prop
  | sharedEntitiesFor _ => False
  | invalidate principal _ _ _ => principal = request.principal
  | invalidatePrincipal principal => principal = request.principal
  | invalidateTenant tenant => request.tenant = some tenant
  | invalidateAll => True
  | invalidateResource resource => resource = request.resource

end EntityOp

end Programs

structure EntityCacheState (ι : Type) {Uid Entity : Type} (uidOf : Entity → Uid) where
  cache : EntityCells ι uidOf
  generations : Generations

namespace EntityCacheState

variable {ι Uid Entity Err α : Type} {uidOf : Entity → Uid} [DecidableEq Uid]

/-- A capacity of zero is taken as one. -/
def new (capacity : Nat) : EntityCacheState ι uidOf :=
  ⟨.start (max capacity 1) (by omega), .new⟩

def sem (i : ι) : Sem (EntityCall uidOf) (EntityCall.Answer uidOf Err) (EntityCacheState ι uidOf)
  | .cache e, s, a, s' => CacheState.sem i e s.cache a s'.cache ∧ s'.generations = s.generations
  | .load c, s, (a : UInt64), s' => a = s.generations.counter c ∧ s' = s
  | .fetchAdd c, s, _, s' => s' = { s with generations := s.generations.fetchAdd c }

def Step (m : ι) (s s' : EntityCacheState ι uidOf) : Prop := CacheState.Step m s.cache s'.cache

variable {m : ι} {s : EntityCacheState ι uidOf}

theorem onCache_safe {p : EntityCacheProg uidOf Err α} {Q : α → EntityCells ι uidOf → Prop}
    (hp : p.SafeAmong CacheState.sem CacheState.Step m Q s.cache) :
    (onCache p).SafeAmong sem Step m (fun a s => Q a s.cache) s :=
  have hcall (e : CacheCall (EntityCacheKey Uid) (Produced (CachedEntities uidOf)))
      (s : EntityCacheState ι uidOf) (a : e.Answer Err) (s' : EntityCacheState ι uidOf)
      (hX : sem m (.cache e) s a s') : CacheState.sem m e s.cache a s'.cache := hX.1
  Prog.Safe.project (X := CacheState.sem m) (R := Pool.others CacheState.Step m)
    (G := CacheState.Step m) (f := EntityCall.cache) (g := EntityCacheState.cache) hcall
    (fun _ _ hothers => hothers) hp

theorem stable_of_step {I : EntityCells ι uidOf → Prop}
    (hI : ∀ m s s', CacheState.Step m s s' → I s → I s') (m : ι) :
    Stable (Pool.others (Step : ι → EntityCacheState ι uidOf → EntityCacheState ι uidOf → Prop) m)
      fun s => I s.cache := by
  rintro s s' h ⟨j, -, hstep⟩
  exact hI j s.cache s'.cache hstep h

def Counting : EntityCall uidOf → Prop
  | .cache _ => False
  | .load _ => True
  | .fetchAdd _ => True

theorem counting_safe {I : EntityCells ι uidOf → Prop}
    (hI : ∀ m s s', CacheState.Step m s s' → I s → I s') {p : EntityProg uidOf Err α}
    (hp : p.Only Counting) (hs : I s.cache) :
    p.SafeAmong sem Step m (fun _ s => I s.cache) s := by
  have hsame (e : EntityCall uidOf) (s : EntityCacheState ι uidOf) (a : e.Answer uidOf Err)
      (s' : EntityCacheState ι uidOf) (he : Counting e) (hX : sem m e s a s') : s'.cache = s.cache := by
    cases e with
    | cache e => exact he.elim
    | load c => rw [hX.2]
    | fetchAdd c => rw [show s' = _ from hX]
  refine (Prog.Within.safe hp (stable_of_step hI m) (fun e s a s' he hX hs => ?_) hs).conseq
    fun _ _ hpost => hpost.2
  have hcache := hsame e s a s' he hX
  constructor
  · show CacheState.Step m s.cache s'.cache
    rw [hcache]
    exact .refl m s.cache
  · rw [hcache]
    exact hs

omit [DecidableEq Uid] in
theorem bump_counting (c : GenerationCounter) :
    (EntityCache.bump c : EntityProg uidOf Err _).Only Counting :=
  ⟨trivial, fun _ => trivial⟩

omit [DecidableEq Uid] in
theorem snapshot_counting (stripe : Stripe Uid) (principal : Uid) (tenant : Option String)
    (resource : Uid) :
    (EntityCache.snapshot stripe principal tenant resource : EntityProg uidOf Err _).Only
      Counting := by
  refine ⟨trivial, fun _ => ⟨trivial, fun _ => ?_⟩⟩
  cases tenant with
  | none => exact ⟨trivial, fun _ => trivial⟩
  | some tenant => exact ⟨trivial, fun _ => ⟨trivial, fun _ => trivial⟩⟩

/-- Whatever its generation turns out to be, the request's entities are from a read of which `F`
holds. -/
theorem sharedEntitiesFor_safe (stripe : Stripe Uid) (ttlMicros : Nat)
    {request : EntityRequest Uid}
    {I : EntityCells ι uidOf → Prop}
    {Own : CellId → Prop} {F : Nat → Prop}
    (hloading : ∀ g, CacheState.Loading (request.key g) I Own (F ·.fetch)) (hs : I s.cache) :
    (EntityCache.sharedEntitiesFor stripe ttlMicros request : EntityProg uidOf Err _).SafeAmong
      sem Step m (fun r _ => ∀ v, r = some (.ok v) → F v.fetch) s := by
  have hkeep := (hloading default).keep
  refine Prog.Safe.bind (counting_safe hkeep (snapshot_counting stripe _ _ _) hs)
    fun g s hs => ?_
  refine Prog.Safe.map ((onCache_safe ((hloading g).getOrTryInsertWith_safe ttlMicros hs)).conseq
    fun r _ hr v hv => ?_)
  obtain ⟨hI, hgood⟩ := hr
  cases r with
  | none => cases hv
  | some r =>
    cases r with
    | error e => cases hv
    | ok cached =>
      obtain rfl := Except.ok.inj (Option.some.inj hv)
      exact hgood cached rfl

theorem bump_plain_safe (c : GenerationCounter)
    {p : EntityCacheProg uidOf Err α}
    (hp : p.Only CacheState.Plain) (hs : s.cache.Blank) :
    (do EntityCache.bump c; onCache p : EntityProg uidOf Err α).SafeAmong sem Step m
      (fun _ s => s.cache.Blank) s :=
  have hkeep (m : ι) (s s' : EntityCells ι uidOf)
      (hstep : CacheState.Step m s s') (h : s.Blank) : s'.Blank := h.step hstep
  Prog.Safe.bind (counting_safe hkeep (bump_counting c) hs) fun _ _ hs =>
    onCache_safe (CacheState.safe_of_plain hkeep (fun _ h => h) hp hs)

variable {cells fetches : Nat} {request : EntityRequest Uid}

def Invalidated (cells fetches : Nat) (request : EntityRequest Uid) (s : EntityCells ι uidOf) :
    Prop :=
  ∀ g, s.Invalidated cells fetches (request.key g)

theorem Invalidated.step {s s' : EntityCells ι uidOf}
    (h : Invalidated cells fetches request s) (hstep : CacheState.Step m s s') :
    Invalidated cells fetches request s' :=
  fun g => (h g).step hstep

theorem loading_invalidated (cells fetches : Nat) (request : EntityRequest Uid) (g : Generation) :
    CacheState.Loading (request.key g)
      (Invalidated cells fetches request : EntityCells ι uidOf → Prop) (cells ≤ ·) (fetches ≤ ·.fetch) where
  keep _ _ _ hstep h := h.step hstep
  blank _ h := (h g).blank
  entry _ entry h := (h g).entry entry
  slot _ c h := (h g).slot c
  made _ h := (h g).cells_le
  value _ c v h hc := (h g).value c hc v

theorem bump_drop_safe (c : GenerationCounter)
    (covers : EntityCacheKey Uid → Bool) (hcovers : ∀ g, covers (request.key g) = true)
    {f : Nat → Nat → α} (hs : s.cache.Since cells fetches) :
    (do
      EntityCache.bump c
      onCache (do
        let n : Nat ← ClockTtlCache.call (.dropInflight covers)
        let n' : Nat ← ClockTtlCache.call (.dropInner fun key _ => covers key)
        pure (f n n')) : EntityProg uidOf Err α).SafeAmong sem Step m
      (fun _ s => Invalidated cells fetches request s.cache) s :=
  Prog.Safe.bind (counting_safe (fun _ _ _ hstep h => CacheState.Since.step h hstep)
    (bump_counting c) hs) fun _ _ hs =>
      onCache_safe (Prog.Safe.forall fun g =>
        CacheState.drop_safe covers (fun key _ => covers key) (hcovers g) (fun _ => hcovers g) hs)

omit [DecidableEq Uid] in
theorem invalidateBy_plain (predicate : EntityCacheKey Uid → Bool) :
    (ClockTtlCache.invalidateBy predicate : EntityCacheProg uidOf Err Nat).Only
      CacheState.Plain :=
  ⟨trivial, fun _ => ⟨trivial, fun _ => trivial⟩⟩

omit [DecidableEq Uid] in
theorem invalidateEntriesBy_plain
    (predicate : EntityCacheKey Uid → Produced (CachedEntities uidOf) → Bool) :
    (ClockTtlCache.invalidateEntriesBy predicate : EntityCacheProg uidOf Err Nat).Only
      CacheState.Plain :=
  ⟨trivial, fun _ => trivial⟩

theorem invalidate_eq (stripe : Stripe Uid) (principal : Uid) (tenant : Option String)
    (resource action : Uid) :
    (EntityCache.invalidate stripe principal tenant resource action : EntityProg uidOf Err Unit) =
      ((do
        EntityCache.bump (.principal (stripe.uid principal))
        onCache (ClockTtlCache.invalidateBy fun key => key.principal = principal)) >>= fun _ =>
          pure ()) :=
  (bind_assoc _ _ _).symm

theorem invalidateResource_eq (stripe : Stripe Uid) (resource : Uid) :
    (EntityCache.invalidateResource stripe resource : EntityProg uidOf Err Nat) =
      ((do
        EntityCache.bump (.resource (stripe.uid resource))
        onCache (ClockTtlCache.invalidateBy fun key => key.resource = resource)) >>= fun own => do
          let held ← onCache (ClockTtlCache.invalidateEntriesBy fun _ cached =>
            cached.value.uids.contains resource)
          pure (own + held)) :=
  (bind_assoc _ _ _).symm

theorem run_safe (stripe : Stripe Uid) (ttlMicros : Nat) (op : EntityOp Uid)
    (hs : s.cache.Blank) :
    (op.run stripe ttlMicros : EntityProg uidOf Err _).SafeAmong sem Step m
      (fun _ _ => True) s := by
  have hby (c : GenerationCounter) (predicate : EntityCacheKey Uid → Bool) :
      (do EntityCache.bump c; onCache (ClockTtlCache.invalidateBy predicate) :
        EntityProg uidOf Err Nat).SafeAmong sem Step m
        (fun _ s => s.cache.Blank) s :=
    bump_plain_safe c (invalidateBy_plain predicate) hs
  cases op with
  | sharedEntitiesFor request =>
    exact Prog.Safe.map ((sharedEntitiesFor_safe (F := fun _ => True) stripe ttlMicros
      (fun g => CacheState.loading_blank (request.key g)) hs).conseq fun _ _ _ => trivial)
  | invalidate principal tenant resource action =>
    rw [EntityOp.run, invalidate_eq]
    exact Prog.Safe.map (Prog.Safe.map ((hby _ _).conseq fun _ _ _ => trivial))
  | invalidatePrincipal principal =>
    exact Prog.Safe.map ((hby _ _).conseq fun _ _ _ => trivial)
  | invalidateTenant tenant => exact Prog.Safe.map ((hby _ _).conseq fun _ _ _ => trivial)
  | invalidateAll =>
    have hall : (ClockTtlCache.invalidateAll : CacheProg (EntityCacheKey Uid)
        (Produced (CachedEntities uidOf)) Err Unit).Only CacheState.Plain :=
      ⟨trivial, fun _ => ⟨trivial, fun _ => trivial⟩⟩
    exact Prog.Safe.map ((bump_plain_safe .all hall hs).conseq fun _ _ _ => trivial)
  | invalidateResource resource =>
    rw [EntityOp.run, invalidateResource_eq]
    refine Prog.Safe.map (Prog.Safe.bind (hby _ _) fun _ s hs => ?_)
    exact Prog.Safe.map ((onCache_safe (CacheState.safe_of_plain
      (fun _ _ _ hstep h => CacheState.Blank.step h hstep) (fun _ h => h)
      (invalidateEntriesBy_plain _) hs)).conseq fun _ _ _ => trivial)

theorem covers_safe (stripe : Stripe Uid) (ttlMicros : Nat) {op : EntityOp Uid}
    (hop : op.Covers request) (hs : s.cache.Since cells fetches) :
    (op.run stripe ttlMicros : EntityProg uidOf Err _).SafeAmong sem Step m
      (fun _ s => Invalidated cells fetches request s.cache) s := by
  have hby (c : GenerationCounter) (covers : EntityCacheKey Uid → Bool)
      (hcovers : ∀ g, covers (request.key g) = true) :
      (do EntityCache.bump c; onCache (ClockTtlCache.invalidateBy covers) :
        EntityProg uidOf Err Nat).SafeAmong sem Step m
        (fun _ s => Invalidated cells fetches request s.cache) s :=
    bump_drop_safe (f := fun _ n => n) c covers hcovers hs
  cases op with
  | sharedEntitiesFor request => exact hop.elim
  | invalidate principal tenant resource action =>
    rw [EntityOp.run, invalidate_eq]
    exact Prog.Safe.map (Prog.Safe.map (hby _ _ fun _ => decide_eq_true hop.symm))
  | invalidatePrincipal principal =>
    exact Prog.Safe.map (hby _ _ fun _ => decide_eq_true hop.symm)
  | invalidateTenant tenant => exact Prog.Safe.map (hby _ _ fun _ => decide_eq_true hop)
  | invalidateAll =>
    exact Prog.Safe.map (bump_drop_safe .all (fun _ => true) (fun _ => rfl) hs)
  | invalidateResource resource =>
    rw [EntityOp.run, invalidateResource_eq]
    refine Prog.Safe.map (Prog.Safe.bind (hby _ _ fun _ => decide_eq_true hop.symm)
      fun _ s hs => ?_)
    -- the second pass over the entries only drops more
    exact Prog.Safe.map (onCache_safe (CacheState.safe_of_plain
      (fun _ _ _ hstep h => Invalidated.step h hstep) (fun _ h => (h default).blank)
      (invalidateEntriesBy_plain _) hs))

end EntityCacheState

/-- A request that begins after an invalidation of its principal, tenant or own resource has returned
is not served entities that the provider was asked for before the invalidation began. -/
theorem served_entities_are_read_later {ι Uid Entity Err : Type} {uidOf : Entity → Uid}
    [DecidableEq ι] [DecidableEq Uid] {stripe : Stripe Uid} {op : ι → EntityOp Uid}
    {ttlMicros capacity : Nat}
    {before returned later : Pool ι (EntityCall uidOf) (EntityCall.Answer uidOf Err)
      (EntityOutcome Entity Err) (EntityCacheState ι uidOf)}
    (hbefore : Pool.Reaches EntityCacheState.sem ⟨fun i => (op i).run stripe ttlMicros, .new capacity⟩
      before)
    {j : ι} (hidle : before.prog j = (op j).run stripe ttlMicros)
    (hreturned : Pool.Reaches EntityCacheState.sem before returned) {r : EntityOutcome Entity Err}
    (hj : returned.prog j = .ret r) {i : ι} {request : EntityRequest Uid}
    (hrequest : op i = .sharedEntitiesFor request) (hcovers : (op j).Covers request)
    (hnot : returned.prog i = (op i).run stripe ttlMicros)
    (hlater : Pool.Reaches EntityCacheState.sem returned later) {served : Produced (List Entity)}
    (hi : later.prog i = .ret (.served (some (.ok served)))) :
    before.state.cache.fetches ≤ served.fetch := by
  have hnew : (EntityCacheState.new capacity : EntityCacheState ι uidOf).cache.Blank :=
    CacheState.blank_start _ _
  have hstart : Pool.AllSafe EntityCacheState.sem EntityCacheState.Step (fun _ _ _ => True)
      (⟨fun i => (op i).run stripe ttlMicros, .new capacity⟩ : Pool ι (EntityCall uidOf)
        (EntityCall.Answer uidOf Err) (EntityOutcome Entity Err) _) :=
    fun i => EntityCacheState.run_safe stripe ttlMicros (op i) hnew
  have hblank : before.state.cache.Blank :=
    hbefore.invariant (I := fun s => s.cache.Blank) hstart (fun _ _ _ hstep h => h.step hstep) hnew
  have hsafe := hbefore.safe hstart
  have hinvalidated : EntityCacheState.Invalidated before.state.cache.cells before.state.cache.fetches
      request returned.state.cache :=
    hreturned.post_of hsafe
      (hidle ▸ EntityCacheState.covers_safe stripe ttlMicros hcovers hblank.since) hj
  have hlate : (returned.prog i).SafeAmong EntityCacheState.sem EntityCacheState.Step i
      (fun r _ => ∀ v, r = .served (some (.ok v)) → before.state.cache.fetches ≤ v.fetch)
      returned.state := by
    rw [hnot, hrequest]
    refine Prog.Safe.map ((EntityCacheState.sharedEntitiesFor_safe stripe ttlMicros
      (EntityCacheState.loading_invalidated _ _ request) hinvalidated).conseq fun r _ hr v hv => ?_)
    exact hr v (EntityOutcome.served.inj hv)
  exact hlater.post_of (hreturned.safe hsafe) hlate hi served rfl

namespace Suspended

def request : EntityRequest Nat := ⟨7, some "acme", 40, 1, none⟩

def op : Fin 3 → EntityOp Nat
  | 0 => .sharedEntitiesFor request
  | 1 => .invalidatePrincipal 7
  | 2 => .sharedEntitiesFor request

def stripe : Stripe Nat :=
  have pos : 0 < generationStripes := by decide
  ⟨fun _ => ⟨0, pos⟩, fun _ => ⟨0, pos⟩⟩

abbrev uidOf : Nat → Nat := id

abbrev State := EntityCacheState (Fin 3) uidOf

def answering : Pool.Answerer (Fin 3) Unit (EntityCall uidOf) (EntityCall.Answer uidOf Unit) State
  | i, _, .cache e, s =>
    let answered := CacheState.answer Unit i ⟨[7], [7], rfl⟩ e s.cache
    (answered.1, { s with cache := answered.2 })
  | _, _, .load c, s => (s.generations.counter c, s)
  | _, _, .fetchAdd c, s => ((), { s with generations := s.generations.fetchAdd c })

def enabled (i : Fin 3) (_ : Unit) : EntityCall uidOf → State → Bool
  | .cache e, s => CacheState.enabled i e s.cache
  | _, _ => true

theorem sem_answering (i : Fin 3) (x : Unit) (e : EntityCall uidOf) (s : State)
    (h : enabled i x e s = true) :
    EntityCacheState.sem i e s (answering i x e s).1 (answering i x e s).2 := by
  cases e with
  | cache e => exact ⟨CacheState.sem_answer h, rfl⟩
  | load c => exact ⟨rfl, rfl⟩
  | fetchAdd c => rfl

abbrev Requests := Pool (Fin 3) (EntityCall uidOf) (EntityCall.Answer uidOf Unit)
  (EntityOutcome Nat Unit) State

def before : Requests :=
  Pool.replay answering (Pool.turns [(9, 0, ())])
    ⟨fun i => (op i).run stripe 60000000, .new 8⟩

def returned : Requests := Pool.replay answering (Pool.turns [(3, 1, ())]) before

def later : Requests :=
  Pool.replay answering (Pool.turns [(5, 0, ()), (17, 2, ())]) returned

end Suspended

open Suspended in
theorem suspended_entities_are_read_later :
    later.prog 0 = .ret (.served (some (.ok ⟨[7], 0⟩))) ∧
    later.prog 2 = .ret (.served (some (.ok ⟨[7], 1⟩))) ∧ before.state.cache.fetches ≤ 1 := by
  have hsecond : later.prog 2 = .ret (.served (some (.ok ⟨[7], 1⟩))) :=
    Prog.eq_ret_of_returned rfl
  refine ⟨Prog.eq_ret_of_returned rfl, hsecond, ?_⟩
  have hbefore : Pool.Reaches EntityCacheState.sem ⟨fun i => (op i).run stripe 60000000, .new 8⟩
      before :=
    Pool.reaches_replay_of_admits sem_answering _ _ (by decide +kernel)
  have hreturned : Pool.Reaches EntityCacheState.sem before returned :=
    Pool.reaches_replay_of_admits sem_answering _ _ (by decide +kernel)
  have hlater : Pool.Reaches EntityCacheState.sem returned later :=
    Pool.reaches_replay_of_admits sem_answering _ _ (by decide +kernel)
  have hinvalidation : returned.prog 1 = .ret (.invalidated 0) := Prog.eq_ret_of_returned rfl
  exact served_entities_are_read_later (j := 1) (i := 2) hbefore rfl hreturned hinvalidation rfl
    rfl rfl hlater hsecond

end Axess
