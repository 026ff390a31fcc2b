import JwtRevoker.RevocationLog

/-!
# Building and rebuilding the window

`init` and `adjustFiltersParam` as calls that may end in a fault and keep the
state they leave in either case, and the history of a window that was built from
the log: every record read counts as a revocation at the time of the build.
-/
namespace JwtRevoker

/-- The engine and the log directory it works on. -/
structure World where
  engine : Engine := {}
  logDir : LogDir

/-- A call on the engine: its outcome and the state it leaves. -/
def EngineM (α : Type) := World → Except Fault α × World

instance : Monad EngineM where
  pure a := fun w => (.ok a, w)
  bind x f := fun w =>
    match x w with
    | (.ok a, w') => f a w'
    | (.error fault, w') => (.error fault, w')

namespace EngineM

def raise {α : Type} (fault : Fault) : EngineM α := fun w => (.error fault, w)

def lift {α : Type} (x : Except Fault α) : EngineM α := fun w => (x, w)

def world : EngineM World := fun w => (.ok w, w)

def update (f : World → World) : EngineM Unit := fun w => (.ok (), f w)

def require (condition : Prop) [Decidable condition] (fault : Fault) : EngineM Unit :=
  if condition then pure () else raise fault

/-- The call returns `a` and leaves the state `w'`. -/
def Returns {α : Type} (x : EngineM α) (w : World) (a : α) (w' : World) : Prop := x w = (.ok a, w')

variable {α β : Type} {w w' : World}

lemma returns_of_ok {x : EngineM α} {a : α} (h : (x w).1 = .ok a) : Returns x w a (x w).2 :=
  Prod.ext h rfl

@[simp] lemma returns_pure {a b : α} : Returns (pure a) w b w' ↔ a = b ∧ w = w' := by
  change (Except.ok a, w) = (Except.ok b, w') ↔ _
  simp

@[simp] lemma returns_bind {x : EngineM α} {f : α → EngineM β} {b : β} :
    Returns (x >>= f) w b w' ↔ ∃ a w₁, Returns x w a w₁ ∧ Returns (f a) w₁ b w' := by
  have hb : (x >>= f) w = match x w with
      | (.ok a, w₁) => f a w₁
      | (.error fault, w₁) => (.error fault, w₁) := rfl
  unfold Returns
  rw [hb]
  rcases x w with ⟨r, w₁⟩
  cases r <;> simp

@[simp] lemma returns_lift {x : Except Fault α} {a : α} :
    Returns (lift x) w a w' ↔ x = .ok a ∧ w = w' := by
  simp [Returns, lift]

@[simp] lemma returns_world {a : World} : Returns world w a w' ↔ w = a ∧ w = w' := by
  simp [Returns, world]

@[simp] lemma returns_update {f : World → World} {u : Unit} :
    Returns (update f) w u w' ↔ f w = w' := by
  simp [Returns, update]

@[simp] lemma returns_require {condition : Prop} [Decidable condition] {fault : Fault} {u : Unit} :
    Returns (require condition fault) w u w' ↔ condition ∧ w = w' := by
  unfold require
  split_ifs with h
  · simp [h]
  · simp [Returns, raise, h]

end EngineM

open EngineM

namespace Engine

def storeParams (p : Params) : EngineM Unit := do
  update fun w => { w with engine := { w.engine with
    maxJwtLifeTime := p.maxJwtLifeTime.toNat
    rotationInterval := p.rotationInterval.toNat
    bloomFilterSize := p.bloomFilterSize.toNat
    hashFunctionNum := p.hashFunctionNum.toNat } }
  let w ← world
  let filtersNum ← lift (ceilQuotient w.engine.maxJwtLifeTime w.engine.rotationInterval)
  update fun w => { w with engine := { w.engine with filtersNum := filtersNum } }

def recoverFromLog (hash : HashCalls) (utcOffset now : ℤ) (filters : List BaseBloomFilter) :
    EngineM (List BaseBloomFilter) := do
  let w ← world
  let foundFiles := lookForHourFiles utcOffset now w.logDir
  update fun w => { w with logDir := deleteOthers foundFiles w.logDir }
  let w ← world
  lift (importFiles hash now w.engine w.logDir foundFiles filters)

def installFilters (filters : List BaseBloomFilter) : EngineM Unit :=
  update fun w => { w with engine := { w.engine with filters := filters } }

def adjustFiltersParam (hash : HashCalls) (utcOffset now : ℤ) (p : Params) : EngineM Unit := do
  storeParams p
  let w ← world
  let filters ← lift
    (getNewFilters w.engine.filtersNum w.engine.bloomFilterSize w.engine.hashFunctionNum)
  let filters ← recoverFromLog hash utcOffset now filters
  installFilters filters

/-- After its four checks `init` does what `adjustFiltersParam` does. -/
def init (hash : HashCalls) (utcOffset now : ℤ) (p : Params) : EngineM Unit := do
  require (p.maxJwtLifeTime ≠ 0) (.invalidArgument "maxJwtLifeTime cannot be 0.")
  require (p.rotationInterval ≠ 0) (.invalidArgument "rotationInterval cannot be 0.")
  require (p.bloomFilterSize ≠ 0) (.invalidArgument "bloomFilterSize cannot be 0.")
  require (p.hashFunctionNum ≠ 0) (.invalidArgument "hashFunctionNum cannot be 0.")
  storeParams p
  let w ← world
  let filters ← lift
    (getNewFilters w.engine.filtersNum w.engine.bloomFilterSize w.engine.hashFunctionNum)
  let filters ← recoverFromLog hash utcOffset now filters
  installFilters filters

def withParams (e : Engine) (p : Params) : Engine :=
  { e with
    maxJwtLifeTime := p.maxJwtLifeTime.toNat
    rotationInterval := p.rotationInterval.toNat
    bloomFilterSize := p.bloomFilterSize.toNat
    hashFunctionNum := p.hashFunctionNum.toNat
    filtersNum := p.maxJwtLifeTime.toNat / p.rotationInterval.toNat }

/-- The engine runs with the parameters of `p`. -/
structure HasParams (e : Engine) (p : Params) : Prop where
  maxJwtLifeTime : e.maxJwtLifeTime = p.maxJwtLifeTime.toNat
  rotationInterval : e.rotationInterval = p.rotationInterval.toNat
  bloomFilterSize : e.bloomFilterSize = p.bloomFilterSize.toNat
  hashFunctionNum : e.hashFunctionNum = p.hashFunctionNum.toNat
  filtersNum : e.filtersNum = p.maxJwtLifeTime.toNat / p.rotationInterval.toNat

lemma HasParams.withFilters {e : Engine} {p : Params} (h : e.HasParams p)
    (filters : List BaseBloomFilter) :
    HasParams { e with filters := filters } p :=
  ⟨h.maxJwtLifeTime, h.rotationInterval, h.bloomFilterSize, h.hashFunctionNum, h.filtersNum⟩

/-- What a build that returns has done: fresh filters, the found files imported
into them, every other file deleted, the result installed. -/
structure Built (hash : HashCalls) (utcOffset now : ℤ) (p : Params) (w w' : World) : Prop where
  interval_pos : 0 < p.rotationInterval.toNat
  logDir_eq : w'.logDir = deleteOthers (lookForHourFiles utcOffset now w.logDir) w.logDir
  engine_eq : w'.engine = { w.engine.withParams p with filters := w'.engine.filters }
  filters_eq : ∃ filters,
    getNewFilters (p.maxJwtLifeTime.toNat / p.rotationInterval.toNat) p.bloomFilterSize.toNat
      p.hashFunctionNum.toNat = .ok filters ∧
    importFiles hash now (w.engine.withParams p) w'.logDir
      (lookForHourFiles utcOffset now w.logDir) filters = .ok w'.engine.filters

variable {hash : HashCalls} {utcOffset now : ℤ} {p : Params} {w w' : World}

lemma storeParams_returns {u : Unit} :
    Returns (storeParams p) w u w' ↔
      0 < p.rotationInterval.toNat ∧ w' = { w with engine := w.engine.withParams p } := by
  simp only [storeParams, returns_bind, returns_update, returns_world, returns_lift]
  constructor
  · rintro ⟨-, _, rfl, _, _, ⟨rfl, rfl⟩, _, _, ⟨hq, rfl⟩, rfl⟩
    obtain ⟨hpos, rfl⟩ := ceilQuotient_eq_ok hq
    exact ⟨hpos, rfl⟩
  · rintro ⟨hpos, rfl⟩
    exact ⟨(), _, rfl, _, _, ⟨rfl, rfl⟩, _, _, ⟨ceilQuotient_of_pos hpos _, rfl⟩, rfl⟩

lemma recoverFromLog_returns {filters filters' : List BaseBloomFilter} :
    Returns (recoverFromLog hash utcOffset now filters) w filters' w' ↔
      w' = { w with logDir := deleteOthers (lookForHourFiles utcOffset now w.logDir) w.logDir } ∧
        importFiles hash now w'.engine w'.logDir (lookForHourFiles utcOffset now w.logDir) filters =
          .ok filters' := by
  simp only [recoverFromLog, returns_bind, returns_update, returns_world, returns_lift]
  constructor
  · rintro ⟨_, _, ⟨rfl, rfl⟩, -, _, rfl, _, _, ⟨rfl, rfl⟩, hi, rfl⟩
    exact ⟨rfl, hi⟩
  · rintro ⟨rfl, hi⟩
    exact ⟨_, _, ⟨rfl, rfl⟩, (), _, rfl, _, _, ⟨rfl, rfl⟩, hi, rfl⟩

lemma adjustFiltersParam_returns {u : Unit} :
    Returns (adjustFiltersParam hash utcOffset now p) w u w' ↔
      Built hash utcOffset now p w w' := by
  simp only [adjustFiltersParam, installFilters, returns_bind, returns_update, returns_world,
    returns_lift, storeParams_returns, recoverFromLog_returns]
  constructor
  · rintro ⟨-, _, ⟨hpos, rfl⟩, _, _, ⟨rfl, rfl⟩, fs, _, ⟨hfs, rfl⟩, fs', _, ⟨rfl, hi⟩, rfl⟩
    exact ⟨hpos, rfl, rfl, fs, hfs, hi⟩
  · rintro ⟨hpos, hdir, heng, fs, hfs, hi⟩
    rw [hdir] at hi
    refine ⟨(), _, ⟨hpos, rfl⟩, _, _, ⟨rfl, rfl⟩, fs, _, ⟨hfs, rfl⟩, _, _, ⟨rfl, hi⟩, ?_⟩
    obtain ⟨engine, logDir⟩ := w'
    subst hdir
    exact congrArg (World.mk · _) heng.symm

lemma init_returns {u : Unit} :
    Returns (init hash utcOffset now p) w u w' ↔
      (p.maxJwtLifeTime ≠ 0 ∧ p.rotationInterval ≠ 0 ∧ p.bloomFilterSize ≠ 0 ∧
        p.hashFunctionNum ≠ 0) ∧ Built hash utcOffset now p w w' := by
  have hi : init hash utcOffset now p = (do
      require (p.maxJwtLifeTime ≠ 0) (.invalidArgument "maxJwtLifeTime cannot be 0.")
      require (p.rotationInterval ≠ 0) (.invalidArgument "rotationInterval cannot be 0.")
      require (p.bloomFilterSize ≠ 0) (.invalidArgument "bloomFilterSize cannot be 0.")
      require (p.hashFunctionNum ≠ 0) (.invalidArgument "hashFunctionNum cannot be 0.")
      adjustFiltersParam hash utcOffset now p) := rfl
  rw [hi]
  simp only [returns_bind, returns_require, adjustFiltersParam_returns]
  constructor
  · rintro ⟨-, _, ⟨h1, rfl⟩, -, _, ⟨h2, rfl⟩, -, _, ⟨h3, rfl⟩, -, _, ⟨h4, rfl⟩, h⟩
    exact ⟨⟨h1, h2, h3, h4⟩, h⟩
  · rintro ⟨⟨h1, h2, h3, h4⟩, h⟩
    exact ⟨(), _, ⟨h1, rfl⟩, (), _, ⟨h2, rfl⟩, (), _, ⟨h3, rfl⟩, (), _, ⟨h4, rfl⟩, h⟩

lemma Built.hasParams (h : Built hash utcOffset now p w w') : w'.engine.HasParams p := by
  rw [h.engine_eq]
  exact ⟨rfl, rfl, rfl, rfl, rfl⟩

end Engine

end JwtRevoker
