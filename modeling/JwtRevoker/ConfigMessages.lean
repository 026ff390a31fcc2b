import JwtRevoker.RoleChange

/-!
# Configuration messages and division by zero

The parameters of the master go through the constructor of `Scheduler` to `init`, or
through `msgProcWorker` to `adjustFiltersParam`. Only `init` checks them, and the
constructor has divided by the rotation interval before that.
-/
namespace JwtRevoker

open EngineM Engine JsonText

/-- The call ended in a division by zero. -/
def Divides {α : Type} (x : Except Fault α) : Prop := x = .error .divisionByZero

variable {α β : Type} {hash : HashCalls} {utcOffset now : ℤ} {p : Params} {w w' : World}
  {e : Engine} {ops : List Op}

lemma divides_bind {x : Except Fault α} {f : α → Except Fault β} :
    Divides (x >>= f) ↔ Divides x ∨ ∃ a, x = .ok a ∧ Divides (f a) := by
  cases x with
  | error fault => simp [Divides, Bind.bind, Except.bind]
  | ok a => simp [Divides, Bind.bind, Except.bind]

@[simp] lemma not_divides_ok {a : α} : ¬ Divides (.ok a) := by simp [Divides]

lemma divides_ceilQuotient {a b : ℕ} : Divides (ceilQuotient a b) ↔ b = 0 := by
  unfold ceilQuotient Divides
  split_ifs with hb <;> simp [hb]

lemma not_divides_stol (s : Str) : ¬ Divides (stol s) := by
  unfold stol stoSigned Divides
  split
  · simp
  · dsimp only
    split_ifs <;> simp

lemma not_divides_foldlM {f : β → α → Except Fault β} (hf : ∀ b a, ¬ Divides (f b a)) (xs : List α)
    (b : β) : ¬ Divides (xs.foldlM f b) := by
  induction xs generalizing b with
  | nil => exact not_divides_ok
  | cons x xs ih =>
    rw [List.foldlM_cons, divides_bind]
    rintro (h | ⟨b', -, h⟩)
    · exact hf b x h
    · exact ih b' h

lemma not_divides_construct (size k : ℕ) : ¬ Divides (BaseBloomFilter.construct size k) := by
  unfold BaseBloomFilter.construct Divides
  split_ifs <;> simp

lemma not_divides_getNewFilters (n size k : ℕ) : ¬ Divides (getNewFilters n size k) := by
  refine not_divides_foldlM (fun newFilters _ => ?_) _ _
  rw [divides_bind]
  rintro (h | ⟨f, -, h⟩)
  · exact not_divides_construct _ _ h
  · exact not_divides_ok h

lemma not_divides_addToFirst (token : Str) (num : ℕ) (filters : List BaseBloomFilter) :
    ¬ Divides (addToFirst hash token num filters) := by
  refine not_divides_foldlM (fun filters i => ?_) _ _
  unfold addAt Divides
  split <;> simp

lemma not_divides_queryFrom (token : Str) (filters : List BaseBloomFilter) (i steps : ℕ) :
    ¬ Divides (queryFrom hash token filters i steps) := by
  induction steps generalizing i with
  | zero => exact not_divides_ok
  | succ steps ih =>
    unfold queryFrom
    split
    · simp [Divides]
    · split_ifs
      · exact ih (i + 1)
      · exact not_divides_ok

lemma not_divides_revokeJwt (hR : 0 < e.rotationInterval) (now : ℤ) (token : Str) (expTime : ℤ) :
    ¬ Divides (e.revokeJwt hash now token expTime) := by
  unfold Engine.revokeJwt
  dsimp only
  split_ifs
  · exact not_divides_ok
  · exact not_divides_ok
  · rw [ceilQuotient_of_pos hR, ok_bind]
    split_ifs
    · exact not_divides_ok
    · rw [divides_bind]
      rintro (h | ⟨filters, -, h⟩)
      · exact not_divides_addToFirst token _ _ h
      · exact not_divides_ok h

lemma not_divides_isRevoked (hR : 0 < e.rotationInterval) (now : ℤ) (token : Str) (expTime : ℤ) :
    ¬ Divides (e.isRevoked hash now token expTime) := by
  unfold Engine.isRevoked
  dsimp only
  split_ifs
  · exact not_divides_ok
  · exact not_divides_ok
  · rw [ceilQuotient_of_pos hR, ok_bind]
    split_ifs
    · exact not_divides_ok
    · exact not_divides_queryFrom token _ _ _

lemma not_divides_step (hR : 0 < e.rotationInterval) (op : Op) : ¬ Divides (e.step hash op) := by
  cases op with
  | revokeJwt token expTime now => exact not_divides_revokeJwt hR now token expTime
  | isRevoked token expTime now =>
    rw [Engine.step, divides_bind]
    rintro (h | ⟨answer, -, h⟩)
    · exact not_divides_isRevoked hR now token expTime h
    · exact not_divides_ok h
  | rotate now =>
    rw [Engine.step, rotateFilters]
    split
    · simp [Divides]
    · rw [divides_bind]
      rintro (h | ⟨filter, -, h⟩)
      · exact not_divides_construct _ _ h
      · exact not_divides_ok h

/-- With an interval other than 0 no run divides by zero, as no call changes it. -/
theorem not_divides_run (hR : 0 < e.rotationInterval) (ops : List Op) :
    ¬ Divides (e.run hash ops) := by
  induction ops generalizing e with
  | nil => exact not_divides_ok
  | cons op ops ih =>
    rw [Engine.run, List.foldlM_cons, divides_bind]
    rintro (h | ⟨e', hs, h⟩)
    · exact not_divides_step hR op h
    · refine ih ?_ h
      rw [(step_frame hs).1]
      exact hR

lemma not_divides_importLine (hR : 0 < e.rotationInterval) (now : ℤ)
    (filters : List BaseBloomFilter) (line : Str) :
    ¬ Divides (importLine hash now e filters line) := by
  unfold importLine
  split
  · exact not_divides_ok
  · rw [divides_bind]
    rintro (h | ⟨expTime, -, h⟩)
    · exact not_divides_stol _ h
    · unfold importRecord at h
      dsimp only at h
      split_ifs at h
      · exact not_divides_ok h
      · exact not_divides_ok h
      · exact not_divides_ok h
      · rw [ceilQuotient_of_pos hR, ok_bind] at h
        split_ifs at h
        · exact not_divides_ok h
        · exact not_divides_addToFirst _ _ _ h

lemma not_divides_importFiles (hR : 0 < e.rotationInterval) (now : ℤ) (dir : LogDir)
    (names : List Str) (filters : List BaseBloomFilter) :
    ¬ Divides (importFiles hash now e dir names filters) := by
  induction names generalizing filters with
  | nil => exact not_divides_ok
  | cons name names ih =>
    unfold importFiles
    split
    · exact not_divides_ok
    · rw [divides_bind]
      rintro (h | ⟨filters', -, h⟩)
      · exact not_divides_foldlM (not_divides_importLine hR now) _ _ h
      · exact ih filters' h

lemma divides_bind_engineM {x : EngineM α} {f : α → EngineM β} :
    Divides ((x >>= f) w).1 ↔
      Divides (x w).1 ∨ ∃ a w', Returns x w a w' ∧ Divides (f a w').1 := by
  unfold Returns
  rw [Scheduler.bind_apply]
  rcases x w with ⟨r, w₁⟩
  cases r <;> simp [Divides]

@[simp] lemma not_divides_update {f : World → World} : ¬ Divides (update f w).1 :=
  not_divides_ok

@[simp] lemma not_divides_world : ¬ Divides (EngineM.world w).1 := not_divides_ok

@[simp] lemma divides_lift {x : Except Fault α} : Divides (lift x w).1 ↔ Divides x := Iff.rfl

lemma divides_storeParams :
    Divides (storeParams p w).1 ↔ p.rotationInterval.toNat = 0 := by
  simp [storeParams, divides_bind_engineM, divides_ceilQuotient]

/-- The build divides by zero exactly when the interval is 0, before anything is built. -/
theorem divides_adjustFiltersParam :
    Divides (adjustFiltersParam hash utcOffset now p w).1 ↔ p.rotationInterval.toNat = 0 := by
  unfold adjustFiltersParam
  rw [divides_bind_engineM, divides_storeParams]
  refine or_iff_left ?_
  rintro ⟨⟨⟩, w₁, hstore, h⟩
  obtain ⟨hR, rfl⟩ := storeParams_returns.mp hstore
  simp only [divides_bind_engineM, not_divides_world, divides_lift, returns_world, returns_lift,
    returns_update, installFilters, not_divides_update, recoverFromLog, false_or] at h
  obtain ⟨_, _, ⟨rfl, rfl⟩, hnew | ⟨filters, _, ⟨-, rfl⟩, himport | ⟨_, _, -, ⟨⟩⟩⟩⟩ := h
  · exact not_divides_getNewFilters _ _ _ hnew
  · obtain ⟨_, _, ⟨rfl, rfl⟩, _, _, rfl, _, _, ⟨rfl, rfl⟩, himport⟩ := himport
    exact not_divides_importFiles hR now _ _ _ himport

lemma init_eq (hash : HashCalls) (utcOffset now : ℤ) (p : Params) (w : World) :
    Engine.init hash utcOffset now p w =
      if p.maxJwtLifeTime = 0 then
        (.error (.invalidArgument "maxJwtLifeTime cannot be 0."), w)
      else if p.rotationInterval = 0 then
        (.error (.invalidArgument "rotationInterval cannot be 0."), w)
      else if p.bloomFilterSize = 0 then
        (.error (.invalidArgument "bloomFilterSize cannot be 0."), w)
      else if p.hashFunctionNum = 0 then
        (.error (.invalidArgument "hashFunctionNum cannot be 0."), w)
      else adjustFiltersParam hash utcOffset now p w := by
  have hi : Engine.init hash utcOffset now p = (do
      require (p.maxJwtLifeTime ≠ 0) (.invalidArgument "maxJwtLifeTime cannot be 0.")
      require (p.rotationInterval ≠ 0) (.invalidArgument "rotationInterval cannot be 0.")
      require (p.bloomFilterSize ≠ 0) (.invalidArgument "bloomFilterSize cannot be 0.")
      require (p.hashFunctionNum ≠ 0) (.invalidArgument "hashFunctionNum cannot be 0.")
      adjustFiltersParam hash utcOffset now p) := rfl
  rw [hi]
  simp only [Scheduler.bind_apply, require, ite_not]
  split_ifs <;> rfl

/-- `init` throws at these parameters whatever the engine, the log and the clock are. -/
def InitRejects (p : Params) : Prop :=
  ∃ what, ∀ hash utcOffset now w,
    (Engine.init hash utcOffset now p w).1 = .error (.invalidArgument what)

/-- No parameter is 0, and if there is to be a filter, its size is a power of two in
the `unsigned int` it is built with. -/
def Accepted (p : Params) : Prop :=
  p.maxJwtLifeTime ≠ 0 ∧ p.rotationInterval ≠ 0 ∧ p.bloomFilterSize ≠ 0 ∧
    p.hashFunctionNum ≠ 0 ∧
    (p.maxJwtLifeTime.toNat < p.rotationInterval.toNat ∨
      (toUnsignedInt p.bloomFilterSize.toNat).isPowerOfTwo)

lemma getNewFilters_of_error {size k n : ℕ} {fault : Fault}
    (h : BaseBloomFilter.construct (toUnsignedInt size) k = .error fault) (hn : 0 < n) :
    getNewFilters n size k = .error fault := by
  induction n with
  | zero => exact absurd hn (lt_irrefl 0)
  | succ n ih =>
    rw [getNewFilters_succ]
    rcases Nat.eq_zero_or_pos n with rfl | hpos
    · rw [h]
      rfl
    · rw [ih hpos]
      rfl

lemma construct_eq_error {size k : ℕ} (hk : 0 < k) (hs : ¬ size.isPowerOfTwo) :
    ∃ what, BaseBloomFilter.construct size k = .error (.invalidArgument what) := by
  rw [← Nat.ne_zero_and_sub_one_eq_zero_iff_isPowerOfTwo] at hs
  unfold BaseBloomFilter.construct
  split_ifs with h0 hp hk0
  · exact ⟨_, rfl⟩
  · exact ⟨_, rfl⟩
  · omega
  · exact absurd ⟨h0, not_not.mp hp⟩ hs

lemma isPowerOfTwo_construct {size k : ℕ} (hk : 0 < k) (hs : size.isPowerOfTwo) :
    ∃ f, BaseBloomFilter.construct size k = .ok f := by
  obtain ⟨h0, hp⟩ := Nat.ne_zero_and_sub_one_eq_zero_iff_isPowerOfTwo.mpr hs
  exact BaseBloomFilter.construct_isOk size k (Nat.pos_of_ne_zero h0) hp hk

lemma toNat_pos_of_ne_zero {n : UInt32} (h : n ≠ 0) : 0 < n.toNat :=
  Nat.pos_of_ne_zero fun hz => h (UInt32.toNat_inj.mp hz)

lemma Accepted.getNewFilters_isOk (h : Accepted p) :
    ∃ filters, getNewFilters (p.maxJwtLifeTime.toNat / p.rotationInterval.toNat)
      p.bloomFilterSize.toNat p.hashFunctionNum.toNat = .ok filters := by
  obtain ⟨-, -, -, hK, hlt | hpow⟩ := h
  · exact ⟨[], by rw [Nat.div_eq_of_lt hlt]; rfl⟩
  · obtain ⟨f, hf⟩ := isPowerOfTwo_construct (toNat_pos_of_ne_zero hK) hpow
    exact ⟨_, getNewFilters_of_construct hf _⟩

/-- On a node without log files accepted parameters are put into force. -/
lemma init_returns_of_accepted (h : Accepted p) (hash : HashCalls) (utcOffset now : ℤ) :
    ∃ w', Returns (Engine.init hash utcOffset now p) ⟨{}, fun _ => none⟩ () w' := by
  obtain ⟨filters, hnew⟩ := h.getNewFilters_isOk
  obtain ⟨hM, hR, hS, hK, -⟩ := h
  have hnone : lookForHourFiles utcOffset now (fun _ => none) = [] := by
    simp [lookForHourFiles]
  refine ⟨⟨{ ({} : Engine).withParams p with filters := filters },
    deleteOthers [] fun _ => none⟩, init_returns.mpr ⟨⟨hM, hR, hS, hK⟩,
      toNat_pos_of_ne_zero hR, ?_, rfl, filters, hnew, ?_⟩⟩
  · rw [hnone]
  · rw [hnone]
    rfl

theorem initRejects_iff : InitRejects p ↔ ¬ Accepted p := by
  constructor
  · rintro ⟨what, hrejects⟩ h
    obtain ⟨w', hi⟩ := init_returns_of_accepted h (fun _ key => key.length) 0 0
    have hr := hrejects (fun _ key => key.length) 0 0 ⟨{}, fun _ => none⟩
    rw [Returns] at hi
    rw [hi] at hr
    cases hr
  · intro h
    unfold InitRejects
    simp only [init_eq]
    by_cases hM : p.maxJwtLifeTime = 0
    · exact ⟨_, fun _ _ _ _ => by rw [if_pos hM]⟩
    by_cases hR : p.rotationInterval = 0
    · exact ⟨_, fun _ _ _ _ => by rw [if_neg hM, if_pos hR]⟩
    by_cases hS : p.bloomFilterSize = 0
    · exact ⟨_, fun _ _ _ _ => by rw [if_neg hM, if_neg hR, if_pos hS]⟩
    by_cases hK : p.hashFunctionNum = 0
    · exact ⟨_, fun _ _ _ _ => by rw [if_neg hM, if_neg hR, if_neg hS, if_pos hK]⟩
    -- The checks pass, and the first filter is what throws.
    simp only [hM, hR, hS, hK, if_false]
    have hR' := toNat_pos_of_ne_zero hR
    obtain ⟨hle, hpow⟩ : p.rotationInterval.toNat ≤ p.maxJwtLifeTime.toNat ∧
        ¬ (toUnsignedInt p.bloomFilterSize.toNat).isPowerOfTwo := by
      rw [← not_lt, ← not_or]
      exact fun hsize => h ⟨hM, hR, hS, hK, hsize⟩
    obtain ⟨what, hc⟩ := construct_eq_error (toNat_pos_of_ne_zero hK) hpow
    refine ⟨what, ?_⟩
    intro hash utcOffset now w
    have hstore : storeParams p w = (.ok (), { w with engine := w.engine.withParams p }) :=
      storeParams_returns.mpr ⟨hR', rfl⟩
    have hnew := getNewFilters_of_error hc (Nat.div_pos hle hR')
    unfold adjustFiltersParam
    rw [Scheduler.bind_apply, hstore]
    simp only [Scheduler.bind_apply, world, lift, withParams, hnew]

namespace Scheduler

/-- The constructor with what `msgParse` made of the master's reply: it prints the
memory the filters are going to use, and then initialises the engine. -/
def construct (hash : HashCalls) (utcOffset now : ℤ) (event : Str) (data : Data) :
    EngineM Unit :=
  if event = "bloom_filter_default_config" then do
    let p ← lift (filterParams data)
    let _ ← lift (ceilQuotient p.maxJwtLifeTime.toNat p.rotationInterval.toNat)
    Engine.init hash utcOffset now p
  else raise (.runtimeError "Get bloom filter default config failed.")

/-- Neither the constructor nor a later call divides by zero. -/
def DefaultConfigSafe (data : Data) : Prop :=
  ∀ hash utcOffset now w,
    ¬ Divides (construct hash utcOffset now "bloom_filter_default_config" data w).1 ∧
    ∀ w', Returns (construct hash utcOffset now "bloom_filter_default_config" data) w () w' →
      ∀ ops, ¬ Divides (w'.engine.run hash ops)

/-- Neither the handling of the message nor a later call divides by zero, and what
`init` rejects is rejected, with the engine as it was. -/
def AdjustSafe (data : Data) (p : Params) : Prop :=
  ∀ J hash utcOffset now clientUid resolve write s,
    let outcome := adjustBloomFilter J hash utcOffset now clientUid resolve write data s
    outcome.1 ≠ .raises .divisionByZero ∧
    (outcome.1 = .returns → ∀ ops, ¬ Divides (outcome.2.world.engine.run hash ops)) ∧
    (InitRejects p → (∃ what, outcome.1 = .raises (.invalidArgument what)) ∧
      outcome.2.world.engine = s.world.engine)

variable {data : Data} {role : NodeRole} {s : State} {J : JsonLib} {clientUid : Str}
  {resolve : Str → ℕ → Except Fault Unit} {write : Str → Except Fault Unit}

lemma not_divides_atKey (data : Data) (key : Str) : ¬ Divides (data.atKey key) := by
  unfold Data.atKey Divides
  split <;> simp

/-- With the fields there, the order comes to the adjustment. -/
lemma adjustBloomFilter_of_params (hp : filterParams data = .ok p) (hrole : role ≠ .slaveNode)
    (h : data.atKey "node_role" = .ok role.text) :
    adjustBloomFilter J hash utcOffset now clientUid resolve write data s =
      adjustAndAcknowledge J hash utcOffset now clientUid role data p
        { s with nodeRole := role, connected := false } := by
  rw [adjustBloomFilter_of_role h, if_neg hrole, becomeOwner]
  simp only [hp]

/-- However the adjustment ends, unless by a division by zero, its parameters are stored. -/
lemma maxJwtLifeTime_of_adjust (hR : 0 < p.rotationInterval.toNat) :
    (adjustAndAcknowledge J hash utcOffset now clientUid role data p
      s).2.world.engine.maxJwtLifeTime = p.maxJwtLifeTime.toNat := by
  unfold adjustAndAcknowledge
  cases hadj : adjustFiltersParam hash utcOffset now p s.world with
  | mk outcome w =>
    cases outcome with
    | error fault =>
      dsimp only
      rw [engine_of_raised hR hadj]
      rfl
    | ok =>
      have hbuilt : Built hash utcOffset now p s.world w := adjustFiltersParam_returns.mp hadj
      dsimp only
      split <;> exact hbuilt.hasParams.maxJwtLifeTime

lemma fault_of_interval_zero (hR : p.rotationInterval.toNat = 0) :
    (adjustAndAcknowledge J hash utcOffset now clientUid role data p s).1 =
      .raises .divisionByZero := by
  have hdiv : Divides (adjustFiltersParam hash utcOffset now p s.world).1 :=
    divides_adjustFiltersParam.mpr hR
  unfold adjustAndAcknowledge
  cases hadj : adjustFiltersParam hash utcOffset now p s.world with
  | mk outcome w =>
    rw [hadj] at hdiv
    cases hdiv
    rfl

lemma safe_of_interval_pos (hR : 0 < p.rotationInterval.toNat) :
    (adjustAndAcknowledge J hash utcOffset now clientUid role data p s).1 ≠
        .raises .divisionByZero ∧
      ((adjustAndAcknowledge J hash utcOffset now clientUid role data p s).1 = .returns →
        ∀ ops, ¬ Divides ((adjustAndAcknowledge J hash utcOffset now clientUid role data p
          s).2.world.engine.run hash ops)) := by
  have hdiv : ¬ Divides (adjustFiltersParam hash utcOffset now p s.world).1 := fun h =>
    hR.ne' (divides_adjustFiltersParam.mp h)
  unfold adjustAndAcknowledge
  cases hadj : adjustFiltersParam hash utcOffset now p s.world with
  | mk outcome w =>
    rw [hadj] at hdiv
    cases outcome with
    | error fault =>
      refine ⟨fun h => hdiv ?_, fun h => Ending.noConfusion h⟩
      exact congrArg Except.error (Ending.raises.inj h)
    | ok =>
      have hbuilt : Built hash utcOffset now p s.world w := adjustFiltersParam_returns.mp hadj
      have hR' : 0 < w.engine.rotationInterval := hbuilt.hasParams.rotationInterval ▸ hR
      have huuid := not_divides_atKey data "uuid"
      dsimp only
      split
      · rename_i fault hfault
        refine ⟨fun h => huuid ?_, fun h => Ending.noConfusion h⟩
        rw [hfault]
        exact congrArg Except.error (Ending.raises.inj h)
      · exact ⟨fun h => Ending.noConfusion h, fun _ ops => not_divides_run hR' ops⟩

lemma divides_construct (hp : filterParams data = .ok p) :
    Divides (construct hash utcOffset now "bloom_filter_default_config" data w).1 ↔
      p.rotationInterval.toNat = 0 := by
  rw [construct, if_pos rfl, divides_bind_engineM, divides_lift, hp,
    or_iff_right not_divides_ok]
  constructor
  · rintro ⟨_, _, hret, h⟩
    obtain ⟨hok, rfl⟩ := returns_lift.mp hret
    cases hok
    rcases divides_bind_engineM.mp h with h | ⟨_, _, hret, h⟩
    · exact divides_ceilQuotient.mp h
    · obtain ⟨hquotient, rfl⟩ := returns_lift.mp hret
      have hR := (ceilQuotient_eq_ok hquotient).1
      rw [init_eq] at h
      split_ifs at h
      · exact absurd h (by simp [Divides])
      · exact absurd h (by simp [Divides])
      · exact absurd h (by simp [Divides])
      · exact absurd h (by simp [Divides])
      · exact divides_adjustFiltersParam.mp h
  · intro hR
    refine ⟨p, w, returns_lift.mpr ⟨rfl, rfl⟩, ?_⟩
    exact divides_bind_engineM.mpr (.inl (divides_ceilQuotient.mpr hR))

lemma built_of_construct (hp : filterParams data = .ok p)
    (h : Returns (construct hash utcOffset now "bloom_filter_default_config" data) w () w') :
    Built hash utcOffset now p w w' := by
  rw [construct, if_pos rfl] at h
  simp only [returns_bind, returns_lift] at h
  obtain ⟨_, _, ⟨hok, rfl⟩, _, _, ⟨-, rfl⟩, hinit⟩ := h
  rw [hp] at hok
  cases hok
  exact (init_returns.mp hinit).2

/-- A rejection leaves its trace in an engine that had another lifetime. -/
lemma not_rejected_before_use (hs : s.world.engine.maxJwtLifeTime ≠ p.maxJwtLifeTime.toNat) :
    ¬ ((∃ what, (adjustAndAcknowledge J hash utcOffset now clientUid role data p s).1 =
        .raises (.invalidArgument what)) ∧
      (adjustAndAcknowledge J hash utcOffset now clientUid role data p s).2.world.engine =
        s.world.engine) := by
  rintro ⟨⟨what, hraised⟩, hsame⟩
  rcases Nat.eq_zero_or_pos p.rotationInterval.toNat with hR | hR
  · rw [fault_of_interval_zero hR] at hraised
    cases hraised
  · rw [← hsame] at hs
    exact hs (maxJwtLifeTime_of_adjust hR)

/-- The default configuration is safe exactly when its interval is not read as 0, an
adjustment exactly when `init` accepts its parameters. -/
theorem config_messages_safe_iff (hp : filterParams data = .ok p) :
    (DefaultConfigSafe data ↔ p.rotationInterval.toNat ≠ 0) ∧
    ∀ role ≠ NodeRole.slaveNode, data.atKey "node_role" = .ok role.text →
      (AdjustSafe data p ↔ Accepted p) := by
  refine ⟨⟨fun h hR => ?_, fun hR hash utcOffset now w => ⟨?_, fun w' hret ops => ?_⟩⟩,
    fun role hrole hnode => ⟨fun h => ?_, fun h => ?_⟩⟩
  · exact (h (fun _ key => key.length) 0 0 ⟨{}, fun _ => none⟩).1 ((divides_construct hp).mpr hR)
  · rw [divides_construct hp]
    exact hR
  · refine not_divides_run ?_ ops
    rw [(built_of_construct hp hret).hasParams.rotationInterval]
    exact Nat.pos_of_ne_zero hR
  · by_contra hn
    have hsafe := h jsonText (fun _ key => key.length) 0 0 [] (fun _ _ => .ok ())
      (fun _ => .ok ()) { world :=
        ⟨{ maxJwtLifeTime := p.maxJwtLifeTime.toNat + 1 }, fun _ => none⟩ }
    rw [adjustBloomFilter_of_params hp hrole hnode] at hsafe
    refine not_rejected_before_use ?_ (hsafe.2.2 (initRejects_iff.mpr hn))
    exact Nat.succ_ne_self _
  · intro J hash utcOffset now clientUid resolve write s
    rw [adjustBloomFilter_of_params hp hrole hnode]
    have hsafe := @safe_of_interval_pos hash utcOffset now p data role
      { s with nodeRole := role, connected := false } J clientUid (toNat_pos_of_ne_zero h.2.1)
    exact ⟨hsafe.1, hsafe.2, fun hrejects => absurd h (initRejects_iff.mp hrejects)⟩

theorem config_messages_safe_iff_day :
    filterParams (configData "86400" "3600" "1024" "3") = .ok ⟨86400, 3600, 1024, 3⟩ ∧
    (DefaultConfigSafe (configData "86400" "3600" "1024" "3") ↔ 3600 ≠ 0) ∧
    ∀ role ≠ NodeRole.slaveNode,
      (configData "86400" "3600" "1024" "3").atKey "node_role" = .ok role.text →
      (AdjustSafe (configData "86400" "3600" "1024" "3") ⟨86400, 3600, 1024, 3⟩ ↔
        Accepted ⟨86400, 3600, 1024, 3⟩) :=
  have hp : filterParams (configData "86400" "3600" "1024" "3") =
      .ok ⟨86400, 3600, 1024, 3⟩ := by decide +kernel
  ⟨hp, config_messages_safe_iff hp⟩

/-- An interval that is no number is read as 0: the constructor divides by it, and so
does an adjustment; a lifetime of 0 is rejected by `init` and put into force by an
adjustment. -/
theorem unchecked_parameters :
    (construct (fun _ key => key.length) 0 0 "bloom_filter_default_config"
        (configData "86400" "one day" "1024" "3") ⟨{}, fun _ => none⟩).1 =
      .error .divisionByZero ∧
    (adjustBloomFilter jsonText (fun _ key => key.length) 0 0 "uid" (fun _ _ => .ok ())
        (fun _ => .ok ()) (configData "86400" "one day" "1024" "3")
        { world := ⟨{}, fun _ => none⟩ }).1 = .raises .divisionByZero ∧
    (init (fun _ key => key.length) 0 0 ⟨0, 3600, 1024, 3⟩ ⟨{}, fun _ => none⟩).1 =
      .error (.invalidArgument "maxJwtLifeTime cannot be 0.") ∧
    ∃ w', Returns (adjustFiltersParam (fun _ key => key.length) 0 0 ⟨0, 3600, 1024, 3⟩)
      ⟨{}, fun _ => none⟩ () w' ∧ w'.engine.filters = [] :=
  ⟨by decide +kernel, by decide +kernel, rfl, _, returns_of_ok rfl, rfl⟩

end Scheduler

end JwtRevoker
