import JwtRevoker.ProxyQuery
import JwtRevoker.StepRuns

/-!
# Calls while the parameters are adjusted

`adjustFiltersParam` in three steps: it stores the new parameters, builds the new
filters and loads the log into them, and swaps the vector. The mutex it holds for
the swap is not taken by `revokeJwt` and `isRevoked`, whose calls fall between the
steps and walk the old vector under the new parameters.
-/
namespace JwtRevoker.AdjustCalls

open EngineM Engine StepRuns

/-- How far the message thread is with an adjustment. -/
inductive Phase
  | idle
  | stored
  | loaded (filters : List BaseBloomFilter)

structure State where
  world : World
  phase : Phase := .idle

inductive Action
  | store (p : Params)
  | load (now : ℤ)
  | swap
  | call (op : Op)

/-- The second step: new filters for the stored parameters, with the log loaded. -/
def loadNew (hash : HashCalls) (utcOffset now : ℤ) : EngineM (List BaseBloomFilter) := do
  let w ← world
  let filters ← lift
    (getNewFilters w.engine.filtersNum w.engine.bloomFilterSize w.engine.hashFunctionNum)
  recoverFromLog hash utcOffset now filters

/-- One step; there is none when the action is not enabled or throws. -/
def step (hash : HashCalls) (utcOffset : ℤ) (s : State) : Action → Option State
  | .store p =>
      match s.phase, storeParams p s.world with
      | .idle, (.ok _, w) => some ⟨w, .stored⟩
      | _, _ => none
  | .load now =>
      match s.phase, loadNew hash utcOffset now s.world with
      | .stored, (.ok filters, w) => some ⟨w, .loaded filters⟩
      | _, _ => none
  | .swap =>
      match s.phase with
      | .loaded filters => some ⟨(installFilters filters s.world).2, .idle⟩
      | _ => none
  | .call op =>
      match s.world.engine.step hash op with
      | .ok e => some { s with world := { s.world with engine := e } }
      | .error _ => none

/-- Every filter index accessed by the call is below the size of the vector. -/
def InRange (hash : HashCalls) (s : State) : Action → Prop
  | .call op => ∀ index size, s.world.engine.step hash op ≠ .error (.badIndex index size)
  | _ => True

/-- The vector in place is as long as the new parameters ask for. -/
def Covering (s : State) : Action → Prop
  | .store p =>
      p.maxJwtLifeTime.toNat / p.rotationInterval.toNat ≤ s.world.engine.filters.length
  | _ => True

/-- Every adjustment of the run is one to `p`. -/
def OnlyTo (p : Params) (_ : State) : Action → Prop
  | .store q => q = p
  | _ => True

/-- What the steps do when they are taken. -/
inductive Steps (hash : HashCalls) (utcOffset : ℤ) (s : State) : Action → State → Prop
  | store {p : Params} : s.phase = .idle → 0 < p.rotationInterval.toNat →
      Steps hash utcOffset s (.store p)
        ⟨{ s.world with engine := s.world.engine.withParams p }, .stored⟩
  | load {now : ℤ} {filters : List BaseBloomFilter} {w : World} : s.phase = .stored →
      Returns (loadNew hash utcOffset now) s.world filters w →
      Steps hash utcOffset s (.load now) ⟨w, .loaded filters⟩
  | swap {filters : List BaseBloomFilter} : s.phase = .loaded filters →
      Steps hash utcOffset s .swap
        ⟨{ s.world with engine := { s.world.engine with filters := filters } }, .idle⟩
  | call {op : Op} {e : Engine} : s.world.engine.step hash op = .ok e →
      Steps hash utcOffset s (.call op) { s with world := { s.world with engine := e } }

/-- The parameters divide and the vector is long enough for them. -/
structure Covered (e : Engine) : Prop where
  interval_pos : 0 < e.rotationInterval
  filtersNum_eq : e.filtersNum = e.maxJwtLifeTime / e.rotationInterval
  filtersNum_le : e.filtersNum ≤ e.filters.length

variable {hash : HashCalls} {utcOffset now expTime : ℤ} {e e' : Engine} {s s' : State} {a : Action}
  {p : Params} {w w' : World} {token : Str} {num : ℕ} {filters filters' : List BaseBloomFilter}

lemma steps_of_step (h : step hash utcOffset s a = some s') : Steps hash utcOffset s a s' := by
  cases a with
  | store p =>
    simp only [step] at h
    split at h
    · rename_i w hphase hstore
      cases h
      obtain ⟨hpos, rfl⟩ := storeParams_returns.mp hstore
      exact .store hphase hpos
    · cases h
  | load now =>
    simp only [step] at h
    split at h
    · rename_i filters w hphase hload
      cases h
      exact .load hphase hload
    · cases h
  | swap =>
    simp only [step] at h
    split at h
    · rename_i filters hphase
      cases h
      exact .swap hphase
    · cases h
  | call op =>
    simp only [step] at h
    split at h
    · rename_i e hcall
      cases h
      exact .call hcall
    · cases h

/-- The write loop leaves a vector that is too short at its end. -/
theorem addToFirst_of_length_lt (hash : HashCalls) (token : Str) (h : filters.length < num) :
    addToFirst hash token num filters =
      .error (.badIndex filters.length filters.length) := by
  induction num with
  | zero => exact absurd h (Nat.not_lt_zero _)
  | succ num ih =>
    rw [addToFirst_succ]
    rcases Nat.lt_succ_iff_lt_or_eq.mp h with hlt | heq
    · rw [ih hlt]
      rfl
    · rw [addToFirst_eq hash token heq.ge, ok_bind, addAt, List.getElem?_eq_none]
      · rw [RotatingWindow.length_putPrefix, heq]
      · rw [RotatingWindow.length_putPrefix, heq]

lemma Covered.slots_le (h : Covered e) {remainingTime : ℤ} (ha : remainingTime ≤ e.maxJwtLifeTime) :
    remainingTime.toNat / e.rotationInterval ≤ e.filters.length := by
  have hle : remainingTime.toNat ≤ e.maxJwtLifeTime := by omega
  calc remainingTime.toNat / e.rotationInterval
      ≤ e.maxJwtLifeTime / e.rotationInterval := Nat.div_le_div_right hle
    _ = e.filtersNum := h.filtersNum_eq.symm
    _ ≤ e.filters.length := h.filtersNum_le

lemma Covered.revokeJwt_isOk (h : Covered e) (hash : HashCalls) (now : ℤ) (token : Str)
    (expTime : ℤ) : ∃ e', e.revokeJwt hash now token expTime = .ok e' := by
  unfold Engine.revokeJwt
  dsimp only
  split_ifs with h1 h2
  · exact ⟨e, rfl⟩
  · exact ⟨e, rfl⟩
  · rw [ceilQuotient_of_pos h.interval_pos, ok_bind]
    split_ifs
    · exact ⟨e, rfl⟩
    · rw [addToFirst_eq hash token (h.slots_le (not_lt.mp h2))]
      exact ⟨_, rfl⟩

lemma Covered.isRevoked_isOk (h : Covered e) (hash : HashCalls) (now : ℤ) (token : Str)
    (expTime : ℤ) : ∃ answer, e.isRevoked hash now token expTime = .ok answer := by
  unfold Engine.isRevoked
  dsimp only
  split_ifs with h1 h2
  · exact ⟨false, rfl⟩
  · exact ⟨false, rfl⟩
  · rw [ceilQuotient_of_pos h.interval_pos, ok_bind]
    split_ifs
    · exact ⟨false, rfl⟩
    · have hs := h.slots_le (not_lt.mp h2)
      exact ⟨_, queryFrom_eq hash token e.filters (by omega)⟩

/-- With a vector too short for the parameters, a revocation for the full lifetime
leaves it. -/
lemma revokeJwt_of_length_lt (hR : 0 < e.rotationInterval)
    (hn : e.filtersNum = e.maxJwtLifeTime / e.rotationInterval)
    (hlt : e.filters.length < e.filtersNum) (hash : HashCalls) (token : Str) :
    e.revokeJwt hash 0 token e.maxJwtLifeTime =
      .error (.badIndex e.filters.length e.filters.length) := by
  have hM : 0 < e.maxJwtLifeTime := by
    have hpos : 0 < e.maxJwtLifeTime / e.rotationInterval := by omega
    exact lt_of_lt_of_le hR (Nat.div_pos_iff.mp hpos).2
  have h1 : ¬ (e.maxJwtLifeTime : ℤ) - 0 ≤ 0 := by omega
  have h2 : ¬ (e.maxJwtLifeTime : ℤ) - 0 > e.maxJwtLifeTime := by omega
  have hnum : ((e.maxJwtLifeTime : ℤ) - 0).toNat / e.rotationInterval = e.filtersNum := by
    rw [hn, Int.sub_zero, Int.toNat_natCast]
  unfold Engine.revokeJwt
  dsimp only
  rw [if_neg h1, if_neg h2, ceilQuotient_of_pos hR, ok_bind, hnum, if_neg (lt_irrefl _),
    addToFirst_of_length_lt hash token hlt]
  rfl

lemma Covered.withFilters (h : Covered e) (hlen : e.filters.length ≤ filters.length) :
    Covered { e with filters := filters } :=
  ⟨h.interval_pos, h.filtersNum_eq, h.filtersNum_le.trans hlen⟩

/-- The second step leaves the engine alone and makes new filters for its parameters,
with a run of revocations on them. -/
lemma loadNew_run (hR : 0 < w.engine.rotationInterval)
    (hn : w.engine.filtersNum = w.engine.maxJwtLifeTime / w.engine.rotationInterval)
    (h : Returns (loadNew hash utcOffset now) w filters w') :
    w'.engine = w.engine ∧ Shaped { w.engine with filters := filters } ∧
      ∃ fresh ops, FreshFilters w.engine fresh ∧
        Engine.run hash { w.engine with filters := fresh } ops =
          .ok { w.engine with filters := filters } := by
  simp only [loadNew, returns_bind, returns_world, returns_lift, recoverFromLog_returns] at h
  obtain ⟨_, _, ⟨rfl, rfl⟩, fresh, _, ⟨hnew, rfl⟩, rfl, hi⟩ := h
  have hfresh : FreshFilters w.engine fresh := ⟨hR, hn, hnew⟩
  obtain ⟨hs, hr⟩ := importFiles_run hfresh.shaped (isSome_deleteOthers utcOffset now w.logDir)
    ((importFiles_withFilters ..).trans hi)
  exact ⟨rfl, hs, fresh, _, hfresh, hr⟩

/-- What the steps keep as long as every adjustment finds a vector long enough. -/
structure Inv (s : State) : Prop where
  covered : Covered s.world.engine
  loaded : ∀ filters, s.phase = .loaded filters → filters.length = s.world.engine.filtersNum

lemma Inv.step (hi : Inv s) (hc : Covering s a) (h : step hash utcOffset s a = some s') :
    Inv s' := by
  cases steps_of_step h with
  | store hphase hpos => exact ⟨⟨hpos, rfl, hc⟩, fun _ hl => Phase.noConfusion hl⟩
  | load hphase hload =>
    obtain ⟨he, hs, -⟩ := loadNew_run hi.covered.interval_pos hi.covered.filtersNum_eq hload
    refine ⟨he ▸ hi.covered, ?_⟩
    intro filters' hl
    cases hl
    rw [he]
    exact hs.length_filters
  | swap hphase =>
    exact ⟨⟨hi.covered.interval_pos, hi.covered.filtersNum_eq, (hi.loaded _ hphase).ge⟩,
      fun _ hl => Phase.noConfusion hl⟩
  | @call op e hcall =>
    obtain ⟨he, hlen⟩ := step_frame hcall
    refine ⟨he ▸ hi.covered.withFilters hlen.ge, ?_⟩
    intro filters hl
    change filters.length = e.filtersNum
    rw [hi.loaded filters hl, he]

lemma rotateFilters_ne_badIndex (e : Engine) (index size : ℕ) :
    e.rotateFilters ≠ .error (.badIndex index size) := by
  unfold rotateFilters
  split
  · simp
  · unfold BaseBloomFilter.construct
    split_ifs <;> simp [Bind.bind, Except.bind, Pure.pure, Except.pure]

lemma Inv.inRange (hi : Inv s) : InRange hash s a := by
  cases a with
  | call op =>
    intro index size h
    cases op with
    | revokeJwt token expTime now =>
      obtain ⟨e, he⟩ := hi.covered.revokeJwt_isOk hash now token expTime
      rw [Engine.step, he] at h
      cases h
    | isRevoked token expTime now =>
      obtain ⟨answer, he⟩ := hi.covered.isRevoked_isOk hash now token expTime
      rw [Engine.step, he] at h
      cases h
    | rotate now => exact rotateFilters_ne_badIndex _ _ _ h
  | store | load | swap => trivial

/-- The steps of a run of adjustments to `p` from a vector long enough for it. -/
structure InvTo (p : Params) (s : State) : Prop where
  inv : Inv s
  length_ge : p.maxJwtLifeTime.toNat / p.rotationInterval.toNat ≤ s.world.engine.filters.length
  stored : s.phase ≠ .idle →
    s.world.engine.filtersNum = p.maxJwtLifeTime.toNat / p.rotationInterval.toNat

lemma InvTo.covering (hi : InvTo p s) (ho : OnlyTo p s a) : Covering s a := by
  cases a with
  | store q =>
    obtain rfl : q = p := ho
    exact hi.length_ge
  | load | swap | call => trivial

lemma InvTo.step (hi : InvTo p s) (ho : OnlyTo p s a) (h : step hash utcOffset s a = some s') :
    InvTo p s' := by
  have hinv := hi.inv.step (hi.covering ho) h
  cases steps_of_step h with
  | @store q hphase hpos =>
    obtain rfl : q = p := ho
    exact ⟨hinv, hi.length_ge, fun _ => rfl⟩
  | load hphase hload =>
    obtain ⟨he, -⟩ := loadNew_run hi.inv.covered.interval_pos
      hi.inv.covered.filtersNum_eq hload
    have hstored := hi.stored (by simp [hphase])
    exact ⟨hinv, he ▸ hi.length_ge, fun _ => he ▸ hstored⟩
  | @swap filters hphase =>
    have hlen : filters.length = p.maxJwtLifeTime.toNat / p.rotationInterval.toNat :=
      (hi.inv.loaded _ hphase).trans (hi.stored (by simp [hphase]))
    exact ⟨hinv, hlen.ge, fun hne => absurd rfl hne⟩
  | @call op e hcall =>
    obtain ⟨he, hlen⟩ := step_frame hcall
    refine ⟨hinv, hlen ▸ hi.length_ge, ?_⟩
    intro hne
    change e.filtersNum = _
    rw [he]
    exact hi.stored hne

/-- The three steps without a call in between are `adjustFiltersParam`. -/
theorem adjustFiltersParam_of_run
    (hrun : run (step hash utcOffset) ⟨w, .idle⟩ [.store p, .load now, .swap] = some s) :
    Returns (adjustFiltersParam hash utcOffset now p) w () s.world ∧ s.phase = .idle := by
  obtain ⟨s₁, h₁, hrun⟩ := run_cons_eq_some.mp hrun
  obtain ⟨s₂, h₂, hrun⟩ := run_cons_eq_some.mp hrun
  obtain ⟨s₃, h₃, hrun⟩ := run_cons_eq_some.mp hrun
  cases hrun
  cases steps_of_step h₁ with | store _ hpos =>
  cases steps_of_step h₂ with | load _ hload =>
  cases steps_of_step h₃ with | swap hphase =>
  cases hphase
  have hstore : Returns (storeParams p) w () { w with engine := w.engine.withParams p } :=
    storeParams_returns.mpr ⟨hpos, rfl⟩
  simp only [loadNew, returns_bind] at hload
  obtain ⟨_, _, hworld, fresh, _, hnew, hrecover⟩ := hload
  refine ⟨?_, rfl⟩
  simp only [adjustFiltersParam, returns_bind]
  exact ⟨(), _, hstore, _, _, hworld, fresh, _, hnew, _, _, hrecover, rfl⟩

/-- From any state of an engine: when every adjustment finds a vector as long as
its parameters ask for, all calls stay in range; and those between the steps of
adjustments to `p` stay in range exactly when the first of them finds one. -/
theorem calls_in_range_iff (hw : Reachable hash w) (utcOffset : ℤ) :
    (∀ actions, AllSteps (step hash utcOffset) Covering ⟨w, .idle⟩ actions →
      AllSteps (step hash utcOffset) (InRange hash) ⟨w, .idle⟩ actions) ∧
    ∀ p : Params,
      (∀ actions, AllSteps (step hash utcOffset) (OnlyTo p) ⟨w, .idle⟩ actions →
        AllSteps (step hash utcOffset) (InRange hash) ⟨w, .idle⟩ actions) ↔
      p.maxJwtLifeTime.toNat / p.rotationInterval.toNat ≤ w.engine.filters.length := by
  have hs := hw.shaped
  have hinv : Inv ⟨w, .idle⟩ :=
    ⟨⟨hs.interval_pos, hs.filtersNum_eq, hs.length_filters.ge⟩, fun _ hl => Phase.noConfusion hl⟩
  have hcovering (actions : List Action)
      (hall : AllSteps (step hash utcOffset) Covering ⟨w, .idle⟩ actions) :
      AllSteps (step hash utcOffset) (InRange hash) ⟨w, .idle⟩ actions :=
    allSteps_of_inv (fun _ _ _ hi hc h => hi.step hc h) (fun _ _ hi _ => hi.inRange) hinv hall
  refine ⟨hcovering, fun p => ⟨fun h => ?_, fun hlen actions hall => ?_⟩⟩
  · by_contra hlt
    rw [not_le] at hlt
    have hpos : 0 < p.maxJwtLifeTime.toNat / p.rotationInterval.toNat := by omega
    have hstore : step hash utcOffset ⟨w, .idle⟩ (.store p) =
        some ⟨{ w with engine := w.engine.withParams p }, .stored⟩ := by
      have hret : Returns (storeParams p) w () { w with engine := w.engine.withParams p } :=
        storeParams_returns.mpr ⟨(Nat.div_pos_iff.mp hpos).1, rfl⟩
      rw [Returns] at hret
      simp only [step, hret]
    -- The call comes right after the parameters were stored.
    have hall := h [.store p, .call (.revokeJwt [] p.maxJwtLifeTime.toNat 0)]
      ⟨rfl, by rw [hstore]; exact ⟨trivial, by split <;> trivial⟩⟩
    rw [allSteps_cons hstore] at hall
    have hfault : (w.engine.withParams p).revokeJwt hash 0 []
        (w.engine.withParams p).maxJwtLifeTime =
        .error (.badIndex w.engine.filters.length w.engine.filters.length) :=
      revokeJwt_of_length_lt (Nat.div_pos_iff.mp hpos).1 rfl hlt hash []
    exact hall.2.1 _ _ hfault
  · have hinvTo : InvTo p ⟨w, .idle⟩ := ⟨hinv, hlen, fun hne => absurd rfl hne⟩
    exact hcovering actions (allSteps_of_inv (fun _ _ _ hi ho h => InvTo.step hi ho h)
      (fun _ _ hi ho => InvTo.covering hi ho) hinvTo hall)

theorem calls_in_range_iff_three_slots :
    ∃ w, Reachable (fun _ key => key.length) w ∧
      (∀ actions, AllSteps (step (fun _ key => key.length) 0) Covering ⟨w, .idle⟩ actions →
        AllSteps (step (fun _ key => key.length) 0) (InRange fun _ key => key.length)
          ⟨w, .idle⟩ actions) ∧
      ∀ p : Params,
        (∀ actions, AllSteps (step (fun _ key => key.length) 0) (OnlyTo p) ⟨w, .idle⟩ actions →
          AllSteps (step (fun _ key => key.length) 0) (InRange fun _ key => key.length)
            ⟨w, .idle⟩ actions) ↔
        p.maxJwtLifeTime.toNat / p.rotationInterval.toNat ≤ w.engine.filters.length := by
  have hi : Returns (Engine.init (fun _ key => key.length) 0 0 ⟨30, 10, 8, 1⟩)
      ⟨{}, fun _ => none⟩ () _ := returns_of_ok rfl
  exact ⟨_, .init hi, calls_in_range_iff (.init hi) 0⟩

/-- An engine with one slot is adjusted to three, and a revocation comes after
the new parameters are stored. -/
theorem revocation_out_of_range :
    ∃ w s, Reachable (fun _ key => key.length) w ∧
      step (fun _ key => key.length) 0 ⟨w, .idle⟩ (.store ⟨30, 10, 8, 1⟩) = some s ∧
      s.world.engine.step (fun _ key => key.length) (.revokeJwt "a" 25 0) =
        .error (.badIndex 1 1) :=
  ⟨_, _, .init (show Returns (Engine.init (fun _ key => key.length) 0 0 ⟨10, 10, 8, 1⟩)
    ⟨{}, fun _ => none⟩ () _ from returns_of_ok rfl), rfl, rfl⟩

end JwtRevoker.AdjustCalls
