import JwtRevoker.Engine

/-!
# The engine refines a rotating window

One spec lemma for each engine call on an engine in shape, and the refinement:
after any run the filters are the rotating window of the run's accepted
revocations and rotations.
-/
namespace JwtRevoker

namespace Engine

variable {hash : HashCalls} {e e' : Engine} {now expTime : ℤ} {token : Str}

lemma slots_le (h : e.Shaped) {remainingTime : ℤ} (ha : e.Accepts remainingTime) :
    e.slots remainingTime ≤ e.filters.length := by
  have hle : remainingTime.toNat ≤ e.maxJwtLifeTime := by have := ha.2; omega
  rw [h.length_filters, h.filtersNum_eq]
  exact Nat.div_le_div_right hle

/-- An accepted lifetime passes the checks of the two calls. -/
lemma passes_of_accepts (h : e.Shaped) {remainingTime : ℤ} (ha : e.Accepts remainingTime) :
    ¬ remainingTime ≤ 0 ∧ ¬ remainingTime > e.maxJwtLifeTime ∧
      ¬ e.slots remainingTime > e.filtersNum := by
  have hs := slots_le h ha
  rw [h.length_filters] at hs
  obtain ⟨hpos, hmax⟩ := ha
  exact ⟨by omega, by omega, by omega⟩

lemma rejected_of_not_accepts {remainingTime : ℤ} (ha : ¬ e.Accepts remainingTime) :
    remainingTime ≤ 0 ∨ remainingTime > e.maxJwtLifeTime := by
  by_contra hn
  exact ha ⟨by omega, by omega⟩

lemma revokeJwt_eq (h : e.Shaped) (hash : HashCalls) (now : ℤ) (token : Str) (expTime : ℤ) :
    e.revokeJwt hash now token expTime = .ok (
      if e.Accepts (expTime - now) then
        { e with
          filters := RotatingWindow.putPrefix (BaseBloomFilter.add hash)
            (e.slots (expTime - now)) token e.filters }
      else e) := by
  unfold revokeJwt
  by_cases ha : e.Accepts (expTime - now)
  · have hs := slots_le h ha
    obtain ⟨h1, h2, hn⟩ := passes_of_accepts h ha
    simp only [h1, h2, if_false, ha, if_true, ceilQuotient_of_pos h.interval_pos]
    change (if e.slots (expTime - now) > e.filtersNum then _ else _) = _
    rw [if_neg hn]
    change (addToFirst hash token (e.slots (expTime - now)) e.filters >>= _) = _
    rw [addToFirst_eq hash token hs]
    rfl
  · rw [if_neg ha]
    rcases rejected_of_not_accepts ha with h1 | h2
    · simp [h1]
    · simp [h2]

lemma revokeJwt_frame (h : e.revokeJwt hash now token expTime = .ok e') :
    e' = { e with filters := e'.filters } := by
  unfold revokeJwt at h
  dsimp only at h
  split_ifs at h with h1 h2
  · cases h
    rfl
  · cases h
    rfl
  · obtain ⟨num, -, h⟩ := bind_eq_ok.mp h
    split_ifs at h
    · cases h
      rfl
    · obtain ⟨filters, -, h⟩ := bind_eq_ok.mp h
      cases h
      rfl

lemma isRevoked_eq (h : e.Shaped) (hash : HashCalls) (now : ℤ) (token : Str) (expTime : ℤ) :
    e.isRevoked hash now token expTime = .ok (decide (e.Reports hash now token expTime)) := by
  unfold isRevoked
  by_cases ha : e.Accepts (expTime - now)
  · have hs := slots_le h ha
    obtain ⟨h1, h2, hn⟩ := passes_of_accepts h ha
    simp only [h1, h2, if_false, ceilQuotient_of_pos h.interval_pos]
    change (if e.slots (expTime - now) > e.filtersNum then _ else _) = _
    rw [if_neg hn]
    change queryFrom hash token e.filters 0 (e.slots (expTime - now)) = _
    rw [queryFrom_eq hash token e.filters (by omega), List.drop_zero]
    refine congrArg Except.ok (Bool.eq_iff_iff.mpr ?_)
    simp [Reports, ha]
  · have hr : ¬ e.Reports hash now token expTime := fun hr => ha hr.1
    rw [decide_eq_false hr]
    rcases rejected_of_not_accepts ha with h1 | h2
    · simp [h1]
    · simp [h2]

lemma isRevoked_eq_true_iff (h : e.Shaped) :
    e.isRevoked hash now token expTime = .ok true ↔ e.Reports hash now token expTime := by
  simp [isRevoked_eq h]

lemma rotateFilters_eq_ok (h : e.rotateFilters = .ok e') :
    e.filters ≠ [] ∧ ∃ filter,
      BaseBloomFilter.construct e.bloomFilterSize e.hashFunctionNum = .ok filter ∧
        e' = { e with filters := RotatingWindow.rotate filter e.filters } := by
  unfold rotateFilters at h
  cases hf : e.filters with
  | nil => simp [hf] at h
  | cons f rest =>
    rw [hf] at h
    obtain ⟨filter, hc, h⟩ := bind_eq_ok.mp h
    cases h
    exact ⟨by simp, filter, hc, by rw [RotatingWindow.rotate, List.tail_cons]⟩

lemma rotateFilters_of_construct {filter : BaseBloomFilter} (hne : e.filters ≠ [])
    (hc : BaseBloomFilter.construct e.bloomFilterSize e.hashFunctionNum = .ok filter) :
    e.rotateFilters = .ok { e with filters := RotatingWindow.rotate filter e.filters } := by
  obtain ⟨f, rest, hf⟩ := List.exists_cons_of_ne_nil hne
  rw [rotateFilters, hf, hc, RotatingWindow.rotate]
  rfl

/-- No call changes the parameters or the length of the vector. -/
lemma step_frame {op : Op} (h : e.step hash op = .ok e') :
    e' = { e with filters := e'.filters } ∧ e'.filters.length = e.filters.length := by
  cases op with
  | revokeJwt token expTime now =>
    refine ⟨revokeJwt_frame h, ?_⟩
    change e.revokeJwt hash now token expTime = .ok e' at h
    unfold Engine.revokeJwt at h
    dsimp only at h
    split_ifs at h
    · cases h
      rfl
    · cases h
      rfl
    · obtain ⟨num, -, h⟩ := bind_eq_ok.mp h
      split_ifs at h
      · cases h
        rfl
      · obtain ⟨filters, hf, h⟩ := bind_eq_ok.mp h
        cases h
        exact addToFirst_eq_ok hf
  | isRevoked token expTime now =>
    obtain ⟨answer, -, h⟩ := bind_eq_ok.mp h
    cases h
    exact ⟨rfl, rfl⟩
  | rotate now =>
    obtain ⟨hne, filter, -, rfl⟩ := rotateFilters_eq_ok h
    exact ⟨rfl, RotatingWindow.length_rotate filter (List.length_pos_iff.mpr hne)⟩

lemma run_frame {ops : List Op} (h : e.run hash ops = .ok e') :
    e' = { e with filters := e'.filters } := by
  induction ops generalizing e with
  | nil =>
    cases h
    rfl
  | cons op ops ih =>
    rw [Engine.run, List.foldlM_cons] at h
    obtain ⟨e₁, h₁, h⟩ := bind_eq_ok.mp h
    have he := ih h
    rw [(step_frame h₁).1] at he
    exact he

lemma Shaped.step {op : Op} (h : e.Shaped) (hs : e.step hash op = .ok e') : e'.Shaped := by
  obtain ⟨he, hlen⟩ := step_frame hs
  have hlen' : e'.filters.length = e.filtersNum := hlen.trans h.length_filters
  rw [he]
  exact ⟨h.interval_pos, h.filtersNum_eq, hlen'⟩

lemma Shaped.run {ops : List Op} (h : e.Shaped) (hr : e.run hash ops = .ok e') : e'.Shaped := by
  induction ops generalizing e with
  | nil =>
    cases hr
    exact h
  | cons op ops ih =>
    rw [Engine.run, List.foldlM_cons] at hr
    obtain ⟨e₁, hs, hr⟩ := bind_eq_ok.mp hr
    exact ih (h.step hs) hr

/-- What an operation does to the window, for given parameters. -/
def Op.event? (maxJwtLifeTime rotationInterval : ℕ) : Op → Option (RotatingWindow.Event Str)
  | .revokeJwt token expTime now =>
      if 0 < expTime - now ∧ expTime - now ≤ maxJwtLifeTime then
        some (.put ((expTime - now).toNat / rotationInterval) token)
      else none
  | .isRevoked .. => none
  | .rotate _ => some .shift

def windowEvents (maxJwtLifeTime rotationInterval : ℕ) (ops : List Op) :
    List (RotatingWindow.Event Str) :=
  ops.filterMap (Op.event? maxJwtLifeTime rotationInterval)

lemma windowEvents_append (m r : ℕ) (ops ops' : List Op) :
    windowEvents m r (ops ++ ops') = windowEvents m r ops ++ windowEvents m r ops' :=
  List.filterMap_append

lemma depth_le_of_mem_windowEvents {m r : ℕ} {ops : List Op} :
    ∀ depth item, RotatingWindow.Event.put depth item ∈ windowEvents m r ops → depth ≤ m / r := by
  intro depth item h
  obtain ⟨op, -, hop⟩ := List.mem_filterMap.mp h
  cases op with
  | revokeJwt token expTime now =>
    simp only [Op.event?] at hop
    split_ifs at hop with ha
    cases hop
    exact Nat.div_le_div_right (by have := ha.2; omega)
  | isRevoked => cases hop
  | rotate => cases hop

/-- The engine's window holds exactly what `history` left in it: `blank` is the
filter its window was filled with, of the size a new window narrows to. -/
structure HasHistory (hash : HashCalls) (blank : BaseBloomFilter) (e : Engine)
    (history : List Op) : Prop where
  interval_pos : 0 < e.rotationInterval
  filtersNum_eq : e.filtersNum = e.maxJwtLifeTime / e.rotationInterval
  filtersNum_pos : 0 < e.filtersNum
  construct_blank :
    BaseBloomFilter.construct (toUnsignedInt e.bloomFilterSize) e.hashFunctionNum = .ok blank
  filters_eq : e.filters = RotatingWindow.run (BaseBloomFilter.add hash) blank
    (List.replicate e.filtersNum blank) (windowEvents e.maxJwtLifeTime e.rotationInterval history)

lemma HasHistory.shaped {blank : BaseBloomFilter} {history : List Op}
    (h : e.HasHistory hash blank history) : e.Shaped := by
  have hpos : 0 < (List.replicate e.filtersNum blank).length := by
    rw [List.length_replicate]
    exact h.filtersNum_pos
  refine ⟨h.interval_pos, h.filtersNum_eq, ?_⟩
  rw [h.filters_eq, RotatingWindow.length_run _ _ hpos, List.length_replicate]

/-- A size that both constructors accept was not narrowed. -/
theorem toUnsignedInt_eq_self {size k : ℕ} {f g : BaseBloomFilter}
    (hf : BaseBloomFilter.construct (toUnsignedInt size) k = .ok f)
    (hg : BaseBloomFilter.construct size k = .ok g) : toUnsignedInt size = size := by
  obtain ⟨n, rfl⟩ := BaseBloomFilter.isPowerOfTwo_of_construct hg
  have hpos : 0 < toUnsignedInt (2 ^ n) := (BaseBloomFilter.construct_eq_ok hf).1 ▸ f.size_pos
  unfold toUnsignedInt at hpos ⊢
  refine Nat.mod_eq_of_lt (Nat.pow_lt_pow_right (by omega) ?_)
  by_contra hn
  have hd : 2 ^ 32 ∣ 2 ^ n := Nat.pow_dvd_pow 2 (by omega)
  rw [Nat.mod_eq_zero_of_dvd hd] at hpos
  exact absurd hpos (lt_irrefl 0)

lemma HasHistory.step {blank : BaseBloomFilter} {history : List Op} {op : Op}
    (h : e.HasHistory hash blank history) (hs : e.step hash op = .ok e') :
    ∃ filters, e' = { e with filters := filters } ∧
      e'.HasHistory hash blank (history ++ [op]) := by
  have hw : ∀ filters, filters = RotatingWindow.run (BaseBloomFilter.add hash) blank
      (List.replicate e.filtersNum blank)
      (windowEvents e.maxJwtLifeTime e.rotationInterval history ++
        windowEvents e.maxJwtLifeTime e.rotationInterval [op]) →
      HasHistory hash blank { e with filters := filters } (history ++ [op]) := by
    intro filters hf
    rw [← windowEvents_append] at hf
    exact ⟨h.interval_pos, h.filtersNum_eq, h.filtersNum_pos, h.construct_blank, hf⟩
  cases op with
  | revokeJwt token expTime now =>
    rw [Engine.step, revokeJwt_eq h.shaped] at hs
    cases hs
    split_ifs with ha
    · refine ⟨_, rfl, hw _ ?_⟩
      have ha' : 0 < expTime - now ∧ expTime - now ≤ e.maxJwtLifeTime := ha
      have he : windowEvents e.maxJwtLifeTime e.rotationInterval [.revokeJwt token expTime now] =
          [.put (e.slots (expTime - now)) token] := by
        rw [windowEvents, List.filterMap_cons, Op.event?, if_pos ha']
        rfl
      rw [he, RotatingWindow.run_append_singleton, ← h.filters_eq]
      rfl
    · refine ⟨e.filters, rfl, hw e.filters ?_⟩
      have ha' : ¬ (0 < expTime - now ∧ expTime - now ≤ e.maxJwtLifeTime) := ha
      have he : windowEvents e.maxJwtLifeTime e.rotationInterval [.revokeJwt token expTime now] =
          [] := by
        rw [windowEvents, List.filterMap_cons, Op.event?, if_neg ha']
        rfl
      rw [he, List.append_nil]
      exact h.filters_eq
  | isRevoked token expTime now =>
    rw [Engine.step, isRevoked_eq h.shaped] at hs
    cases hs
    refine ⟨e.filters, rfl, hw e.filters ?_⟩
    exact h.filters_eq.trans (congrArg _ (List.append_nil _).symm)
  | rotate now =>
    obtain ⟨-, filter, hc, rfl⟩ := rotateFilters_eq_ok hs
    have hb : filter = blank := by
      have hc' := h.construct_blank
      rw [toUnsignedInt_eq_self h.construct_blank hc, hc] at hc'
      exact Except.ok.inj hc'
    refine ⟨_, rfl, hw _ ?_⟩
    change _ = RotatingWindow.run _ _ _ (_ ++ [.shift])
    rw [RotatingWindow.run_append_singleton, ← h.filters_eq, hb]
    rfl

lemma HasHistory.run {blank : BaseBloomFilter} {history : List Op} {ops : List Op}
    (h : e.HasHistory hash blank history) (hr : e.run hash ops = .ok e') :
    ∃ filters, e' = { e with filters := filters } ∧
      e'.HasHistory hash blank (history ++ ops) := by
  induction ops generalizing e history with
  | nil =>
    cases hr
    exact ⟨_, rfl, by simpa using h⟩
  | cons op ops ih =>
    rw [Engine.run, List.foldlM_cons] at hr
    obtain ⟨e₁, hs, hr⟩ := bind_eq_ok.mp hr
    obtain ⟨filters₁, rfl, h₁⟩ := h.step hs
    obtain ⟨filters, rfl, h₂⟩ := ih h₁ hr
    exact ⟨filters, rfl, by simpa using h₂⟩

/-- No run stops when the size fits an `unsigned int`. -/
theorem HasHistory.run_isOk {blank : BaseBloomFilter} {history : List Op}
    (h : e.HasHistory hash blank history) (hsize : e.bloomFilterSize < 2 ^ 32) (ops : List Op) :
    ∃ e', e.run hash ops = .ok e' := by
  induction ops generalizing e history with
  | nil => exact ⟨e, rfl⟩
  | cons op ops ih =>
    have hstep : ∃ e₁, e.step hash op = .ok e₁ := by
      cases op with
      | revokeJwt token expTime now => exact ⟨_, revokeJwt_eq h.shaped hash now token expTime⟩
      | isRevoked token expTime now =>
        exact ⟨e, by rw [Engine.step, isRevoked_eq h.shaped]; rfl⟩
      | rotate now =>
        have hc := h.construct_blank
        rw [toUnsignedInt, Nat.mod_eq_of_lt hsize] at hc
        have hne : e.filters ≠ [] := by
          have hl := h.shaped.length_filters
          have hp := h.filtersNum_pos
          rintro hnil
          rw [hnil, List.length_nil] at hl
          omega
        exact ⟨_, rotateFilters_of_construct hne hc⟩
    obtain ⟨e₁, hs⟩ := hstep
    obtain ⟨filters₁, rfl, h₁⟩ := h.step hs
    obtain ⟨e', hr⟩ := ih h₁ hsize
    exact ⟨e', by rw [Engine.run, List.foldlM_cons, hs]; exact hr⟩

end Engine

end JwtRevoker
