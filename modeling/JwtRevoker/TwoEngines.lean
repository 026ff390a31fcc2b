import JwtRevoker.NestedSlots
import JwtRevoker.TwoWindows

/-!
# Two engines under the same calls

A rotation for each slot wipes out whatever an engine held, so that two engines with
the same parameters hold the same from then on. Revocations made in addition to those
of a run never make a query answer false that answered true.
-/
namespace JwtRevoker

open EngineM

namespace BaseBloomFilter

/-- `g` has the parameters of `f`, all its bits and at least its count. -/
structure Within (f g : BaseBloomFilter) : Prop where
  size_eq : f.bloomFilterSize = g.bloomFilterSize
  hashFunctionNum_eq : f.hashFunctionNum = g.hashFunctionNum
  bits : ∀ b, f.IsSet b → g.IsSet b
  msgNum_le : f.msgNum ≤ g.msgNum

lemma Within.refl (f : BaseBloomFilter) : f.Within f := ⟨rfl, rfl, fun _ hb => hb, le_rfl⟩

variable {f g : BaseBloomFilter}

lemma Within.add_right (h : f.Within g) (hash : HashCalls) (key : Str) :
    f.Within (g.add hash key) := by
  refine ⟨by simp [h.size_eq], by simp [h.hashFunctionNum_eq], fun b hb => ?_, ?_⟩
  · rw [isSet_add]
    exact .inr (h.bits b hb)
  · rw [add_msgNum]
    exact h.msgNum_le.trans (Nat.le_succ _)

lemma Within.add (h : f.Within g) (hash : HashCalls) (key : Str) :
    (f.add hash key).Within (g.add hash key) := by
  refine ⟨by simp [h.size_eq], by simp [h.hashFunctionNum_eq], fun b hb => ?_, ?_⟩
  · rw [isSet_add] at hb ⊢
    rw [← h.size_eq, ← h.hashFunctionNum_eq]
    exact hb.imp_right (h.bits b)
  · simp [h.msgNum_le]

lemma Within.contains (h : f.Within g) {hash : HashCalls} {key : Str}
    (hf : f.contains hash key = true) : g.contains hash key = true := by
  rw [contains_iff] at hf ⊢
  rw [← h.size_eq, ← h.hashFunctionNum_eq]
  intro b hb
  exact h.bits b (hf b hb)

end BaseBloomFilter

namespace Engine

/-- The calls of the second list are those of the first with some revocations in between. -/
inductive MoreRevocations : List Op → List Op → Prop
  | nil : MoreRevocations [] []
  | same {ops ops' : List Op} (op : Op) : MoreRevocations ops ops' →
      MoreRevocations (op :: ops) (op :: ops')
  | more {ops ops' : List Op} (token : Str) (expTime now : ℤ) : MoreRevocations ops ops' →
      MoreRevocations ops (.revokeJwt token expTime now :: ops')

variable {hash : HashCalls} {e e₁ e₂ : Engine} {blank : BaseBloomFilter} {ops ops' : List Op}
  {filters : List BaseBloomFilter}

lemma MoreRevocations.windowEvents (h : MoreRevocations ops ops') (m r : ℕ) :
    RotatingWindow.MorePuts (windowEvents m r ops) (windowEvents m r ops') := by
  induction h with
  | nil => exact .nil
  | same op _ ih =>
    simp only [Engine.windowEvents, List.filterMap_cons]
    cases op.event? m r with
    | none => exact ih
    | some event => exact .same event ih
  | more token expTime now _ ih =>
    simp only [Engine.windowEvents, List.filterMap_cons, Op.event?]
    split_ifs with ha
    · exact .more _ _ ih
    · exact ih

/-- `blank` is what every rotation of the engine appends. -/
def RotatesIn (e : Engine) (blank : BaseBloomFilter) : Prop :=
  ∀ f, BaseBloomFilter.construct e.bloomFilterSize e.hashFunctionNum = .ok f → f = blank

/-- Whatever the filters hold at the start, a run is the run of its window events. -/
theorem Shaped.filters_of_run (h : e.Shaped) (hb : e.RotatesIn blank)
    (hr : e.run hash ops = .ok e₁) :
    e₁.filters = RotatingWindow.run (BaseBloomFilter.add hash) blank e.filters
      (windowEvents e.maxJwtLifeTime e.rotationInterval ops) := by
  induction ops generalizing e with
  | nil =>
    cases hr
    rfl
  | cons op ops ih =>
    rw [Engine.run, List.foldlM_cons] at hr
    obtain ⟨e', hs, hr⟩ := bind_eq_ok.mp hr
    have hframe := (step_frame hs).1
    have hb' : e'.RotatesIn blank := by
      rw [hframe]
      exact hb
    have hrest := ih (h.step hs) hb' hr
    rw [hrest, hframe]
    simp only [windowEvents, List.filterMap_cons]
    cases op with
    | revokeJwt token expTime now =>
      rw [Engine.step, revokeJwt_eq h] at hs
      cases hs
      by_cases ha : 0 < expTime - now ∧ expTime - now ≤ e.maxJwtLifeTime
      · have ha' : e.Accepts (expTime - now) := ha
        simp only [Op.event?, if_pos ha, if_pos ha']
        rfl
      · have ha' : ¬ e.Accepts (expTime - now) := ha
        simp only [Op.event?, if_neg ha, if_neg ha']
        rfl
    | isRevoked token expTime now =>
      rw [Engine.step, isRevoked_eq h] at hs
      cases hs
      rfl
    | rotate now =>
      obtain ⟨-, filter, hc, rfl⟩ := rotateFilters_eq_ok hs
      rw [hb filter hc]
      rfl

/-- Of two engines that differ in their filters, each makes the run the other makes. -/
lemma Shaped.run_isOk_congr (h : e.Shaped) (hlen : filters.length = e.filters.length)
    (hr : e.run hash ops = .ok e₁) :
    ∃ e₂, Engine.run hash { e with filters := filters } ops = .ok e₂ := by
  induction ops generalizing e filters with
  | nil => exact ⟨_, rfl⟩
  | cons op ops ih =>
    rw [Engine.run, List.foldlM_cons] at hr
    obtain ⟨e', hs, hr⟩ := bind_eq_ok.mp hr
    have h₂ : Shaped { e with filters := filters } :=
      ⟨h.interval_pos, h.filtersNum_eq, hlen.trans h.length_filters⟩
    have hstep : ∃ e₂, Engine.step hash { e with filters := filters } op = .ok e₂ := by
      cases op with
      | revokeJwt token expTime now => exact ⟨_, revokeJwt_eq h₂ hash now token expTime⟩
      | isRevoked token expTime now =>
        exact ⟨_, by rw [Engine.step, isRevoked_eq h₂]; rfl⟩
      | rotate now =>
        obtain ⟨hne, filter, hc, -⟩ := rotateFilters_eq_ok hs
        have hne' : filters ≠ [] := by
          intro hnil
          rw [hnil, eq_comm, List.length_nil, List.length_eq_zero_iff] at hlen
          exact hne hlen
        exact ⟨_, rotateFilters_of_construct hne' hc⟩
    obtain ⟨e₂, hs₂⟩ := hstep
    obtain ⟨he, hlen'⟩ := step_frame hs
    obtain ⟨he₂, hlen₂⟩ := step_frame hs₂
    have hsame : e₂ = { e' with filters := e₂.filters } := by
      rw [he₂, he]
    obtain ⟨e₃, hr₃⟩ := ih (h.step hs) (hlen₂.trans (hlen.trans hlen'.symm)) hr
    rw [← hsame] at hr₃
    exact ⟨e₃, by rw [Engine.run, List.foldlM_cons, hs₂]; exact hr₃⟩

lemma exists_rotatesIn (e : Engine) : ∃ blank, e.RotatesIn blank := by
  obtain ⟨any, -⟩ := BaseBloomFilter.construct_isOk 1 1 (by decide) (by decide) (by decide)
  unfold RotatesIn
  cases BaseBloomFilter.construct e.bloomFilterSize e.hashFunctionNum with
  | error fault => exact ⟨any, by simp⟩
  | ok blank => exact ⟨blank, by simp⟩

/-- Slots rotated in during a run do not depend on what the filters held before it; with
a rotation for each slot the engine as a whole does not. -/
theorem forgets_after_rotations (h : e.Shaped) (hlen : filters.length = e.filters.length)
    (hr : e.run hash ops = .ok e₁) :
    ∃ e₂, Engine.run hash { e with filters := filters } ops = .ok e₂ ∧
      (∀ i, e.filtersNum ≤ i + rotations ops → e₁.filters[i]? = e₂.filters[i]?) ∧
      (e.filtersNum ≤ rotations ops → e₁ = e₂) := by
  obtain ⟨e₂, hr₂⟩ := h.run_isOk_congr hlen hr
  obtain ⟨blank, hb⟩ := exists_rotatesIn e
  have h₂ : Shaped { e with filters := filters } :=
    ⟨h.interval_pos, h.filtersNum_eq, hlen.trans h.length_filters⟩
  have hb₂ : RotatesIn { e with filters := filters } blank := hb
  have hw₁ := h.filters_of_run hb hr
  have hw₂ := h₂.filters_of_run hb₂ hr₂
  rw [rotations_eq_shifts e.maxJwtLifeTime e.rotationInterval ops]
  refine ⟨e₂, hr₂, ?_, ?_⟩
  · intro i hi
    rw [hw₁, hw₂]
    exact (RotatingWindow.getElem?_run_congr hlen (h.length_filters.trans_le hi)).symm
  · intro hrot
    have he₁ := run_frame hr
    have he₂ := run_frame hr₂
    rw [he₁, he₂, hw₁, hw₂]
    dsimp only
    rw [RotatingWindow.run_congr hlen (h.length_filters.trans_le hrot)]

theorem forgets_after_three_rotations :
    ∃ w e e₁, Returns (init (fun _ key => key.length) 0 0 ⟨30, 10, 8, 1⟩) ⟨{}, fun _ => none⟩ () w ∧
      w.engine.run (fun _ key => key.length) [.revokeJwt "a" 30 0] = .ok e ∧
      e.filters ≠ w.engine.filters ∧
      e.run (fun _ key => key.length) [.rotate 10, .rotate 20, .rotate 30] = .ok e₁ ∧
      ∃ e₂, Engine.run (fun _ key => key.length) { e with filters := w.engine.filters }
          [.rotate 10, .rotate 20, .rotate 30] = .ok e₂ ∧
        (∀ i, 3 ≤ i + 3 → e₁.filters[i]? = e₂.filters[i]?) ∧ (3 ≤ 3 → e₁ = e₂) := by
  have hi : Returns (init (fun _ key => key.length) 0 0 ⟨30, 10, 8, 1⟩) ⟨{}, fun _ => none⟩ () _ :=
    returns_of_ok rfl
  obtain ⟨-, -, -, hs, -⟩ := (init_returns.mp hi).2.run
  exact ⟨_, _, _, hi, rfl, by decide, rfl, forgets_after_rotations
    (hs.run (show run (fun _ key => key.length) _ [.revokeJwt "a" 30 0] = _ from rfl)) rfl rfl⟩

lemma run_isOk_of_moreRevocations (hmore : MoreRevocations ops ops') (h : e.Shaped)
    (hr : e.run hash ops = .ok e₁) : ∃ e₂, e.run hash ops' = .ok e₂ := by
  induction hmore generalizing e e₁ with
  | nil => exact ⟨e₁, hr⟩
  | same op _ ih =>
    rw [Engine.run, List.foldlM_cons] at hr ⊢
    obtain ⟨e', hs, hr⟩ := bind_eq_ok.mp hr
    rw [hs]
    exact ih (h.step hs) hr
  | more token expTime now _ ih =>
    have hs : e.step hash (.revokeJwt token expTime now) = .ok _ :=
      revokeJwt_eq h hash now token expTime
    obtain ⟨hframe, hlen⟩ := step_frame hs
    obtain ⟨e', hr'⟩ := h.run_isOk_congr hlen hr
    rw [← hframe] at hr'
    rw [Engine.run, List.foldlM_cons, hs]
    exact ih (h.step hs) hr'

/-- Revocations in addition to those of a run: every query that answered true answers
true, and no count is lower. -/
theorem more_revocations_report_more (h : e.Shaped) (hmore : MoreRevocations ops ops')
    (hr : e.run hash ops = .ok e₁) :
    ∃ e₂, e.run hash ops' = .ok e₂ ∧
      (∀ now token expTime, e₁.isRevoked hash now token expTime = .ok true →
        e₂.isRevoked hash now token expTime = .ok true) ∧
      List.Forall₂ (· ≤ ·) e₁.getBloomFilterFillingRate e₂.getBloomFilterFillingRate := by
  obtain ⟨e₂, hr₂⟩ := run_isOk_of_moreRevocations hmore h hr
  obtain ⟨blank, hb⟩ := exists_rotatesIn e
  have hwithin : List.Forall₂ BaseBloomFilter.Within e₁.filters e₂.filters := by
    rw [h.filters_of_run hb hr, h.filters_of_run hb hr₂]
    apply RotatingWindow.forall₂_run
    · exact fun _ _ key hfg => hfg.add hash key
    · exact fun _ _ key hfg => hfg.add_right hash key
    · exact .refl blank
    · exact hmore.windowEvents _ _
    · exact List.forall₂_same.mpr fun f _ => .refl f
  refine ⟨e₂, hr₂, ?_, ?_⟩
  · intro now token expTime
    rw [isRevoked_eq_true_iff (h.run hr), isRevoked_eq_true_iff (h.run hr₂)]
    rw [run_frame hr, run_frame hr₂]
    rintro ⟨ha, hall⟩
    refine ⟨ha, ?_⟩
    exact RotatingWindow.forall_mem_of_forall₂ (List.forall₂_take _ hwithin) hall
      fun _ _ hfg hf => hfg.contains hf
  · rw [getBloomFilterFillingRate, getBloomFilterFillingRate, List.forall₂_map_left_iff,
      List.forall₂_map_right_iff]
    exact hwithin.imp fun _ _ hfg => hfg.msgNum_le

theorem more_revocations_report_more_between_rotations :
    ∃ w e₁, Returns (init (fun _ key => key.length) 0 0 ⟨30, 10, 8, 1⟩) ⟨{}, fun _ => none⟩ () w ∧
      w.engine.run (fun _ key => key.length) [.revokeJwt "a" 30 0, .rotate 10] = .ok e₁ ∧
      ∃ e₂, w.engine.run (fun _ key => key.length)
          [.revokeJwt "a" 30 0, .revokeJwt "bb" 25 5, .rotate 10] = .ok e₂ ∧
        (∀ now token expTime, e₁.isRevoked (fun _ key => key.length) now token expTime = .ok true →
          e₂.isRevoked (fun _ key => key.length) now token expTime = .ok true) ∧
        List.Forall₂ (· ≤ ·) e₁.getBloomFilterFillingRate e₂.getBloomFilterFillingRate := by
  have hi : Returns (init (fun _ key => key.length) 0 0 ⟨30, 10, 8, 1⟩) ⟨{}, fun _ => none⟩ () _ :=
    returns_of_ok rfl
  obtain ⟨-, -, -, hs, -⟩ := (init_returns.mp hi).2.run
  have hmore : MoreRevocations [.revokeJwt "a" 30 0, .rotate 10]
      [.revokeJwt "a" 30 0, .revokeJwt "bb" 25 5, .rotate 10] :=
    .same _ (.more "bb" 25 5 (.same _ .nil))
  exact ⟨_, _, hi, rfl, more_revocations_report_more hs hmore rfl⟩

end Engine

end JwtRevoker
