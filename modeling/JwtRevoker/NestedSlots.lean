import JwtRevoker.WindowContents

/-!
# Nested slots

Whatever is revoked, rotated and rebuilt, a slot holds what the next one holds:
every item that survives in a slot survives in all earlier ones. The counts
reported for the slots do not increase, and a query is one probe of the last slot.
-/
namespace JwtRevoker

open EngineM

namespace Engine

/-- Engines that began as a recovery into new filters and were then used and rebuilt
one call at a time, with at least one filter each time; anything may be written to
the log directory in between. -/
inductive Loaded (hash : HashCalls) : World → Prop
  | recover {utcOffset now : ℤ} {w w' : World} {fresh filters : List BaseBloomFilter} :
      w.engine.FreshFilters fresh → 1 ≤ w.engine.filtersNum →
        Returns (recoverFromLog hash utcOffset now fresh) w filters w' →
        Loaded hash { w' with engine := { w'.engine with filters := filters } }
  | step {w : World} {op : Op} {e : Engine} :
      Loaded hash w → w.engine.step hash op = .ok e → Loaded hash { w with engine := e }
  | adjust {utcOffset now : ℤ} {p : Params} {w w' : World} :
      Loaded hash w → Returns (adjustFiltersParam hash utcOffset now p) w () w' →
        1 ≤ w'.engine.filtersNum → Loaded hash w'
  | write {w : World} (dir : LogDir) : Loaded hash w → Loaded hash { w with logDir := dir }

variable {hash : HashCalls} {e : Engine} {w : World} {blank : BaseBloomFilter} {history : List Op}

lemma Loaded.hasHistory (h : Loaded hash w) :
    ∃ blank history, w.engine.HasHistory hash blank history := by
  induction h with
  | @recover utcOffset now w w' fresh filters hfresh hpos hret =>
    obtain ⟨rfl, hi⟩ := recoverFromLog_returns.mp hret
    obtain ⟨blank, hist⟩ :=
      hfresh.import_hasHistory hpos (isSome_deleteOthers utcOffset now w.logDir) hi
    exact ⟨blank, _, hist⟩
  | step _ hs ih =>
    obtain ⟨blank, history, hist⟩ := ih
    obtain ⟨_, -, hist'⟩ := hist.step hs
    exact ⟨blank, _, hist'⟩
  | @adjust _ _ p _ _ _ hret hpos _ =>
    have hbuilt := adjustFiltersParam_returns.mp hret
    rw [hbuilt.hasParams.filtersNum] at hpos
    obtain ⟨blank, hist⟩ := hbuilt.hasHistory (Nat.div_pos_iff.mp hpos).2
    exact ⟨blank, _, hist⟩
  | write _ _ ih => exact ih

/-- A later slot sets no bit and counts no message that an earlier one does not. -/
theorem HasHistory.nested (h : e.HasHistory hash blank history) {i j : ℕ} (hij : i ≤ j)
    {f g : BaseBloomFilter} (hf : e.filters[i]? = some f) (hg : e.filters[j]? = some g) :
    (∀ b, g.IsSet b → f.IsSet b) ∧ g.getMsgNum ≤ f.getMsgNum := by
  obtain ⟨-, -, hmf, hbf⟩ := h.slot hf
  obtain ⟨-, -, hmg, hbg⟩ := h.slot hg
  constructor
  · intro b hb
    obtain ⟨token, hm, hb⟩ := (hbg b).mp hb
    exact (hbf b).mpr ⟨token, mem_survivors_of_le hij hm, hb⟩
  · rw [BaseBloomFilter.getMsgNum, BaseBloomFilter.getMsgNum, hmf, hmg, survivors_eq_alive,
      survivors_eq_alive]
    exact (RotatingWindow.alive_sublist hij _).length_le

lemma HasHistory.fillingRate_antitone (h : e.HasHistory hash blank history) :
    e.getBloomFilterFillingRate.Pairwise (· ≥ ·) := by
  rw [getBloomFilterFillingRate, List.pairwise_map, List.pairwise_iff_getElem]
  intro i j hi hj hij
  exact (h.nested hij.le (List.getElem?_eq_getElem hi) (List.getElem?_eq_getElem hj)).2

/-- A query that consults a slot is a probe of the last slot it consults. -/
lemma HasHistory.isRevoked_eq_contains (h : e.HasHistory hash blank history) {now expTime : ℤ}
    (ha : e.Accepts (expTime - now)) {n : ℕ} (hn : e.slots (expTime - now) = n + 1)
    (token : Str) :
    ∃ f, e.filters[n]? = some f ∧
      e.isRevoked hash now token expTime = .ok (f.contains hash token) := by
  have hle := slots_le h.shaped ha
  have hget : e.filters[n]? = some e.filters[n] := List.getElem?_eq_getElem (by omega)
  refine ⟨_, hget, ?_⟩
  rw [isRevoked_eq h.shaped]
  refine congrArg Except.ok (Bool.eq_iff_iff.mpr ?_)
  rw [decide_eq_true_iff, h.reports_iff ha, h.contains_slot_iff hget, hn, Nat.add_sub_cancel]
  exact or_iff_right (Nat.succ_ne_zero n)

/-- In every state the slots are nested, so the counts do not increase and the loop of
`isRevoked` is one look-up. -/
theorem slots_nested (h : Loaded hash w) :
    (∀ (i : ℕ) (f g : BaseBloomFilter), w.engine.filters[i]? = some f →
      w.engine.filters[i + 1]? = some g →
      (∀ b, g.IsSet b → f.IsSet b) ∧ g.getMsgNum ≤ f.getMsgNum) ∧
    w.engine.getBloomFilterFillingRate.Pairwise (· ≥ ·) ∧
    ∀ (token : Str) (expTime now : ℤ),
      0 < expTime - now ∧ expTime - now ≤ w.engine.maxJwtLifeTime →
      ∀ n : ℕ, 1 ≤ n → (expTime - now) / w.engine.rotationInterval = n →
        ∃ f, w.engine.filters[n - 1]? = some f ∧
          w.engine.isRevoked hash now token expTime = .ok (f.contains hash token) := by
  obtain ⟨blank, history, hist⟩ := h.hasHistory
  refine ⟨fun i f g hf hg => hist.nested (Nat.le_succ i) hf hg, hist.fillingRate_antitone, ?_⟩
  intro token expTime now ha n hn hq
  refine hist.isRevoked_eq_contains ha ?_ token
  have hslots : ((w.engine.slots (expTime - now) : ℕ) : ℤ) = n := by
    rw [slots, Int.natCast_ediv, Int.toNat_of_nonneg ha.1.le, hq]
  omega

theorem slots_nested_after_revocation :
    ∃ w, Loaded (fun _ key => key.length) w ∧
      w.engine.getBloomFilterFillingRate = [1, 0, 0] ∧
      (∀ (i : ℕ) (f g : BaseBloomFilter), w.engine.filters[i]? = some f →
        w.engine.filters[i + 1]? = some g →
        (∀ b, g.IsSet b → f.IsSet b) ∧ g.getMsgNum ≤ f.getMsgNum) ∧
      w.engine.getBloomFilterFillingRate.Pairwise (· ≥ ·) ∧
      ∀ (token : Str) (expTime now : ℤ),
        0 < expTime - now ∧ expTime - now ≤ w.engine.maxJwtLifeTime →
        ∀ n : ℕ, 1 ≤ n → (expTime - now) / w.engine.rotationInterval = n →
          ∃ f, w.engine.filters[n - 1]? = some f ∧
            w.engine.isRevoked (fun _ key => key.length) now token expTime =
              .ok (f.contains (fun _ key => key.length) token) := by
  have hfresh : FreshFilters (({} : Engine).withParams ⟨30, 10, 8, 1⟩) _ :=
    ⟨by decide, by decide, rfl⟩
  have hrecovered := @Loaded.recover (fun _ key => key.length) 0 0 ⟨_, fun _ => none⟩ _ _ _
    hfresh (by decide) (returns_of_ok rfl)
  have hrevoked := @Loaded.step _ _ (.revokeJwt "a" 25 0) _ hrecovered rfl
  have hrotated := @Loaded.step _ _ (.rotate 10) _ hrevoked rfl
  exact ⟨_, hrotated, rfl, slots_nested hrotated⟩

end Engine

end JwtRevoker
