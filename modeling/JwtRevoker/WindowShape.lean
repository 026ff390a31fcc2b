import JwtRevoker.WindowContents

/-!
# The shape of the window

A window keeps its length and its filters keep their size exactly when the
interval does not exceed the lifetime and the size fits the `unsigned int` that
new windows are built with. Outside of that the rotation is what fails.
-/
namespace JwtRevoker

open EngineM

namespace Engine

variable {hash : HashCalls} {utcOffset now : ℤ} {p : Params} {w w' : World} {e : Engine}

/-- No lifetime in the accepted range is turned away by `num > filtersNum`. -/
def AdmitsLifetimes (e : Engine) : Prop :=
  ∀ (remainingTime : ℤ) (num : ℕ), 0 < remainingTime → remainingTime ≤ e.maxJwtLifeTime →
    ceilQuotient remainingTime.toNat e.rotationInterval = .ok num → ¬ num > e.filtersNum

lemma Shaped.admitsLifetimes (h : e.Shaped) : e.AdmitsLifetimes := by
  intro remainingTime num hpos hmax hnum
  obtain ⟨-, rfl⟩ := ceilQuotient_eq_ok hnum
  exact not_lt.mpr (h.length_filters ▸ slots_le h ⟨hpos, hmax⟩)

/-- Every run goes through and keeps the shape exactly when the interval does
not exceed the lifetime. -/
theorem keeps_shape_iff (hi : Returns (init hash utcOffset now p) w () w')
    (hsize : p.bloomFilterSize.toNat < 2 ^ 32) :
    (∀ ops, ∃ e, w'.engine.run hash ops = .ok e ∧
        (e.filters.length = e.filtersNum ∧ 1 ≤ e.filtersNum) ∧ e.AdmitsLifetimes) ↔
      p.rotationInterval.toNat ≤ p.maxJwtLifeTime.toNat := by
  obtain ⟨-, hbuilt⟩ := init_returns.mp hi
  constructor
  · intro h
    obtain ⟨e, hr, ⟨-, hpos⟩, -⟩ := h []
    cases hr
    rw [hbuilt.hasParams.filtersNum] at hpos
    exact (Nat.div_pos_iff.mp hpos).2
  · intro hp ops
    obtain ⟨blank, hist⟩ := hbuilt.hasHistory hp
    obtain ⟨e, hr⟩ := hist.run_isOk (hbuilt.hasParams.bloomFilterSize ▸ hsize) ops
    obtain ⟨blank', hist', -⟩ := hbuilt.history_run hp hr
    exact ⟨e, hr, ⟨hist'.shaped.length_filters, hist'.filtersNum_pos⟩,
      hist'.shaped.admitsLifetimes⟩

theorem keeps_shape_iff_three_slots :
    ∃ w', Returns (init (fun _ key => key.length) 0 0 ⟨30, 10, 8, 1⟩) ⟨{}, fun _ => none⟩ () w' ∧
      ((∀ ops, ∃ e, w'.engine.run (fun _ key => key.length) ops = .ok e ∧
        (e.filters.length = e.filtersNum ∧ 1 ≤ e.filtersNum) ∧ e.AdmitsLifetimes) ↔
        10 ≤ 30) := by
  have hi : Returns (init (fun _ key => key.length) 0 0 ⟨30, 10, 8, 1⟩) ⟨{}, fun _ => none⟩ () _ :=
    returns_of_ok rfl
  exact ⟨_, hi, keeps_shape_iff hi (by decide)⟩

/-- A lifetime below the interval leaves no filter, and the first rotation erases
from an empty vector. -/
theorem rotation_of_empty_window :
    ∃ w', Returns (init (fun _ key => key.length) 0 0 ⟨5, 10, 8, 1⟩) ⟨{}, fun _ => none⟩ () w' ∧
      w'.engine.filtersNum = 0 ∧
      w'.engine.run (fun _ key => key.length) [.rotate 10] = .error .eraseFromEmpty :=
  ⟨_, returns_of_ok rfl, rfl, rfl⟩

/-- Every filter keeps the reported size and no rotation throws exactly when the
size fits an `unsigned int`. -/
theorem rotates_in_alike_iff
    (hb : Returns (init hash utcOffset now p) w () w' ∨
      Returns (adjustFiltersParam hash utcOffset now p) w () w')
    (hne : w'.engine.filters ≠ []) :
    (∀ ops, ∃ e, w'.engine.run hash ops = .ok e ∧
        e.getBloomFilterSize = p.bloomFilterSize.toNat ∧
        ∀ f ∈ e.filters, f.bloomFilterSize = p.bloomFilterSize.toNat ∧
          f.hashFunctionNum = p.hashFunctionNum.toNat) ↔
      p.bloomFilterSize.toNat < 2 ^ 32 := by
  have hbuilt : Built hash utcOffset now p w w' := by
    rcases hb with hi | ha
    · exact (init_returns.mp hi).2
    · exact adjustFiltersParam_returns.mp ha
  obtain ⟨-, -, -, hshape, -⟩ := hbuilt.run
  have hp : p.rotationInterval.toNat ≤ p.maxJwtLifeTime.toNat := by
    have hpos : 0 < w'.engine.filtersNum := hshape.length_filters ▸ List.length_pos_iff.mpr hne
    rw [hbuilt.hasParams.filtersNum] at hpos
    exact (Nat.div_pos_iff.mp hpos).2
  obtain ⟨blank, hist⟩ := hbuilt.hasHistory hp
  constructor
  · intro h
    obtain ⟨e, hr, -, hall⟩ := h []
    cases hr
    obtain ⟨f, hf⟩ := List.exists_mem_of_ne_nil _ hne
    rw [← (hall f hf).1, (hist.size_of_mem hf).1]
    exact Nat.mod_lt _ (by decide)
  · intro hsize ops
    obtain ⟨e, hr⟩ := hist.run_isOk (hbuilt.hasParams.bloomFilterSize ▸ hsize) ops
    obtain ⟨blank', hist', hparams⟩ := hbuilt.history_run hp hr
    refine ⟨e, hr, hparams.bloomFilterSize, ?_⟩
    intro f hf
    obtain ⟨hs, hk⟩ := hist'.size_of_mem hf
    rw [hparams.bloomFilterSize, toUnsignedInt, Nat.mod_eq_of_lt hsize] at hs
    exact ⟨hs, hk.trans hparams.hashFunctionNum⟩

theorem rotates_in_alike_iff_three_slots :
    ∃ w', Returns (init (fun _ key => key.length) 0 0 ⟨30, 10, 8, 1⟩) ⟨{}, fun _ => none⟩ () w' ∧
      ((∀ ops, ∃ e, w'.engine.run (fun _ key => key.length) ops = .ok e ∧
        e.getBloomFilterSize = 8 ∧
        ∀ f ∈ e.filters, f.bloomFilterSize = 8 ∧ f.hashFunctionNum = 1) ↔ 8 < 2 ^ 32) := by
  have hi : Returns (init (fun _ key => key.length) 0 0 ⟨30, 10, 8, 1⟩) ⟨{}, fun _ => none⟩ () _ :=
    returns_of_ok rfl
  exact ⟨_, hi, rotates_in_alike_iff (.inl hi) (by decide)⟩

/-- A size of 2^32 + 8: the window starts with filters of size 8, and the first
rotation throws. -/
theorem rotation_throws_on_wide_size :
    ∃ w', Returns (init (fun _ key => key.length) 0 0 ⟨30, 10, 4294967304, 1⟩)
        ⟨{}, fun _ => none⟩ () w' ∧
      w'.engine.getBloomFilterSize = 4294967304 ∧
      (∀ f ∈ w'.engine.filters, f.bloomFilterSize = 8) ∧
      w'.engine.run (fun _ key => key.length) [.rotate 10] =
        .error (.invalidArgument "The size of a Bloom filter must be a power of 2.") :=
  ⟨_, returns_of_ok rfl, rfl, by decide, rfl⟩

end Engine

end JwtRevoker
