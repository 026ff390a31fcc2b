import JwtRevoker.WindowContents

/-!
# What a query answers over a run

A query made with less than one rotation interval of lifetime left consults no
slot and answers true. Every other answer is decided by the survivors of the
last slot consulted. The rotations in between may exceed the slots the lapse of
time has freed, and then a revocation no longer reaches that slot.
-/
namespace JwtRevoker

open EngineM

namespace Engine

variable {hash : HashCalls} {utcOffset now expTime : ℤ} {p : Params} {w w' : World} {e : Engine}
  {token : Str} {ops : List Op}

lemma slots_eq_zero_iff (h : e.Shaped) {remainingTime : ℤ} (hpos : 0 < remainingTime) :
    e.slots remainingTime = 0 ↔ remainingTime < e.rotationInterval := by
  rw [slots, Nat.div_eq_zero_iff_lt h.interval_pos]
  omega

lemma exists_contains_of_reports (h : e.Shaped)
    (hrep : e.Reports hash now token expTime) (hslots : e.slots (expTime - now) ≠ 0) :
    ∃ f ∈ e.filters, f.contains hash token = true := by
  obtain ⟨ha, hall⟩ := hrep
  have hle := slots_le h ha
  have hpos : 0 < (e.filters.take (e.slots (expTime - now))).length := by
    rw [List.length_take]
    omega
  obtain ⟨f, hf⟩ := List.exists_mem_of_length_pos hpos
  exact ⟨f, List.mem_of_mem_take hf, hall f hf⟩

/-- In the last interval of the lifetime the answer is true whatever the filters hold. -/
theorem reports_of_lt_interval (h : e.Shaped) (hle : e.rotationInterval ≤ e.maxJwtLifeTime)
    (hpos : 0 < expTime - now) (hlt : expTime - now < e.rotationInterval) :
    e.Reports hash now token expTime := by
  refine ⟨⟨hpos, by omega⟩, ?_⟩
  rw [(slots_eq_zero_iff h hpos).mpr hlt, List.take_zero]
  simp

/-- A true answer has evidence except in the last interval of the lifetime, where
even an engine that counts no message answers true. -/
theorem revoked_on_evidence_iff (hi : Returns (init hash utcOffset now p) w () w')
    (hp : p.rotationInterval.toNat ≤ p.maxJwtLifeTime.toNat)
    (hr : w'.engine.run hash ops = .ok e) (token : Str) (expTime t : ℤ) :
    ((e.isRevoked hash t token expTime = .ok true →
        ∃ f ∈ e.filters, f.contains hash token = true) ↔
      ¬ (0 < expTime - t ∧ expTime - t < p.rotationInterval.toNat) ∨
        ∃ f ∈ e.filters, f.contains hash token = true) ∧
    ((∀ f ∈ e.filters, f.getMsgNum = 0) →
      (e.isRevoked hash t token expTime = .ok false ↔
        ¬ (0 < expTime - t ∧ expTime - t < p.rotationInterval.toNat))) := by
  obtain ⟨blank, hist, hparams⟩ := (init_returns.mp hi).2.history_run hp hr
  rw [← hparams.rotationInterval, ← hparams.maxJwtLifeTime] at hp
  rw [← hparams.rotationInterval]
  have hlast : 0 < expTime - t ∧ expTime - t < e.rotationInterval →
      e.Reports hash t token expTime := fun h =>
    reports_of_lt_interval hist.shaped hp h.1 h.2
  have hevidence : ¬ (0 < expTime - t ∧ expTime - t < e.rotationInterval) →
      e.Reports hash t token expTime → ∃ f ∈ e.filters, f.contains hash token = true := by
    intro hn hrep
    refine exists_contains_of_reports hist.shaped hrep fun hz => hn ⟨hrep.1.1, ?_⟩
    exact (slots_eq_zero_iff hist.shaped hrep.1.1).mp hz
  rw [isRevoked_eq_true_iff hist.shaped]
  constructor
  · constructor
    · intro h
      by_cases hl : 0 < expTime - t ∧ expTime - t < e.rotationInterval
      · exact .inr (h (hlast hl))
      · exact .inl hl
    · rintro (h | h) hrep
      · exact hevidence h hrep
      · exact h
  · intro hmsg
    have hnone : ¬ ∃ f ∈ e.filters, f.contains hash token = true := by
      rintro ⟨f, hf, hc⟩
      rw [hist.not_contains_of_msgNum hf (hmsg f hf)] at hc
      cases hc
    simp only [isRevoked_eq hist.shaped, Except.ok.injEq, decide_eq_false_iff_not]
    exact ⟨fun h hl => h (hlast hl), fun h hrep => hnone (hevidence h hrep)⟩

theorem revoked_on_evidence_iff_after_rotation :
    ∃ w' e, Returns (init (fun _ key => key.length) 0 0 ⟨30, 10, 8, 1⟩) ⟨{}, fun _ => none⟩ () w' ∧
      w'.engine.run (fun _ key => key.length) [.revokeJwt "a" 25 0, .rotate 10] = .ok e ∧
      ((e.isRevoked (fun _ key => key.length) 12 "a" 25 = .ok true →
          ∃ f ∈ e.filters, f.contains (fun _ key => key.length) "a" = true) ↔
        ¬ ((0 : ℤ) < 25 - 12 ∧ (25 : ℤ) - 12 < 10) ∨
          ∃ f ∈ e.filters, f.contains (fun _ key => key.length) "a" = true) ∧
      ((∀ f ∈ e.filters, f.getMsgNum = 0) →
        (e.isRevoked (fun _ key => key.length) 12 "a" 25 = .ok false ↔
          ¬ ((0 : ℤ) < 25 - 12 ∧ (25 : ℤ) - 12 < 10))) := by
  have hi : Returns (init (fun _ key => key.length) 0 0 ⟨30, 10, 8, 1⟩) ⟨{}, fun _ => none⟩ () _ :=
    returns_of_ok rfl
  exact ⟨_, _, hi, rfl, revoked_on_evidence_iff hi (by decide)
    (show run _ _ [.revokeJwt "a" 25 0, .rotate 10] = _ from rfl) "a" 25 12⟩

/-- Nothing was ever revoked, and a token with five seconds left is reported revoked. -/
theorem revoked_without_evidence :
    ∃ w', Returns (init (fun _ key => key.length) 0 0 ⟨30, 10, 8, 1⟩) ⟨{}, fun _ => none⟩ () w' ∧
      (∀ f ∈ w'.engine.filters, f.getMsgNum = 0) ∧
      (∀ f ∈ w'.engine.filters, f.contains (fun _ key => key.length) "never revoked" = false) ∧
      w'.engine.isRevoked (fun _ key => key.length) 0 "never revoked" 5 = .ok true :=
  ⟨_, returns_of_ok rfl, by decide, by decide, by decide⟩

/-- A revocation reaches the last slot of a later query when the rotations since
do not exceed the slots by which the query's prefix has become shorter. -/
theorem mem_survivors_of_rotations {m r : ℕ} {before after : List Op} {t₀ : ℤ} {slot : ℕ}
    (ha : 0 < expTime - t₀ ∧ expTime - t₀ ≤ m)
    (hrot : ((slot + rotations after : ℕ) : ℤ) < (expTime - t₀) / r) :
    token ∈ survivors m r slot (before ++ .revokeJwt token expTime t₀ :: after) := by
  induction before with
  | nil => rw [List.nil_append, survivors, if_pos ⟨ha, hrot⟩]; exact List.mem_cons_self
  | cons op before ih =>
    cases op with
    | revokeJwt token' expTime' now' =>
      rw [List.cons_append, survivors]
      split_ifs
      · exact List.mem_cons_of_mem _ ih
      · exact ih
    | isRevoked => exact ih
    | rotate => exact ih

/-- When a token revoked at `t₀` is reported revoked at `t`: in the last interval
of its lifetime; while the rotations since do not exceed the slots the lapse of
time has freed; or when other survivors happen to cover it. -/
theorem stays_revoked_iff {before after : List Op} {t₀ t : ℤ}
    (hi : Returns (init hash utcOffset now p) w () w')
    (hp : p.rotationInterval.toNat ≤ p.maxJwtLifeTime.toNat)
    (hr : w'.engine.run hash (before ++ .revokeJwt token expTime t₀ :: after) = .ok e)
    (h₀ : 0 < expTime - t₀) (hmax : expTime - t₀ ≤ p.maxJwtLifeTime.toNat)
    (ht : t₀ ≤ t) (hexp : t < expTime) :
    e.isRevoked hash t token expTime = .ok true ↔
      (expTime - t) / p.rotationInterval.toNat = 0 ∨
      (expTime - t) / p.rotationInterval.toNat + rotations after ≤
        (expTime - t₀) / p.rotationInterval.toNat ∨
      ∀ b ∈ indexBits hash (toUnsignedInt p.bloomFilterSize.toNat) p.hashFunctionNum.toNat token,
        ∃ token' ∈ survivors p.maxJwtLifeTime.toNat p.rotationInterval.toNat
            ((expTime - t).toNat / p.rotationInterval.toNat - 1)
            (loadedOps utcOffset now w.logDir ++ before ++ .revokeJwt token expTime t₀ :: after),
          b ∈ indexBits hash (toUnsignedInt p.bloomFilterSize.toNat) p.hashFunctionNum.toNat
            token' := by
  obtain ⟨blank, hist, hM, hR, hS, hK, -⟩ := (init_returns.mp hi).2.history_run hp hr
  have ha : e.Accepts (expTime - t) := ⟨by omega, by rw [hM]; omega⟩
  rw [isRevoked_eq_true_iff hist.shaped, hist.reports_iff ha, ← List.append_assoc]
  simp only [slots, hR, hM, hS, hK]
  have hquot : (expTime - t) / p.rotationInterval.toNat =
      ((expTime - t).toNat / p.rotationInterval.toNat : ℕ) := by
    rw [Int.natCast_ediv, Int.toNat_of_nonneg (by omega)]
  rw [hquot, Int.natCast_eq_zero]
  generalize (expTime - t).toNat / p.rotationInterval.toNat = n
  constructor
  · rintro (h | h)
    · exact .inl h
    · exact .inr (.inr h)
  · rintro (h | h | h)
    · exact .inl h
    · rcases Nat.eq_zero_or_pos n with hz | hpos
      · exact .inl hz
      · exact .inr fun b hb =>
          ⟨token, mem_survivors_of_rotations ⟨h₀, hmax⟩ (by push_cast; omega), hb⟩
    · exact .inr h

theorem stays_revoked_iff_one_rotation :
    ∃ w' e, Returns (init (fun _ key => key.length) 0 0 ⟨30, 10, 8, 1⟩) ⟨{}, fun _ => none⟩ () w' ∧
      w'.engine.run (fun _ key => key.length)
        ([] ++ .revokeJwt "a" 35 8 :: [.rotate 10]) = .ok e ∧
      (e.isRevoked (fun _ key => key.length) 16 "a" 35 = .ok true ↔
        ((35 : ℤ) - 16) / 10 = 0 ∨
        ((35 : ℤ) - 16) / 10 + rotations [.rotate 10] ≤ (35 - 8) / 10 ∨
        ∀ b ∈ indexBits (fun _ key => key.length) 8 1 "a",
          ∃ token' ∈ survivors 30 10 (((35 : ℤ) - 16).toNat / 10 - 1)
              (loadedOps 0 0 (fun _ => none) ++ [] ++ .revokeJwt "a" 35 8 :: [.rotate 10]),
            b ∈ indexBits (fun _ key => key.length) 8 1 token') := by
  have hi : Returns (init (fun _ key => key.length) 0 0 ⟨30, 10, 8, 1⟩) ⟨{}, fun _ => none⟩ () _ :=
    returns_of_ok rfl
  exact ⟨_, _, hi, rfl, stays_revoked_iff hi (by decide) rfl (by decide) (by decide) (by decide)
    (by decide)⟩

/-- Revoked with 25 seconds left for two slots; one rotation, two seconds later,
leaves it in one; with 22 seconds left two slots are consulted. -/
theorem revoked_token_accepted_again :
    ∃ w' e, Returns (init (fun _ key => key.length) 0 0 ⟨30, 10, 8, 1⟩) ⟨{}, fun _ => none⟩ () w' ∧
      WellTimed 10 [.revokeJwt "a" 33 8, .rotate 10] ∧
      w'.engine.run (fun _ key => key.length) [.revokeJwt "a" 33 8, .rotate 10] = .ok e ∧
      e.isRevoked (fun _ key => key.length) 11 "a" 33 = .ok false :=
  ⟨_, _, returns_of_ok rfl, by decide, rfl, by decide⟩

end Engine

end JwtRevoker
