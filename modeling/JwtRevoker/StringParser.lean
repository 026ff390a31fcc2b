import JwtRevoker.Cpp

/-!
# Numbers from message fields

The parsers of `StringParser.hpp` catch both exceptions of the conversion they
call and return 0 in their place; the unsigned ones narrow what it returns.
-/
namespace JwtRevoker

/-- Both `catch` clauses return 0. -/
def caughtAsZero {α : Type} [Zero α] : Except Fault α → α
  | .ok value => value
  | .error _ => 0

def stringToUShort (str : Str) : ℕ := caughtAsZero (stoul str) % 2 ^ 16

def stringToUInt (str : Str) : ℕ := toUnsignedInt (caughtAsZero (stoul str))

def stringToSizeT (str : Str) : ℕ := caughtAsZero (stoull str)

def stringToTimestamp (str : Str) : ℤ := caughtAsZero (stoll str)

@[simp] lemma stringToTimestamp_nil : stringToTimestamp [] = 0 := rfl

/-- `std::stol` and `std::stoll` read the same number. -/
lemma stringToTimestamp_of_stol {str : Str} {expTime : ℤ} (h : stol str = .ok expTime) :
    stringToTimestamp str = expTime := by
  have hll : stoll str = .ok expTime := by
    unfold stol stoSigned at h
    unfold stoll stoSigned
    cases hread : Numeral.readSigned str with
    | none =>
      rw [hread] at h
      cases h
    | some number =>
      obtain ⟨negative, magnitude⟩ := number
      rw [hread] at h
      by_cases hr : InLong (if negative then -(magnitude : ℤ) else magnitude)
      · simp only [hr, if_true] at h ⊢
        exact h
      · simp only [hr, if_false] at h
        cases h
  rw [stringToTimestamp, hll]
  rfl

/-- What narrows to 0: no number, one of more than 64 bits, a multiple of the modulus. -/
lemma narrowed_eq_zero_iff {width : ℕ} (hw : width ≤ 64) (what : String) (str : Str) :
    caughtAsZero (stoUnsigned what str) % 2 ^ width = 0 ↔ ∀ negative magnitude,
      Numeral.readSigned str = some (negative, magnitude) →
        2 ^ 64 ≤ magnitude ∨ 2 ^ width ∣ magnitude := by
  unfold stoUnsigned
  cases hread : Numeral.readSigned str with
  | none => simp [caughtAsZero]
  | some number =>
    obtain ⟨negative, magnitude⟩ := number
    simp only [Option.some.injEq, Prod.mk.injEq, and_imp, forall_eq', forall_apply_eq_imp_iff]
    by_cases hwide : 2 ^ 64 ≤ magnitude
    · rw [if_pos hwide]
      exact iff_of_true (Nat.zero_mod _) (.inl hwide)
    · rw [if_neg hwide, or_iff_right hwide]
      simp only [caughtAsZero]
      cases negative with
      | false => exact Nat.dvd_iff_mod_eq_zero.symm
      | true =>
        have hpow : 2 ^ width ∣ 2 ^ 64 := pow_dvd_pow 2 hw
        rw [if_pos rfl, Nat.mod_mod_of_dvd _ hpow, ← Nat.dvd_iff_mod_eq_zero,
          Nat.dvd_sub_iff_right (not_le.mp hwide).le hpow]

lemma stringToUInt_eq_zero_iff (str : Str) :
    stringToUInt str = 0 ↔ ∀ negative magnitude,
      Numeral.readSigned str = some (negative, magnitude) →
        2 ^ 64 ≤ magnitude ∨ 2 ^ 32 ∣ magnitude :=
  narrowed_eq_zero_iff (by omega) "stoul" str

lemma inLong_stringToTimestamp (str : Str) : InLong (stringToTimestamp str) := by
  unfold stringToTimestamp
  cases hp : stoll str with
  | error fault => exact (by decide : InLong 0)
  | ok i => exact inLong_of_stoSigned hp

lemma stringToSizeT_lt (str : Str) : stringToSizeT str < 2 ^ 64 := by
  unfold stringToSizeT stoull stoUnsigned
  cases hread : Numeral.readSigned str with
  | none => simp [caughtAsZero]
  | some number =>
    obtain ⟨negative, magnitude⟩ := number
    simp only
    split_ifs with hwide
    · simp [caughtAsZero]
    · exact Nat.mod_lt _ (Nat.two_pow_pos 64)
    · exact not_le.mp hwide

/-- The integer that a sign and a magnitude denote. -/
def denoted : Bool × ℕ → ℤ
  | (negative, magnitude) => if negative then -magnitude else magnitude

/-- The result of a parser of `width` bits is 0 or what the longest numeral prefix
denotes, and 0 when that is negative or does not fit. -/
structure NotInvented (width : ℕ) (str : Str) (value : ℕ) : Prop where
  zero_or_denoted : value = 0 ∨
    ∃ number, Numeral.readSigned str = some number ∧ (value : ℤ) = denoted number
  zero_of_unfit : ∀ number, Numeral.readSigned str = some number →
    denoted number < 0 ∨ 2 ^ width ≤ denoted number → value = 0

/-- No numeral, one of more than 64 bits, one that narrows to 0, or one that fits. -/
def Narrows (width : ℕ) (str : Str) : Prop :=
  ∀ negative magnitude, Numeral.readSigned str = some (negative, magnitude) →
    2 ^ 64 ≤ magnitude ∨ 2 ^ width ∣ magnitude ∨ negative = false ∧ magnitude < 2 ^ width

lemma notInvented_zero (width : ℕ) (str : Str) : NotInvented width str 0 :=
  ⟨.inl rfl, fun _ _ _ => rfl⟩

lemma notInvented_of_fits {width : ℕ} {str : Str} {magnitude : ℕ}
    (hread : Numeral.readSigned str = some (false, magnitude)) (hfits : magnitude < 2 ^ width) :
    NotInvented width str magnitude := by
  refine ⟨.inr ⟨_, hread, rfl⟩, ?_⟩
  intro number hnumber hunfit
  rw [hread, Option.some.injEq] at hnumber
  subst hnumber
  have hfits' : (magnitude : ℤ) < 2 ^ width := by exact_mod_cast hfits
  change (magnitude : ℤ) < 0 ∨ 2 ^ width ≤ (magnitude : ℤ) at hunfit
  omega

/-- Of what does not narrow to 0 only a number that fits comes through as it is. -/
lemma notInvented_narrowed_iff {width : ℕ} (hw : width ≤ 64) (what : String) (str : Str) :
    NotInvented width str (caughtAsZero (stoUnsigned what str) % 2 ^ width) ↔
      Narrows width str := by
  have hlt : caughtAsZero (stoUnsigned what str) % 2 ^ width < 2 ^ width :=
    Nat.mod_lt _ (Nat.two_pow_pos width)
  have hzero_iff := narrowed_eq_zero_iff hw what str
  constructor
  · intro h negative magnitude hread
    rcases h.zero_or_denoted with hzero | ⟨number, hnumber, hvalue⟩
    · exact (hzero_iff.mp hzero negative magnitude hread).imp_right .inl
    · rw [hread, Option.some.injEq] at hnumber
      subst hnumber
      cases negative with
      | false =>
        have hsame : caughtAsZero (stoUnsigned what str) % 2 ^ width = magnitude :=
          Int.ofNat.inj hvalue
        exact .inr (.inr ⟨rfl, hsame ▸ hlt⟩)
      | true =>
        change (_ : ℤ) = -(magnitude : ℤ) at hvalue
        have hmagnitude : magnitude = 0 := by omega
        exact .inr (.inl (hmagnitude ▸ dvd_zero _))
  · intro h
    by_cases hzero : caughtAsZero (stoUnsigned what str) % 2 ^ width = 0
    · rw [hzero]
      exact notInvented_zero width str
    · rw [hzero_iff] at hzero
      push Not at hzero
      obtain ⟨negative, magnitude, hread, hwide, hdvd⟩ := hzero
      have hnarrows := (h negative magnitude hread).resolve_left hwide.not_ge
      obtain ⟨rfl, hfits⟩ := hnarrows.resolve_left hdvd
      have hvalue : stoUnsigned what str = .ok magnitude := by
        rw [stoUnsigned, hread]
        exact if_neg hwide.not_ge
      rw [hvalue]
      change NotInvented width str (magnitude % 2 ^ width)
      rw [Nat.mod_eq_of_lt hfits]
      exact notInvented_of_fits hread hfits

/-- Each of the three parsers gives 0 or the number that is written, exactly on the texts
that narrow well to the width of its result. -/
theorem unsigned_not_invented_iff (str : Str) :
    (NotInvented 16 str (stringToUShort str) ↔ Narrows 16 str) ∧
    (NotInvented 32 str (stringToUInt str) ↔ Narrows 32 str) ∧
    (NotInvented 64 str (stringToSizeT str) ↔ Narrows 64 str) := by
  have hsize : caughtAsZero (stoull str) % 2 ^ 64 = stringToSizeT str :=
    Nat.mod_eq_of_lt (stringToSizeT_lt str)
  refine ⟨notInvented_narrowed_iff (by omega) "stoul" str,
    notInvented_narrowed_iff (by omega) "stoul" str, ?_⟩
  rw [← hsize]
  exact notInvented_narrowed_iff (le_refl 64) "stoull" str

/-- A port of more than 16 bits loses its upper bits, a minus sign wraps around. -/
theorem numbers_invented :
    (stringToUShort "70000" = 4464 ∧ ¬ NotInvented 16 "70000" (stringToUShort "70000")) ∧
    (stringToUInt "-1" = 2 ^ 32 - 1 ∧ ¬ NotInvented 32 "-1" (stringToUInt "-1")) ∧
    stringToSizeT "-1" = 2 ^ 64 - 1 ∧ ¬ NotInvented 64 "-1" (stringToSizeT "-1") := by
  have hport : Numeral.readSigned "70000".toList = some (false, 70000) := by decide +kernel
  have hminus : Numeral.readSigned "-1".toList = some (true, 1) := by decide +kernel
  refine ⟨⟨by decide +kernel, ?_⟩, ⟨by decide +kernel, ?_⟩, by decide +kernel, ?_⟩
  · intro h
    have hzero := h.zero_of_unfit _ hport (.inr (by decide))
    exact absurd hzero (by decide +kernel)
  · intro h
    have hzero := h.zero_of_unfit _ hminus (.inl (by decide))
    exact absurd hzero (by decide +kernel)
  · intro h
    have hzero := h.zero_of_unfit _ hminus (.inl (by decide))
    exact absurd hzero (by decide +kernel)

end JwtRevoker
