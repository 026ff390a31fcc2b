import Mathlib

/-!
# Decimal numerals

Writing integers in decimal and reading the longest numeral prefix of a text:
blanks, an optional sign, digits. Reading undoes writing.
-/
namespace JwtRevoker.Numeral

/-- The six white-space characters of the "C" locale. -/
def isBlank (c : Char) : Bool := c == ' ' || (9 ≤ c.toNat && c.toNat ≤ 13)

def writeNat (n : ℕ) : List Char := Nat.toDigits 10 n

def writeInt (i : ℤ) : List Char :=
  if i < 0 then '-' :: writeNat i.natAbs else writeNat i.natAbs

def readDigits (s : List Char) : Option ℕ :=
  match s.takeWhile Char.isDigit with
  | [] => none
  | d :: ds => some (Nat.ofDigitChars 10 (d :: ds) 0)

/-- Sign and magnitude of the longest numeral prefix. -/
def readSigned (s : List Char) : Option (Bool × ℕ) :=
  match s.dropWhile isBlank with
  | '-' :: rest => (readDigits rest).map (true, ·)
  | '+' :: rest => (readDigits rest).map (false, ·)
  | rest => (readDigits rest).map (false, ·)

lemma isDigit_of_mem_writeNat {n : ℕ} {c : Char} (hc : c ∈ writeNat n) : c.isDigit :=
  Nat.isDigit_of_mem_toDigits (by omega) (by omega) hc

@[simp] lemma readDigits_writeNat (n : ℕ) : readDigits (writeNat n) = some n := by
  have ht : (writeNat n).takeWhile Char.isDigit = writeNat n :=
    List.takeWhile_eq_self_iff.mpr fun c hc => isDigit_of_mem_writeNat hc
  unfold readDigits
  rw [ht]
  cases hw : writeNat n with
  | nil => exact absurd hw Nat.toDigits_ne_nil
  | cons d ds =>
    have hv : Nat.ofDigitChars 10 (d :: ds) 0 = n := by
      rw [← hw]
      exact Nat.ofDigitChars_ten_toDigits
    exact congrArg some hv

/-- A digit is neither a blank nor a sign, so the reader starts with it. -/
theorem readSigned_of_isDigit {c : Char} {cs : List Char} (hc : c.isDigit) :
    readSigned (c :: cs) = (readDigits (c :: cs)).map (false, ·) := by
  have hn := Char.isDigit_iff_toNat.mp hc
  have h0 : '0'.toNat = 48 := rfl
  have h9 : '9'.toNat = 57 := rfl
  have hspace : c ≠ ' ' := by rintro rfl; exact absurd hc (by decide)
  have hminus : c ≠ '-' := by rintro rfl; exact absurd hc (by decide)
  have hplus : c ≠ '+' := by rintro rfl; exact absurd hc (by decide)
  have hb : isBlank c = false := by
    have : ¬ c.toNat ≤ 13 := by omega
    simp [isBlank, hspace, this]
  have hd : (c :: cs).dropWhile isBlank = c :: cs := by simp [hb]
  unfold readSigned
  rw [hd]
  split
  · rename_i h; exact absurd (List.cons.inj h).1 hminus
  · rename_i h; exact absurd (List.cons.inj h).1 hplus
  · rfl

lemma readSigned_writeNat (n : ℕ) : readSigned (writeNat n) = some (false, n) := by
  cases hw : writeNat n with
  | nil => exact absurd hw Nat.toDigits_ne_nil
  | cons d ds =>
    have hd : d.isDigit := isDigit_of_mem_writeNat (n := n) (by simp [hw])
    rw [readSigned_of_isDigit hd, ← hw, readDigits_writeNat]
    rfl

@[simp] lemma readSigned_writeInt (i : ℤ) :
    readSigned (writeInt i) = some (decide (i < 0), i.natAbs) := by
  unfold writeInt
  split_ifs with h
  · have hd : ('-' :: writeNat i.natAbs).dropWhile isBlank = '-' :: writeNat i.natAbs := by
      simp [isBlank]
    simp only [readSigned, hd, readDigits_writeNat, Option.map_some, h, decide_true]
  · simp only [readSigned_writeNat, h, decide_false]

lemma writeInt_injective : Function.Injective writeInt := by
  intro a b hab
  have h := congrArg readSigned hab
  simp only [readSigned_writeInt, Option.some.injEq, Prod.mk.injEq, decide_eq_decide] at h
  omega

lemma mem_writeInt {i : ℤ} {c : Char} (hc : c ∈ writeInt i) : c.isDigit ∨ c = '-' := by
  unfold writeInt at hc
  split_ifs at hc
  · rcases List.mem_cons.mp hc with rfl | hc
    · exact .inr rfl
    · exact .inl (isDigit_of_mem_writeNat hc)
  · exact .inl (isDigit_of_mem_writeNat hc)

lemma writeInt_ne_nil (i : ℤ) : writeInt i ≠ [] := by
  unfold writeInt
  split_ifs
  · simp
  · exact Nat.toDigits_ne_nil

end JwtRevoker.Numeral
