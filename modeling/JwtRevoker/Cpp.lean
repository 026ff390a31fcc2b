import JwtRevoker.Numeral

/-!
# C++ vocabulary

Byte strings, the faults a call can end with, `std::map<std::string,
std::string>`, `std::getline`, and the numeric conversions of `<string>` on a
platform with 64-bit `long` and 32-bit `unsigned int`.
-/
namespace JwtRevoker

/-- `std::string`: one character stands for one byte. -/
abbrev Str := List Char

instance : Coe String Str := ⟨String.toList⟩

/-- What ends a call other than a return: a C++ exception, or an operation the
language leaves undefined. -/
inductive Fault
  | invalidArgument (what : String)
  | outOfRange (what : String)
  | runtimeError (what : String)
  | divisionByZero
  | badIndex (index size : ℕ)
  | eraseFromEmpty
  deriving DecidableEq, Repr

lemma bind_eq_ok {ε α β : Type} {x : Except ε α} {f : α → Except ε β} {b : β} :
    (x >>= f) = .ok b ↔ ∃ a, x = .ok a ∧ f a = .ok b := by
  cases x with
  | error fault => simp [Bind.bind, Except.bind]
  | ok a => simp [Bind.bind, Except.bind]

lemma ok_bind {α β : Type} (a : α) (f : α → Except Fault β) : (Except.ok a >>= f) = f a := rfl

def toUnsignedInt (n : ℕ) : ℕ := n % 2 ^ 32

/-- `std::ceil` of the quotient of two integers. The division is done on
integers and has already rounded down; `std::ceil` leaves its result as it is. -/
def ceilQuotient (a b : ℕ) : Except Fault ℕ :=
  if b = 0 then .error .divisionByZero else .ok (a / b)

lemma ceilQuotient_of_pos {b : ℕ} (hb : 0 < b) (a : ℕ) : ceilQuotient a b = .ok (a / b) := by
  simp [ceilQuotient, hb.ne']

lemma ceilQuotient_eq_ok {a b q : ℕ} (h : ceilQuotient a b = .ok q) : 0 < b ∧ q = a / b := by
  unfold ceilQuotient at h
  split_ifs at h with hb
  exact ⟨Nat.pos_of_ne_zero hb, (Except.ok.inj h).symm⟩

def stdToString (i : ℤ) : Str := Numeral.writeInt i

/-- The 64-bit signed range of `long` and `long long`. -/
def InLong (i : ℤ) : Prop := -2 ^ 63 ≤ i ∧ i < 2 ^ 63

instance (i : ℤ) : Decidable (InLong i) := by unfold InLong; infer_instance

/-- `std::stol` and `std::stoll`, which differ in the text of the exception. -/
def stoSigned (what : String) (s : Str) : Except Fault ℤ :=
  match Numeral.readSigned s with
  | none => .error (.invalidArgument what)
  | some (negative, magnitude) =>
      let value : ℤ := if negative then -magnitude else magnitude
      if InLong value then .ok value else .error (.outOfRange what)

def stol (s : Str) : Except Fault ℤ := stoSigned "stol" s
def stoll (s : Str) : Except Fault ℤ := stoSigned "stoll" s

/-- `std::stoul` and `std::stoull`: a minus sign is accepted and negates modulo 2^64. -/
def stoUnsigned (what : String) (s : Str) : Except Fault ℕ :=
  match Numeral.readSigned s with
  | none => .error (.invalidArgument what)
  | some (negative, magnitude) =>
      if 2 ^ 64 ≤ magnitude then .error (.outOfRange what)
      else .ok (if negative then (2 ^ 64 - magnitude) % 2 ^ 64 else magnitude)

def stoul (s : Str) : Except Fault ℕ := stoUnsigned "stoul" s
def stoull (s : Str) : Except Fault ℕ := stoUnsigned "stoull" s

lemma stoSigned_stdToString {what : String} {i : ℤ} (hi : InLong i) :
    stoSigned what (stdToString i) = .ok i := by
  have hv : (if decide (i < 0) = true then -(i.natAbs : ℤ) else i.natAbs) = i := by
    split_ifs with h
    · have := of_decide_eq_true h
      omega
    · have : ¬ i < 0 := fun hn => h (decide_eq_true hn)
      omega
  simp only [stoSigned, stdToString, Numeral.readSigned_writeInt, hv, if_pos hi]

lemma inLong_of_stoSigned {what : String} {s : Str} {i : ℤ} (h : stoSigned what s = .ok i) :
    InLong i := by
  unfold stoSigned at h
  split at h
  · cases h
  · rename_i negative magnitude _
    by_cases hr : InLong (if negative then -(magnitude : ℤ) else magnitude)
    · rw [if_pos hr] at h
      exact Except.ok.inj h ▸ hr
    · rw [if_neg hr] at h
      cases h

abbrev Data := AList fun _ : Str => Str

namespace Data

/-- `operator[]` read: a missing key yields the empty string. -/
def get (data : Data) (key : Str) : Str := (data.lookup key).getD []

/-- `at`: a missing key throws. -/
def atKey (data : Data) (key : Str) : Except Fault Str :=
  match data.lookup key with
  | none => .error (.outOfRange "map::at")
  | some value => .ok value

lemma get_congr {d e : Data} {key : Str} (h : d.lookup key = e.lookup key) :
    d.get key = e.get key := by
  rw [get, get, h]

lemma atKey_congr {d e : Data} {key : Str} (h : d.lookup key = e.lookup key) :
    d.atKey key = e.atKey key := by
  rw [atKey, atKey, h]

end Data

/-- The lines successive `std::getline` calls read: a final line without a
newline counts, an empty rest after the last newline does not. -/
def getlines : Str → List Str
  | [] => []
  | c :: cs =>
      if c = '\n' then [] :: getlines cs
      else match getlines cs with
        | [] => [[c]]
        | line :: lines => (c :: line) :: lines

lemma getlines_append_newline {line : Str} (hl : '\n' ∉ line) (rest : Str) :
    getlines (line ++ '\n' :: rest) = line :: getlines rest := by
  induction line with
  | nil => simp [getlines]
  | cons c cs ih =>
    have hc : c ≠ '\n' := fun h => hl (h ▸ List.mem_cons_self)
    have hcs : '\n' ∉ cs := fun h => hl (List.mem_cons_of_mem _ h)
    simp [getlines, hc, ih hcs]

lemma getlines_append (s rest : Str) :
    getlines (s ++ '\n' :: rest) = getlines (s ++ ['\n']) ++ getlines rest := by
  induction s with
  | nil => simp [getlines]
  | cons c cs ih =>
    by_cases hc : c = '\n'
    · simp [getlines, hc, ih]
    · have hne : getlines (cs ++ ['\n']) ≠ [] := by
        cases cs with
        | nil => simp [getlines]
        | cons d ds =>
          simp only [List.cons_append, getlines]
          split_ifs
          · simp
          · split <;> simp
      obtain ⟨l, ls, hl⟩ := List.exists_cons_of_ne_nil hne
      simp [getlines, hc, ih, hl]

end JwtRevoker
