import Mathlib

/-!
# SHA-256 as the Secure Hash Standard defines it

The hash of a message of whole bytes: padding, parsing into blocks of 64 bytes,
the message schedule, and the compression of one block into the hash value. The
constants are computed from the primes they are defined by.
-/
namespace JwtRevoker.Sha256Standard

abbrev Word := UInt32
abbrev Block := Vector UInt8 64
abbrev HashValue := Vector Word 8

def rotr (n x : Word) : Word := (x >>> n) ||| (x <<< (32 - n))

def ch (x y z : Word) : Word := (x &&& y) ^^^ (~~~x &&& z)
def maj (x y z : Word) : Word := (x &&& y) ^^^ (x &&& z) ^^^ (y &&& z)
def bigSigma0 (x : Word) : Word := rotr 2 x ^^^ rotr 13 x ^^^ rotr 22 x
def bigSigma1 (x : Word) : Word := rotr 6 x ^^^ rotr 11 x ^^^ rotr 25 x
def smallSigma0 (x : Word) : Word := rotr 7 x ^^^ rotr 18 x ^^^ (x >>> 3)
def smallSigma1 (x : Word) : Word := rotr 17 x ^^^ rotr 19 x ^^^ (x >>> 10)

/-- The first sixty-four primes. -/
def primes : List ℕ := (List.range 312).filter Nat.Prime

/-- The first 32 bits of the fractional part of a root of `p`. -/
def rootFraction (degree p : ℕ) : Word :=
  UInt32.ofNat (Nat.nthRoot degree (p * 2 ^ (32 * degree)))

def roundConstants : Vector Word 64 := Vector.ofFn fun t => rootFraction 3 (primes.getD t 0)

def initialHash : HashValue := Vector.ofFn fun j => rootFraction 2 (primes.getD j 0)

/-- The `n` lowest bytes of a number, the most significant first. -/
def bigEndian (n x : ℕ) : List UInt8 :=
  List.ofFn fun i : Fin n => UInt8.ofNat (x / 256 ^ (n - 1 - i.val))

def ofBigEndian (bytes : List UInt8) : ℕ := bytes.foldl (fun x byte => 256 * x + byte.toNat) 0

/-- The fewest zero bytes that leave room for the length at the end of a block, when
one byte, which begins with the bit 1, has followed the message. -/
def zeroBytes (length : ℕ) : ℕ := (119 - length % 64) % 64

def pad (message : List UInt8) : List UInt8 :=
  message ++ 0x80 :: List.replicate (zeroBytes message.length) 0 ++
    bigEndian 8 (8 * message.length)

def blockAt (bytes : List UInt8) (i : ℕ) : Block := Vector.ofFn fun j => bytes.getD (64 * i + j) 0

def parse (bytes : List UInt8) : List Block := (List.range (bytes.length / 64)).map (blockAt bytes)

def word (block : Block) (t : Fin 16) : Word :=
  UInt32.ofNat (ofBigEndian [block[4 * t.val], block[4 * t.val + 1], block[4 * t.val + 2],
    block[4 * t.val + 3]])

def schedule (block : Block) (t : ℕ) : Word :=
  if h : t < 16 then word block ⟨t, h⟩
  else smallSigma1 (schedule block (t - 2)) + schedule block (t - 7) +
    smallSigma0 (schedule block (t - 15)) + schedule block (t - 16)

/-- The working variables. -/
structure Vars where
  a : Word
  b : Word
  c : Word
  d : Word
  e : Word
  f : Word
  g : Word
  h : Word

def Vars.ofHash (H : HashValue) : Vars := ⟨H[0], H[1], H[2], H[3], H[4], H[5], H[6], H[7]⟩

def Vars.addTo (v : Vars) (H : HashValue) : HashValue :=
  #v[v.a + H[0], v.b + H[1], v.c + H[2], v.d + H[3], v.e + H[4], v.f + H[5], v.g + H[6],
    v.h + H[7]]

def round (k w : Word) (v : Vars) : Vars :=
  let t1 := v.h + bigSigma1 v.e + ch v.e v.f v.g + k + w
  let t2 := bigSigma0 v.a + maj v.a v.b v.c
  ⟨t1 + t2, v.a, v.b, v.c, v.d + t1, v.e, v.f, v.g⟩

def compress (H : HashValue) (block : Block) : HashValue :=
  ((List.finRange 64).foldl (fun v (t : Fin 64) => round roundConstants[t] (schedule block t) v)
    (Vars.ofHash H)).addTo H

def hash (message : List UInt8) : List UInt8 :=
  ((parse (pad message)).foldl compress initialHash).toList.flatMap fun H => bigEndian 4 H.toNat

/-- Below the square of the next prime, trial division by these is enough. -/
lemma prime_iff_of_lt {n : ℕ} (hn : n < 19 ^ 2) :
    n.Prime ↔ 2 ≤ n ∧ ∀ p ∈ [2, 3, 5, 7, 11, 13, 17], p ∣ n → p = n := by
  constructor
  · intro h
    refine ⟨h.two_le, ?_⟩
    intro p hp hdvd
    have hp1 : p ≠ 1 := by
      rintro rfl
      simp at hp
    exact (h.eq_one_or_self_of_dvd p hdvd).resolve_left hp1
  · rintro ⟨htwo, hdiv⟩
    by_contra hnot
    have hprime := Nat.minFac_prime (show n ≠ 1 by omega)
    have hsq := Nat.minFac_sq_le_self (by omega) hnot
    have hlt : n.minFac < 19 := lt_of_pow_lt_pow_left₀ 2 (by omega) (hsq.trans_lt hn)
    have hmem : n.minFac ∈ [2, 3, 5, 7, 11, 13, 17] := by
      generalize n.minFac = q at hprime hlt
      interval_cases q <;> first | decide | exact absurd hprime (by norm_num)
    exact hnot ((hdiv _ hmem n.minFac_dvd) ▸ hprime)

lemma primes_eq : primes = (List.range 312).filter fun n =>
    decide (2 ≤ n ∧ ∀ p ∈ [2, 3, 5, 7, 11, 13, 17], p ∣ n → p = n) := by
  apply List.filter_congr
  intro n hn
  rw [List.mem_range] at hn
  exact decide_eq_decide.mpr (prime_iff_of_lt (by omega))

variable {block : Block} {t : ℕ}

lemma schedule_of_lt (h : t < 16) : schedule block t = word block ⟨t, h⟩ := by
  rw [schedule, dif_pos h]

lemma schedule_of_le (h : 16 ≤ t) :
    schedule block t = smallSigma1 (schedule block (t - 2)) + schedule block (t - 7) +
      smallSigma0 (schedule block (t - 15)) + schedule block (t - 16) := by
  rw [schedule, dif_neg (Nat.not_lt.mpr h)]

@[simp] lemma bigEndian_length (n x : ℕ) : (bigEndian n x).length = n := by simp [bigEndian]

@[simp] lemma bigEndian_getElem {n x i : ℕ} (hi : i < (bigEndian n x).length) :
    (bigEndian n x)[i] = UInt8.ofNat (x / 256 ^ (n - 1 - i)) := by
  simp only [bigEndian, List.getElem_ofFn]

lemma length_flatMap_toList (blocks : List Block) :
    (blocks.flatMap Vector.toList).length = 64 * blocks.length := by
  induction blocks with
  | nil => rfl
  | cons block blocks ih =>
    rw [List.flatMap_cons, List.length_append, ih, Vector.length_toList, List.length_cons]
    omega

lemma blockAt_zero (block : Block) (bytes : List UInt8) :
    blockAt (block.toList ++ bytes) 0 = block := by
  apply Vector.ext
  intro j hj
  rw [blockAt, Vector.getElem_ofFn, Nat.mul_zero, Nat.zero_add,
    List.getD_append _ _ _ _ (by simpa using hj), List.getD_eq_getElem _ _ (by simpa using hj),
    Vector.getElem_toList]

lemma blockAt_succ (block : Block) (bytes : List UInt8) (i : ℕ) :
    blockAt (block.toList ++ bytes) (i + 1) = blockAt bytes i := by
  apply Vector.ext
  intro j hj
  have hlen : block.toList.length ≤ 64 * (i + 1) + j := by
    rw [Vector.length_toList]
    omega
  rw [blockAt, Vector.getElem_ofFn, List.getD_append_right _ _ _ _ hlen, blockAt,
    Vector.getElem_ofFn, Vector.length_toList]
  congr 1
  dsimp only
  omega

/-- Whole blocks are parsed into these blocks. -/
lemma parse_flatMap (blocks : List Block) : parse (blocks.flatMap Vector.toList) = blocks := by
  have hdiv : ∀ blocks : List Block,
      (blocks.flatMap Vector.toList).length / 64 = blocks.length := fun blocks => by
    rw [length_flatMap_toList, Nat.mul_div_cancel_left _ (by omega)]
  induction blocks with
  | nil => rfl
  | cons block blocks ih =>
    rw [parse, hdiv] at ih
    rw [parse, hdiv, List.length_cons, List.range_succ_eq_map, List.map_cons, List.map_map,
      List.flatMap_cons, blockAt_zero]
    simp only [Function.comp_def, Nat.succ_eq_add_one, blockAt_succ]
    exact congrArg (block :: ·) ih

/-- The hash, when the padded message is made of the given blocks. -/
lemma hash_of_blocks {message : List UInt8} {blocks : List Block}
    (h : pad message = blocks.flatMap Vector.toList) :
    hash message =
      (blocks.foldl compress initialHash).toList.flatMap fun H => bigEndian 4 H.toNat := by
  rw [hash, h, parse_flatMap]

end JwtRevoker.Sha256Standard
