import JwtRevoker.Sha256Standard

/-!
# The SHA-256 of the repository

`SHA256.cpp`: a context that takes the bytes one at a time into a buffer of 64
and transforms the buffer when it is full. For any splitting of the input into
calls of `sha256_update`, it computes the standard's hash.
-/
namespace JwtRevoker.SHA256

abbrev BYTE := UInt8
abbrev WORD := UInt32

/-- Between two calls the buffer is never full. -/
structure Sha256Ctx where
  data : Vector BYTE 64
  datalen : Fin 64
  bitlen : UInt64
  state : Vector WORD 8

def rotright (a b : WORD) : WORD := (a >>> b) ||| (a <<< (32 - b))

def ch (x y z : WORD) : WORD := (x &&& y) ^^^ (~~~x &&& z)
def maj (x y z : WORD) : WORD := (x &&& y) ^^^ (x &&& z) ^^^ (y &&& z)
def ep0 (x : WORD) : WORD := rotright x 2 ^^^ rotright x 13 ^^^ rotright x 22
def ep1 (x : WORD) : WORD := rotright x 6 ^^^ rotright x 11 ^^^ rotright x 25
def sig0 (x : WORD) : WORD := rotright x 7 ^^^ rotright x 18 ^^^ (x >>> 3)
def sig1 (x : WORD) : WORD := rotright x 17 ^^^ rotright x 19 ^^^ (x >>> 10)

def k : Vector WORD 64 :=
  #v[0x428a2f98, 0x71374491, 0xb5c0fbcf, 0xe9b5dba5, 0x3956c25b, 0x59f111f1, 0x923f82a4, 0xab1c5ed5,
    0xd807aa98, 0x12835b01, 0x243185be, 0x550c7dc3, 0x72be5d74, 0x80deb1fe, 0x9bdc06a7, 0xc19bf174,
    0xe49b69c1, 0xefbe4786, 0x0fc19dc6, 0x240ca1cc, 0x2de92c6f, 0x4a7484aa, 0x5cb0a9dc, 0x76f988da,
    0x983e5152, 0xa831c66d, 0xb00327c8, 0xbf597fc7, 0xc6e00bf3, 0xd5a79147, 0x06ca6351, 0x14292967,
    0x27b70a85, 0x2e1b2138, 0x4d2c6dfc, 0x53380d13, 0x650a7354, 0x766a0abb, 0x81c2c92e, 0x92722c85,
    0xa2bfe8a1, 0xa81a664b, 0xc24b8b70, 0xc76c51a3, 0xd192e819, 0xd6990624, 0xf40e3585, 0x106aa070,
    0x19a4c116, 0x1e376c08, 0x2748774c, 0x34b0bcb5, 0x391c0cb3, 0x4ed8aa4a, 0x5b9cca4f, 0x682e6ff3,
    0x748f82ee, 0x78a5636f, 0x84c87814, 0x8cc70208, 0x90befffa, 0xa4506ceb, 0xbef9a3f7, 0xc67178f2]

/-- The first `n` entries of `m`, which the two loops fill in order. -/
def expand (data : Vector BYTE 64) : (n : ℕ) → n ≤ 64 → Vector WORD n
  | 0, _ => #v[]
  | i + 1, hi =>
      let m := expand data i (by omega)
      m.push (if hlt : i < 16 then
          let j := 4 * i
          (data[j].toUInt32 <<< 24) ||| (data[j + 1].toUInt32 <<< 16) |||
            (data[j + 2].toUInt32 <<< 8) ||| data[j + 3].toUInt32
        else sig1 m[i - 2] + m[i - 7] + sig0 m[i - 15] + m[i - 16])

/-- The local variables `a` to `h` of `sha256_transform`. -/
structure Locals where
  a : WORD
  b : WORD
  c : WORD
  d : WORD
  e : WORD
  f : WORD
  g : WORD
  h : WORD

def Locals.round (v : Locals) (ki mi : WORD) : Locals :=
  let t1 := v.h + ep1 v.e + ch v.e v.f v.g + ki + mi
  let t2 := ep0 v.a + maj v.a v.b v.c
  { h := v.g, g := v.f, f := v.e, e := v.d + t1, d := v.c, c := v.b, b := v.a, a := t1 + t2 }

def Locals.ofState (s : Vector WORD 8) : Locals :=
  ⟨s.get 0, s.get 1, s.get 2, s.get 3, s.get 4, s.get 5, s.get 6, s.get 7⟩

def Locals.addTo (v : Locals) (s : Vector WORD 8) : Vector WORD 8 :=
  #v[s.get 0 + v.a, s.get 1 + v.b, s.get 2 + v.c, s.get 3 + v.d, s.get 4 + v.e, s.get 5 + v.f,
    s.get 6 + v.g, s.get 7 + v.h]

def rounds (m : Vector WORD 64) (v : Locals) : Locals :=
  (List.finRange 64).foldl (fun v i => v.round (k.get i) (m.get i)) v

def sha256Transform (ctx : Sha256Ctx) (data : Vector BYTE 64) : Sha256Ctx :=
  let m := expand data 64 (le_refl 64)
  { ctx with state := (rounds m (Locals.ofState ctx.state)).addTo ctx.state }

/-- What an uninitialised context has in its buffer stays there. -/
def sha256Init (buffer : Vector BYTE 64) : Sha256Ctx where
  data := buffer
  datalen := 0
  bitlen := 0
  state := #v[0x6a09e667, 0xbb67ae85, 0x3c6ef372, 0xa54ff53a, 0x510e527f, 0x9b05688c, 0x1f83d9ab,
    0x5be0cd19]

/-- One iteration of the loop of `sha256_update`. -/
def takeByte (ctx : Sha256Ctx) (byte : BYTE) : Sha256Ctx :=
  let data := ctx.data.set ctx.datalen byte
  if h : (ctx.datalen : ℕ) + 1 = 64 then
    let ctx := sha256Transform { ctx with data } data
    { ctx with bitlen := ctx.bitlen + 512, datalen := 0 }
  else { ctx with data, datalen := ⟨ctx.datalen + 1, by omega⟩ }

/-- The loop of `sha256_update` from the counter `i` on; `none` when it has not ended
after `fuel` tests of its condition. -/
def updateLoop (data : List BYTE) : (fuel : ℕ) → (i : WORD) → Sha256Ctx → Option Sha256Ctx
  | 0, _, _ => none
  | fuel + 1, i, ctx =>
      if h : i.toNat < data.length then updateLoop data fuel (i + 1) (takeByte ctx data[i.toNat])
      else some ctx

def sha256Update (fuel : ℕ) (ctx : Sha256Ctx) (data : List BYTE) : Option Sha256Ctx :=
  updateLoop data fuel 0 ctx

/-- `count` bytes from `start` on are set to 0, by `memset` or by a loop. -/
def zeroFrom (data : Vector BYTE 64) (start : ℕ) : (count : ℕ) → Vector BYTE 64
  | 0 => data
  | count + 1 => (zeroFrom data start count).setIfInBounds (start + count) 0x00

/-- The eight assignments of the length in bits. -/
def appendBitlen (data : Vector BYTE 64) (bitlen : UInt64) : Vector BYTE 64 :=
  let data := data.set 63 bitlen.toUInt8
  let data := data.set 62 (bitlen >>> 8).toUInt8
  let data := data.set 61 (bitlen >>> 16).toUInt8
  let data := data.set 60 (bitlen >>> 24).toUInt8
  let data := data.set 59 (bitlen >>> 32).toUInt8
  let data := data.set 58 (bitlen >>> 40).toUInt8
  let data := data.set 57 (bitlen >>> 48).toUInt8
  data.set 56 (bitlen >>> 56).toUInt8

/-- Byte `i` of word `j` of the state goes to `hash[i + 4 * j]`. -/
def writeHash (state : Vector WORD 8) : Vector BYTE 32 :=
  Vector.ofFn fun n : Fin 32 =>
    let i := n.val % 4
    ((state[n.val / 4] >>> UInt32.ofNat (24 - i * 8)) &&& 0x000000ff).toUInt8

def sha256Final (ctx : Sha256Ctx) : Vector BYTE 32 :=
  let i : ℕ := ctx.datalen
  let data := ctx.data.set i 0x80
  let ctx :=
    if i < 56 then { ctx with data := zeroFrom data (i + 1) (56 - (i + 1)) }
    else
      let data := zeroFrom data (i + 1) (64 - (i + 1))
      { sha256Transform ctx data with data := zeroFrom data 0 56 }
  let bitlen := ctx.bitlen + UInt64.ofNat (ctx.datalen * 8)
  writeHash (sha256Transform ctx (appendBitlen ctx.data bitlen)).state

/-- What init, one call of update for each chunk, and final leave in `hash`. -/
def hashChunks (fuel : ℕ) (buffer : Vector BYTE 64) (chunks : List (List BYTE)) :
    Option (Vector BYTE 32) :=
  (chunks.foldlM (sha256Update fuel) (sha256Init buffer)).map sha256Final

open Sha256Standard (schedule compress initialHash roundConstants bigEndian ofBigEndian)

variable {ctx : Sha256Ctx} {data : Vector BYTE 64}

lemma k_eq_roundConstants : k = roundConstants := by
  unfold roundConstants
  rw [Sha256Standard.primes_eq]
  decide +kernel

lemma initialHash_eq : (sha256Init data).state = initialHash := by
  change (sha256Init (Vector.replicate 64 0)).state = initialHash
  unfold initialHash
  rw [Sha256Standard.primes_eq]
  decide +kernel

lemma shiftLeft_or_byte {b : ℕ} (x : ℕ) (hb : b < 256) : x <<< 8 ||| b = 256 * x + b := by
  rw [← Nat.shiftLeft_add_eq_or_of_lt hb, Nat.shiftLeft_eq]
  omega

lemma toNat_shiftLeft_byte (b : BYTE) {n : ℕ} (hn : n ≤ 24) :
    (b.toUInt32 <<< UInt32.ofNat n).toNat = b.toNat <<< n := by
  have hb := b.toNat_lt
  have hle : 2 ^ n ≤ 2 ^ 24 := Nat.pow_le_pow_right (by omega) hn
  have hlt : b.toNat * 2 ^ n < 2 ^ 32 := by nlinarith
  have hn' : n % 2 ^ 32 % 32 = n := by omega
  rw [UInt32.toNat_shiftLeft, UInt8.toNat_toUInt32, UInt32.toNat_ofNat', hn', Nat.shiftLeft_eq,
    Nat.mod_eq_of_lt hlt]

/-- Four bytes put together with shifts are a word read with the first byte on top. -/
lemma word_of_bytes (b0 b1 b2 b3 : BYTE) :
    (b0.toUInt32 <<< 24) ||| (b1.toUInt32 <<< 16) ||| (b2.toUInt32 <<< 8) ||| b3.toUInt32 =
      UInt32.ofNat (ofBigEndian [b0, b1, b2, b3]) := by
  have h0 := b0.toNat_lt
  have h1 := b1.toNat_lt
  have h2 := b2.toNat_lt
  have h3 := b3.toNat_lt
  have hhorner : b0.toNat <<< 24 ||| b1.toNat <<< 16 ||| b2.toNat <<< 8 ||| b3.toNat =
      256 * (256 * (256 * b0.toNat + b1.toNat) + b2.toNat) + b3.toNat := by
    calc b0.toNat <<< 24 ||| b1.toNat <<< 16 ||| b2.toNat <<< 8 ||| b3.toNat
        = ((b0.toNat <<< 8 ||| b1.toNat) <<< 8 ||| b2.toNat) <<< 8 ||| b3.toNat := by
          simp only [Nat.shiftLeft_or_distrib, ← Nat.shiftLeft_add]
      _ = 256 * (256 * (256 * b0.toNat + b1.toNat) + b2.toNat) + b3.toNat := by
          rw [shiftLeft_or_byte _ h1, shiftLeft_or_byte _ h2, shiftLeft_or_byte _ h3]
  have hvalue : ofBigEndian [b0, b1, b2, b3] =
      256 * (256 * (256 * b0.toNat + b1.toNat) + b2.toNat) + b3.toNat := by
    simp [ofBigEndian]
  have hlt : ofBigEndian [b0, b1, b2, b3] < 2 ^ 32 := by omega
  have h24 : (b0.toUInt32 <<< 24).toNat = b0.toNat <<< 24 :=
    toNat_shiftLeft_byte b0 (n := 24) (by omega)
  have h16 : (b1.toUInt32 <<< 16).toNat = b1.toNat <<< 16 :=
    toNat_shiftLeft_byte b1 (n := 16) (by omega)
  have h8 : (b2.toUInt32 <<< 8).toNat = b2.toNat <<< 8 :=
    toNat_shiftLeft_byte b2 (n := 8) (by omega)
  apply UInt32.toNat.inj
  rw [UInt32.toNat_or, UInt32.toNat_or, UInt32.toNat_or, h24, h16, h8, UInt8.toNat_toUInt32,
    UInt32.toNat_ofNat_of_lt' hlt, hvalue, hhorner]

lemma expand_getElem (n : ℕ) (hn : n ≤ 64) (t : ℕ) (ht : t < n) :
    (expand data n hn)[t] = schedule data t := by
  induction n generalizing t with
  | zero => exact absurd ht (Nat.not_lt_zero t)
  | succ i ih =>
    rw [expand]
    dsimp only
    rcases Nat.lt_succ_iff_lt_or_eq.mp ht with hlt | rfl
    · rw [Vector.getElem_push_lt hlt]
      exact ih _ t hlt
    · rw [Vector.getElem_push_eq]
      split_ifs with h16
      · rw [Sha256Standard.schedule_of_lt h16]
        exact word_of_bytes _ _ _ _
      · rw [Sha256Standard.schedule_of_le (Nat.not_lt.mp h16), ih, ih, ih, ih]
        rfl

def Locals.toVars (v : Locals) : Sha256Standard.Vars := ⟨v.a, v.b, v.c, v.d, v.e, v.f, v.g, v.h⟩

lemma Locals.toVars_round (v : Locals) (ki mi : WORD) :
    (v.round ki mi).toVars = Sha256Standard.round ki mi v.toVars := rfl

lemma Locals.addTo_eq (v : Locals) (s : Vector WORD 8) : v.addTo s = v.toVars.addTo s := by
  simp only [Locals.addTo, Sha256Standard.Vars.addTo, Locals.toVars, UInt32.add_comm]
  rfl

lemma rounds_toVars {m : Vector WORD 64} (hm : ∀ t (ht : t < 64), m[t] = schedule data t)
    (v : Locals) :
    (rounds m v).toVars = (List.finRange 64).foldl (fun v (t : Fin 64) =>
      Sha256Standard.round (roundConstants.get t) (schedule data t) v) v.toVars := by
  refine (List.foldl_hom Locals.toVars fun v t => ?_).symm
  rw [← hm t t.isLt, ← k_eq_roundConstants]
  exact (v.toVars_round (k.get t) (m.get t)).symm

/-- The transformation compresses one block into the state. -/
lemma sha256Transform_eq :
    sha256Transform ctx data = { ctx with state := compress ctx.state data } := by
  have hm : ∀ t (ht : t < 64), (expand data 64 (le_refl 64))[t] = schedule data t :=
    expand_getElem 64 (le_refl 64)
  unfold sha256Transform compress
  dsimp only
  rw [Locals.addTo_eq, rounds_toVars hm]
  rfl

lemma toUInt8_shiftRight (w : WORD) {n : ℕ} (hn : n < 32) :
    ((w >>> UInt32.ofNat n) &&& 0x000000ff).toUInt8 = UInt8.ofNat (w.toNat / 2 ^ n) := by
  have hn' : n % 2 ^ 32 % 32 = n := by omega
  apply UInt8.toNat.inj
  rw [UInt32.toNat_toUInt8, UInt32.toNat_and, UInt32.toNat_shiftRight, UInt32.toNat_ofNat', hn',
    Nat.shiftRight_eq_div_pow, UInt8.toNat_ofNat']
  exact (congrArg (· % 2 ^ 8) (Nat.and_two_pow_sub_one_eq_mod (w.toNat / 2 ^ n) 8)).trans
    (Nat.mod_mod _ _)

lemma bigEndian_word (w : WORD) :
    bigEndian 4 w.toNat = List.ofFn fun i : Fin 4 =>
      ((w >>> UInt32.ofNat (24 - i.val * 8)) &&& 0x000000ff).toUInt8 := by
  rw [bigEndian]
  congr 1
  funext i
  have hpow : 2 ^ (24 - i.val * 8) = 256 ^ (4 - 1 - i.val) := by
    rw [show (256 : ℕ) = 2 ^ 8 from rfl, ← pow_mul]
    congr 1
    omega
  rw [toUInt8_shiftRight w (by omega), hpow]

/-- The digest is the words of the state, each with its most significant byte first. -/
lemma writeHash_toList (state : Vector WORD 8) :
    (writeHash state).toList = state.toList.flatMap fun H => bigEndian 4 H.toNat := by
  have hlist : state.toList = List.ofFn fun j : Fin 8 => state[j] := by
    apply List.ext_getElem
    · simp
    · intro j hj hj'
      rw [List.getElem_ofFn, Vector.getElem_toList]
      rfl
  rw [writeHash, Vector.toList_ofFn, List.ofFn_mul (m := 8) (n := 4), hlist, List.flatMap_def,
    List.map_ofFn]
  congr 2
  funext j
  rw [Function.comp_apply, bigEndian_word]
  congr 1
  funext i
  have hdiv : (j.val * 4 + i.val) / 4 = j := by omega
  have hmod : (j.val * 4 + i.val) % 4 = i := by omega
  simp only [hdiv, hmod]
  rfl

/-- Whole blocks are in the state, the rest of the bytes is in the buffer. -/
structure Absorbed (ctx : Sha256Ctx) (blocks : List Sha256Standard.Block) (bytes : List BYTE) :
    Prop where
  bytes_eq : blocks.flatMap Vector.toList ++ ctx.data.toList.take ctx.datalen = bytes
  state_eq : ctx.state = blocks.foldl compress initialHash
  bitlen_eq : ctx.bitlen = UInt64.ofNat (512 * blocks.length)

lemma absorbed_init (buffer : Vector BYTE 64) : Absorbed (sha256Init buffer) [] [] :=
  ⟨rfl, initialHash_eq, rfl⟩

lemma take_set_succ (data : Vector BYTE 64) {i : ℕ} (hi : i < 64) (byte : BYTE) :
    (data.set i byte).toList.take (i + 1) = data.toList.take i ++ [byte] := by
  have hlen : i < (data.toList.set i byte).length := by simpa using hi
  rw [Vector.toList_set, List.take_succ_eq_append_getElem hlen, List.take_set_of_le (le_refl i),
    List.getElem_set_self]

lemma Absorbed.takeByte {blocks : List Sha256Standard.Block} {bytes : List BYTE}
    (h : Absorbed ctx blocks bytes) (byte : BYTE) :
    ∃ blocks', Absorbed (takeByte ctx byte) blocks' (bytes ++ [byte]) := by
  have htake := take_set_succ ctx.data ctx.datalen.isLt byte
  unfold SHA256.takeByte
  dsimp only
  split_ifs with hfull
  · -- the buffer is full and becomes the next block
    refine ⟨blocks ++ [ctx.data.set ctx.datalen byte], ?_, ?_, ?_⟩
    · rw [hfull, List.take_of_length_le (by simp)] at htake
      rw [sha256Transform_eq, List.flatMap_append, List.flatMap_singleton, htake, ← h.bytes_eq,
        List.append_assoc]
      simp
    · rw [sha256Transform_eq, List.foldl_append, ← h.state_eq]
      rfl
    · rw [sha256Transform_eq, List.length_append, Nat.mul_add, UInt64.ofNat_add, ← h.bitlen_eq]
      rfl
  · refine ⟨blocks, ?_, h.state_eq, h.bitlen_eq⟩
    rw [← h.bytes_eq, List.append_assoc, ← htake]

lemma absorbed_foldl (buffer : Vector BYTE 64) (bytes : List BYTE) :
    ∃ blocks, Absorbed (bytes.foldl takeByte (sha256Init buffer)) blocks bytes := by
  induction bytes using List.reverseRecOn with
  | nil => exact ⟨[], absorbed_init buffer⟩
  | append_singleton bytes byte ih =>
    obtain ⟨blocks, h⟩ := ih
    rw [List.foldl_append]
    exact h.takeByte byte

/-- Below 2^32 bytes the counter reaches the length, and each byte is taken once. -/
lemma updateLoop_eq {data : List BYTE} (hdata : data.length < 2 ^ 32) {fuel : ℕ} {i : WORD}
    (hi : i.toNat ≤ data.length) (hfuel : data.length < i.toNat + fuel) :
    updateLoop data fuel i ctx = some ((data.drop i.toNat).foldl takeByte ctx) := by
  induction fuel generalizing i ctx with
  | zero => omega
  | succ fuel ih =>
    rw [updateLoop]
    split_ifs with hlt
    · have hsucc : (i + 1).toNat = i.toNat + 1 := by
        rw [UInt32.toNat_add]
        exact Nat.mod_eq_of_lt (by simp; omega)
      rw [ih (by omega) (by omega), hsucc, List.drop_eq_getElem_cons hlt, List.foldl_cons]
    · rw [List.drop_of_length_le (Nat.not_lt.mp hlt)]
      rfl

lemma sha256Update_eq {data : List BYTE} (hdata : data.length < 2 ^ 32) {fuel : ℕ}
    (hfuel : data.length < fuel) : sha256Update fuel ctx data = some (data.foldl takeByte ctx) :=
  updateLoop_eq hdata (Nat.zero_le _) (by simpa using hfuel)

/-- The calls of update take the bytes of all chunks. -/
lemma foldlM_sha256Update {chunks : List (List BYTE)} {fuel : ℕ}
    (hlen : ∀ chunk ∈ chunks, chunk.length < 2 ^ 32)
    (hfuel : ∀ chunk ∈ chunks, chunk.length < fuel) :
    chunks.foldlM (sha256Update fuel) ctx = some (chunks.flatten.foldl takeByte ctx) := by
  induction chunks generalizing ctx with
  | nil => rfl
  | cons chunk chunks ih =>
    rw [List.forall_mem_cons] at hlen hfuel
    rw [List.foldlM_cons, sha256Update_eq hlen.1 hfuel.1, List.flatten_cons, List.foldl_append]
    exact ih hlen.2 hfuel.2

lemma zeroFrom_getElem (data : Vector BYTE 64) (start count : ℕ) {j : ℕ} (hj : j < 64) :
    (zeroFrom data start count)[j] =
      if start ≤ j ∧ j < start + count then 0x00 else data[j] := by
  induction count with
  | zero =>
    rw [if_neg (by omega)]
    rfl
  | succ count ih =>
    rw [zeroFrom, Vector.getElem_setIfInBounds hj, ih]
    split_ifs <;> first | rfl | omega

/-- The byte 0x80 and zeros up to `bound` follow what the buffer holds. -/
lemma take_zeroFrom (data : Vector BYTE 64) {i bound : ℕ} (hi : i < bound) (hb : bound ≤ 64) :
    (zeroFrom (data.set i 0x80 (by omega)) (i + 1) (bound - (i + 1))).toList.take bound =
      data.toList.take i ++ 0x80 :: List.replicate (bound - (i + 1)) 0 := by
  apply List.ext_getElem
  · simp
    omega
  · intro j hj hj'
    have hjb : j < bound := (List.length_take_le bound _).trans_lt' hj
    have hj64 : j < 64 := by omega
    rw [List.getElem_take, Vector.getElem_toList, zeroFrom_getElem _ _ _ hj64,
      Vector.getElem_set _ hj64]
    simp only [List.getElem_append, List.length_take, Vector.length_toList, List.getElem_take,
      Vector.getElem_toList, List.getElem_cons, List.getElem_replicate]
    split_ifs <;> first | rfl | omega

lemma toUInt8_bitlen (bitlen : UInt64) {n : ℕ} (hn : n < 64) :
    (bitlen >>> UInt64.ofNat n).toUInt8 = UInt8.ofNat (bitlen.toNat / 2 ^ n) := by
  have hn' : n % 2 ^ 64 % 64 = n := by omega
  apply UInt8.toNat.inj
  rw [UInt64.toNat_toUInt8, UInt64.toNat_shiftRight, UInt64.toNat_ofNat', hn',
    Nat.shiftRight_eq_div_pow, UInt8.toNat_ofNat']

lemma appendBitlen_toList (data : Vector BYTE 64) (bitlen : UInt64) :
    (appendBitlen data bitlen).toList = data.toList.take 56 ++ bigEndian 8 bitlen.toNat := by
  apply List.ext_getElem
  · simp
  · intro j hj hj'
    have hj64 : j < 64 := by simpa using hj
    rw [Vector.getElem_toList]
    by_cases h56 : j < 56
    · rw [List.getElem_append_left (by simpa using h56), List.getElem_take, Vector.getElem_toList]
      simp only [appendBitlen, Vector.getElem_set]
      split_ifs <;> first | rfl | omega
    · have hlen : (data.toList.take 56).length = 56 := by simp
      rw [List.getElem_append_right (by simpa using h56), Sha256Standard.bigEndian_getElem, hlen]
      simp only [appendBitlen, Vector.getElem_set]
      have hj56 : j = 56 ∨ j = 57 ∨ j = 58 ∨ j = 59 ∨ j = 60 ∨ j = 61 ∨ j = 62 ∨ j = 63 := by omega
      rcases hj56 with rfl | rfl | rfl | rfl | rfl | rfl | rfl | rfl
      · exact toUInt8_bitlen bitlen (n := 56) (by omega)
      · exact toUInt8_bitlen bitlen (n := 48) (by omega)
      · exact toUInt8_bitlen bitlen (n := 40) (by omega)
      · exact toUInt8_bitlen bitlen (n := 32) (by omega)
      · exact toUInt8_bitlen bitlen (n := 24) (by omega)
      · exact toUInt8_bitlen bitlen (n := 16) (by omega)
      · exact toUInt8_bitlen bitlen (n := 8) (by omega)
      · exact toUInt8_bitlen bitlen (n := 0) (by omega)

lemma take_zeroFrom_zero (data : Vector BYTE 64) :
    (zeroFrom data 0 56).toList.take 56 = List.replicate 56 0 := by
  apply List.ext_getElem
  · simp
  · intro j hj hj'
    have hj56 : j < 56 := by simpa using hj'
    rw [List.getElem_take, Vector.getElem_toList, zeroFrom_getElem _ _ _ (by omega),
      if_pos (by omega), List.getElem_replicate]

/-- The digest of a context that has taken in fewer than 2^61 bytes. -/
lemma Absorbed.sha256Final {blocks : List Sha256Standard.Block} {bytes : List BYTE}
    (h : Absorbed ctx blocks bytes) (hlen : bytes.length < 2 ^ 61) :
    (sha256Final ctx).toList = Sha256Standard.hash bytes := by
  have hlt := ctx.datalen.isLt
  have hlength : bytes.length = 64 * blocks.length + ctx.datalen := by
    rw [← h.bytes_eq, List.length_append, Sha256Standard.length_flatMap_toList, List.length_take,
      Vector.length_toList]
    omega
  have hbits : (ctx.bitlen + UInt64.ofNat (ctx.datalen * 8)).toNat = 8 * bytes.length := by
    rw [h.bitlen_eq, ← UInt64.ofNat_add, UInt64.toNat_ofNat_of_lt' (by show _ < 2 ^ 64; omega)]
    omega
  unfold SHA256.sha256Final
  dsimp only
  rw [writeHash_toList]
  split_ifs with hi
  · -- the length fits behind the rest of the message
    have hpad : Sha256Standard.pad bytes = (blocks ++ [appendBitlen
        (zeroFrom (ctx.data.set ctx.datalen 0x80) (ctx.datalen + 1) (56 - (ctx.datalen + 1)))
        (ctx.bitlen + UInt64.ofNat (ctx.datalen * 8))]).flatMap Vector.toList := by
      have hzeros : Sha256Standard.zeroBytes bytes.length = 56 - (ctx.datalen + 1) := by
        unfold Sha256Standard.zeroBytes
        omega
      rw [List.flatMap_append, List.flatMap_singleton, appendBitlen_toList, hbits,
        take_zeroFrom _ hi (by omega), Sha256Standard.pad, hzeros]
      nth_rewrite 1 [← h.bytes_eq]
      simp
    rw [Sha256Standard.hash_of_blocks hpad, List.foldl_append, ← h.state_eq, sha256Transform_eq]
    rfl
  · -- a block of its own for the length
    set data := zeroFrom (ctx.data.set ctx.datalen 0x80) (ctx.datalen + 1)
      (64 - (ctx.datalen + 1)) with hdata
    have hpad : Sha256Standard.pad bytes = (blocks ++ [data, appendBitlen (zeroFrom data 0 56)
        (ctx.bitlen + UInt64.ofNat (ctx.datalen * 8))]).flatMap Vector.toList := by
      have hzeros : Sha256Standard.zeroBytes bytes.length = (64 - (ctx.datalen + 1)) + 56 := by
        unfold Sha256Standard.zeroBytes
        omega
      have hfirst := take_zeroFrom ctx.data hlt (le_refl 64)
      rw [← hdata, List.take_of_length_le (by simp)] at hfirst
      rw [List.flatMap_append, List.flatMap_cons, List.flatMap_singleton, appendBitlen_toList,
        hbits, take_zeroFrom_zero, hfirst, Sha256Standard.pad, hzeros, List.replicate_add]
      nth_rewrite 1 [← h.bytes_eq]
      simp only [List.append_assoc, List.cons_append]
    rw [Sha256Standard.hash_of_blocks hpad, List.foldl_append, ← h.state_eq, sha256Transform_eq,
      sha256Transform_eq]
    rfl

/-- Whatever the context held before, and however the bytes are split into calls, the
digest is the standard's. -/
theorem hashChunks_eq_standard (buffer : Vector BYTE 64) (chunks : List (List BYTE))
    (hlen : ∀ chunk ∈ chunks, chunk.length < 2 ^ 32) (htotal : chunks.flatten.length < 2 ^ 61) :
    ∃ enough, ∀ fuel ≥ enough, ∃ digest, hashChunks fuel buffer chunks = some digest ∧
      digest.toList = Sha256Standard.hash chunks.flatten := by
  refine ⟨2 ^ 32, ?_⟩
  intro fuel hfuel
  obtain ⟨blocks, h⟩ := absorbed_foldl buffer chunks.flatten
  refine ⟨_, ?_, h.sha256Final htotal⟩
  rw [hashChunks, foldlM_sha256Update hlen fun chunk hc => (hlen chunk hc).trans_le hfuel]
  rfl

theorem hashChunks_eq_standard_abc :
    ([[97], [98, 99]] : List (List BYTE)).flatten.length < 2 ^ 61 ∧
    ∃ enough, ∀ fuel ≥ enough, ∃ digest,
      hashChunks fuel (Vector.replicate 64 7) [[97], [98, 99]] = some digest ∧
        digest.toList = Sha256Standard.hash [97, 98, 99] :=
  ⟨by decide, hashChunks_eq_standard _ [[97], [98, 99]] (by decide) (by decide)⟩

example : hashChunks 10 (Vector.replicate 64 7) [[97], [98, 99]] = some
    #v[0xba, 0x78, 0x16, 0xbf, 0x8f, 0x01, 0xcf, 0xea, 0x41, 0x41, 0x40, 0xde, 0x5d, 0xae, 0x22,
      0x23, 0xb0, 0x03, 0x61, 0xa3, 0x96, 0x17, 0x7a, 0x9c, 0xb4, 0x10, 0xff, 0x61, 0xf2, 0x00,
      0x15, 0xad] := by
  decide +kernel

end JwtRevoker.SHA256
