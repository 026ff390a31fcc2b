import JwtRevoker.Sha256
import JwtRevoker.Cpp
import JwtRevoker.StepRuns

/-!
# The loop of `sha256_update`

On contexts as they are declared, in which nothing keeps `datalen` inside the
buffer, and for any number of bytes: the counter of the loop has 32 bits, the
length 64.
-/
namespace JwtRevoker.SHA256

open StepRuns (Finishes)

/-- The fields of the context as they are declared. -/
structure RawCtx where
  data : Vector BYTE 64
  datalen : WORD
  bitlen : UInt64
  state : Vector WORD 8

def Sha256Ctx.raw (ctx : Sha256Ctx) : RawCtx where
  data := ctx.data
  datalen := UInt32.ofNat ctx.datalen
  bitlen := ctx.bitlen
  state := ctx.state

/-- The body of the loop. A write behind the buffer is undefined. -/
def RawCtx.takeByte (ctx : RawCtx) (byte : BYTE) : Except Fault RawCtx :=
  if h : ctx.datalen.toNat < 64 then
    let data := ctx.data.set ctx.datalen.toNat byte
    let datalen := ctx.datalen + 1
    if datalen = 64 then
      -- Of the context `sha256_transform` uses and changes the state only.
      let state := (sha256Transform { sha256Init data with state := ctx.state } data).state
      .ok { data, datalen := 0, bitlen := ctx.bitlen + 512, state }
    else .ok { ctx with data, datalen }
  else .error (.badIndex ctx.datalen.toNat 64)

/-- Where a call of `sha256_update` is: at the test of the loop condition, or back. The
indices of the bytes it has read are kept in the order of the reads. -/
inductive Update
  | test (i : WORD) (ctx : RawCtx) (read : List ℕ)
  | returned (ctx : RawCtx) (read : List ℕ)
  | undefined (fault : Fault)

/-- The test of the condition, and the iteration when it holds. -/
def next (data : List BYTE) : Update → Update
  | .test i ctx read =>
      if h : i.toNat < data.length then
        match ctx.takeByte data[i.toNat] with
        | .ok ctx => .test (i + 1) ctx (read ++ [i.toNat])
        | .error fault => .undefined fault
      else .returned ctx read
  | update => update

/-- The number of bits taken in, modulo 2^64. -/
def RawCtx.bits (ctx : RawCtx) : UInt64 := ctx.bitlen + 8 * ctx.datalen.toUInt64

/-- The call returns after as many iterations as there are bytes, which have read each
byte once, in order; the buffer has room, and the number of bits has been counted. -/
def Consumes (ctx : RawCtx) (data : List BYTE) : Prop :=
  ∃ i ctx', (next data)^[data.length] (.test 0 ctx []) =
      .test i ctx' (List.range data.length) ∧
    next data (.test i ctx' (List.range data.length)) =
      .returned ctx' (List.range data.length) ∧
    ctx'.datalen < 64 ∧ ctx'.bits = ctx.bits + 8 * UInt64.ofNat data.length

section

variable {ctx : Sha256Ctx} {data : List BYTE} {i : WORD} {read : List ℕ}

lemma raw_datalen_toNat (ctx : Sha256Ctx) : ctx.raw.datalen.toNat = ctx.datalen := by
  change (UInt32.ofNat ctx.datalen).toNat = ctx.datalen
  exact UInt32.toNat_ofNat_of_lt' (by have := ctx.datalen.isLt; change _ < 2 ^ 32; omega)

lemma raw_datalen_lt (ctx : Sha256Ctx) : ctx.raw.datalen < 64 := by
  rw [UInt32.lt_iff_toNat_lt, raw_datalen_toNat]
  exact ctx.datalen.isLt

/-- A context whose index is inside the buffer. -/
lemma exists_raw {ctx : RawCtx} (h : ctx.datalen.toNat < 64) : ∃ c : Sha256Ctx, c.raw = ctx := by
  refine ⟨⟨ctx.data, ⟨ctx.datalen.toNat, h⟩, ctx.bitlen, ctx.state⟩, ?_⟩
  simp [Sha256Ctx.raw]

lemma raw_datalen_succ (ctx : Sha256Ctx) :
    ctx.raw.datalen + 1 = UInt32.ofNat (ctx.datalen + 1) := by
  rw [UInt32.ofNat_add]
  rfl

lemma raw_datalen_succ_eq_iff (ctx : Sha256Ctx) :
    ctx.raw.datalen + 1 = 64 ↔ (ctx.datalen : ℕ) + 1 = 64 := by
  have hlt := ctx.datalen.isLt
  rw [raw_datalen_succ, ← UInt32.toNat_inj, UInt32.toNat_ofNat_of_lt' (by change _ < 2 ^ 32; omega)]
  rfl

/-- Inside the buffer the body keeps its index inside. -/
lemma takeByte_raw (ctx : Sha256Ctx) (byte : BYTE) :
    ctx.raw.takeByte byte = .ok (takeByte ctx byte).raw := by
  have hlt : ctx.raw.datalen.toNat < 64 := by
    rw [raw_datalen_toNat]
    exact ctx.datalen.isLt
  have hset : ctx.raw.data.set ctx.raw.datalen.toNat byte hlt = ctx.data.set ctx.datalen byte := by
    simp only [raw_datalen_toNat]
    rfl
  rw [RawCtx.takeByte, dif_pos hlt, takeByte]
  simp only [hset, raw_datalen_succ_eq_iff]
  split_ifs with hfull
  · rfl
  · simp only [raw_datalen_succ]
    rfl

lemma raw_bits (ctx : Sha256Ctx) : ctx.raw.bits = ctx.bitlen + UInt64.ofNat (8 * ctx.datalen) := by
  have hlt := ctx.datalen.isLt
  have hmul : 8 * ctx.raw.datalen.toUInt64 = UInt64.ofNat (8 * ctx.datalen) := by
    apply UInt64.toNat.inj
    rw [UInt64.toNat_mul, UInt32.toNat_toUInt64, raw_datalen_toNat,
      UInt64.toNat_ofNat_of_lt' (by change _ < 2 ^ 64; omega)]
    exact Nat.mod_eq_of_lt (by change 8 * _ < 2 ^ 64; omega)
  rw [RawCtx.bits, hmul]
  rfl

/-- A full buffer is counted in `bitlen` when its index goes back to 0. -/
lemma bits_takeByte (ctx : Sha256Ctx) (byte : BYTE) :
    (takeByte ctx byte).raw.bits = ctx.raw.bits + 8 := by
  have hnext : ctx.raw.bits + 8 = ctx.bitlen + UInt64.ofNat (8 * (ctx.datalen + 1)) := by
    rw [raw_bits, Nat.mul_succ, UInt64.ofNat_add, UInt64.add_assoc]
    rfl
  rw [hnext, raw_bits, takeByte]
  dsimp only
  split_ifs with hfull
  · rw [hfull, sha256Transform_eq]
    exact UInt64.add_zero _
  · rfl

lemma next_raw : next data (.test i ctx.raw read) =
    if h : i.toNat < data.length then
      .test (i + 1) (takeByte ctx data[i.toNat]).raw (read ++ [i.toNat])
    else .returned ctx.raw read := by
  rw [next]
  split_ifs with h
  · rw [takeByte_raw]
  · rfl

/-- After `k` iterations the first `k` bytes have been taken in, in order. -/
lemma iterate_next {k : ℕ} (hk : k ≤ data.length) (hwrap : k ≤ 2 ^ 32) :
    (next data)^[k] (.test 0 ctx.raw []) =
      .test (UInt32.ofNat k) ((data.take k).foldl takeByte ctx).raw (List.range k) := by
  induction k with
  | zero => rfl
  | succ k ih =>
    have htoNat : (UInt32.ofNat k).toNat = k :=
      UInt32.toNat_ofNat_of_lt' (by change _ < 2 ^ 32; omega)
    have hlt : (UInt32.ofNat k).toNat < data.length := by omega
    have htake : data.take (k + 1) = data.take k ++ [data[(UInt32.ofNat k).toNat]] := by
      simp only [htoNat]
      exact List.take_succ_eq_append_getElem hk
    have hread : List.range (k + 1) = List.range k ++ [(UInt32.ofNat k).toNat] := by
      rw [List.range_succ, htoNat]
    rw [Function.iterate_succ_apply', ih (by omega) (by omega), next_raw, dif_pos hlt, htake,
      hread, List.foldl_append, UInt32.ofNat_add]
    rfl

lemma bits_foldl (bytes : List BYTE) (ctx : Sha256Ctx) :
    (bytes.foldl takeByte ctx).raw.bits = ctx.raw.bits + 8 * UInt64.ofNat bytes.length := by
  induction bytes generalizing ctx with
  | nil => exact (UInt64.add_zero _).symm
  | cons byte bytes ih =>
    rw [List.foldl_cons, ih, bits_takeByte, List.length_cons, UInt64.ofNat_add, UInt64.mul_add,
      UInt64.add_assoc, UInt64.add_comm 8]
    rfl

/-- Below 2^32 bytes the counter reaches the length. -/
lemma consumes_of_short (ctx : Sha256Ctx) (hlen : data.length < 2 ^ 32) :
    Consumes ctx.raw data := by
  have htoNat : (UInt32.ofNat data.length).toNat = data.length :=
    UInt32.toNat_ofNat_of_lt' hlen
  have hrun : (next data)^[data.length] (.test 0 ctx.raw []) = _ :=
    iterate_next (le_refl data.length) hlen.le
  rw [List.take_length] at hrun
  refine ⟨_, _, hrun, ?_, raw_datalen_lt _, bits_foldl data ctx⟩
  rw [next_raw, dif_neg (by omega)]

def Update.Returned (update : Update) : Prop := ∃ ctx read, update = .returned ctx read

/-- From 2^32 bytes on every value of the counter is below the length. -/
lemma never_returns (hlen : 2 ^ 32 ≤ data.length) (i : WORD) (ctx : Sha256Ctx) (read : List ℕ) :
    ¬ Finishes (next data) Update.Returned (.test i ctx.raw read) := by
  refine StepRuns.not_finishes
    (fun update => ∃ (i : WORD) (ctx : Sha256Ctx) (read : List ℕ), update = .test i ctx.raw read)
    ?_ ?_ ⟨i, ctx, read, rfl⟩
  · rintro update ⟨i, ctx, read, rfl⟩
    have hlt : i.toNat < data.length := i.toNat_lt.trans_le hlen
    exact ⟨_, _, _, next_raw.trans (dif_pos hlt)⟩
  · rintro update ⟨i, ctx, read, rfl⟩ ⟨ctx', read', h⟩
    cases h

lemma not_consumes_of_long (ctx : Sha256Ctx) (hlen : 2 ^ 32 ≤ data.length) :
    ¬ Consumes ctx.raw data := by
  rintro ⟨i, ctx', hrun, hreturn, -⟩
  refine never_returns hlen 0 ctx [] ⟨data.length + 1, ctx', List.range data.length, ?_⟩
  rw [Function.iterate_succ_apply', hrun, hreturn]

/-- Outside of the buffer nothing is counted, or the first write is undefined. -/
lemma not_consumes_of_outside {ctx : RawCtx} (h : 64 ≤ ctx.datalen.toNat) (data : List BYTE) :
    ¬ Consumes ctx data := by
  rintro ⟨i, ctx', hrun, -, hlt, -⟩
  cases data with
  | nil =>
    cases hrun
    exact absurd (UInt32.lt_iff_toNat_lt.mp hlt) (not_lt.mpr h)
  | cons byte bytes =>
    have hfirst : next (byte :: bytes) (.test 0 ctx []) =
        .undefined (.badIndex ctx.datalen.toNat 64) := by
      rw [next, dif_pos (by simp), RawCtx.takeByte, dif_neg (by omega)]
    rw [List.length_cons, Function.iterate_succ_apply, hfirst, Function.iterate_fixed rfl] at hrun
    cases hrun

/-- The call takes in its bytes exactly when there are fewer than 2^32 of them and the
index is inside the buffer before. -/
theorem consumes_iff (ctx : RawCtx) (data : List BYTE) :
    Consumes ctx data ↔ ctx.datalen < 64 ∧ data.length < 2 ^ 32 := by
  rw [UInt32.lt_iff_toNat_lt]
  constructor
  · intro h
    have hinside : ctx.datalen.toNat < 64 := by
      by_contra hn
      exact not_consumes_of_outside (not_lt.mp hn) data h
    obtain ⟨c, rfl⟩ := exists_raw hinside
    refine ⟨hinside, ?_⟩
    by_contra hn
    exact not_consumes_of_long c (not_lt.mp hn) h
  · rintro ⟨hinside, hlen⟩
    obtain ⟨c, rfl⟩ := exists_raw hinside
    exact consumes_of_short c hlen

/-- A fresh context and 2^32 bytes. -/
theorem long_data_not_consumed :
    ¬ Consumes (sha256Init (Vector.replicate 64 0)).raw (List.replicate (2 ^ 32) 0) :=
  not_consumes_of_long _ (by rw [List.length_replicate])

/-- The loop with fuel ends in the context the call returns with. -/
lemma returned_of_updateLoop {fuel : ℕ} {c : Sha256Ctx}
    (h : updateLoop data fuel i ctx = some c) (read : List ℕ) :
    ∃ read', (next data)^[fuel] (.test i ctx.raw read) = .returned c.raw read' := by
  induction fuel generalizing i ctx read with
  | zero => cases h
  | succ fuel ih =>
    rw [updateLoop] at h
    rw [Function.iterate_succ_apply, next_raw]
    split_ifs at h ⊢ with hlt
    · exact ih h _
    · cases h
      exact ⟨read, Function.iterate_fixed rfl fuel⟩

/-- No fuel is enough for 2^32 bytes. -/
theorem sha256Update_eq_none (hlen : 2 ^ 32 ≤ data.length) (fuel : ℕ) (ctx : Sha256Ctx) :
    sha256Update fuel ctx data = none := by
  rw [← Option.not_isSome_iff_eq_none, Option.isSome_iff_exists]
  rintro ⟨c, h⟩
  obtain ⟨read, hreturned⟩ := returned_of_updateLoop h []
  exact never_returns hlen 0 ctx [] ⟨fuel, c.raw, read, hreturned⟩

end

end JwtRevoker.SHA256
