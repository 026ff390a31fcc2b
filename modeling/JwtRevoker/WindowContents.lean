import JwtRevoker.LogReplay

/-!
# What the window holds and what queries read from it

The survivors of a history in a slot are the tokens of the accepted revocations
that still reach it. The bits and the count of every slot are exactly theirs,
and a query is decided by the survivors of the last slot it consults.
-/
namespace JwtRevoker

open EngineM

namespace Engine

def rotations : List Op → ℕ
  | [] => 0
  | .rotate _ :: later => rotations later + 1
  | _ :: later => rotations later

/-- Tokens of the revocations of a chronological history that were accepted and
whose quotient of remaining lifetime and rotation interval exceeds the slot
number plus the rotations since. -/
def survivors (maxJwtLifeTime rotationInterval slot : ℕ) : List Op → List Str
  | [] => []
  | .revokeJwt token expTime now :: later =>
      if (0 < expTime - now ∧ expTime - now ≤ maxJwtLifeTime) ∧
          ((slot + rotations later : ℕ) : ℤ) < (expTime - now) / rotationInterval then
        token :: survivors maxJwtLifeTime rotationInterval slot later
      else survivors maxJwtLifeTime rotationInterval slot later
  | _ :: later => survivors maxJwtLifeTime rotationInterval slot later

def Op.clock : Op → ℤ
  | .revokeJwt _ _ now => now
  | .isRevoked _ _ now => now
  | .rotate now => now

/-- The clock does not run backwards and rotations are at least an interval apart. -/
def WellTimed (rotationInterval : ℕ) (ops : List Op) : Prop :=
  (ops.map Op.clock).Pairwise (· ≤ ·) ∧
    ((ops.filter fun op => op matches .rotate _).map Op.clock).Pairwise
      (fun (s t : ℤ) => s + rotationInterval ≤ t)

instance (r : ℕ) (ops : List Op) : Decidable (WellTimed r ops) := by
  unfold WellTimed
  infer_instance

lemma rotations_append (ops ops' : List Op) :
    rotations (ops ++ ops') = rotations ops + rotations ops' := by
  induction ops with
  | nil => simp [rotations]
  | cons op ops ih =>
    cases op with
    | revokeJwt | isRevoked => exact ih
    | rotate =>
      simp only [List.cons_append, rotations, ih]
      omega

lemma rotations_eq_shifts (m r : ℕ) (ops : List Op) :
    rotations ops = RotatingWindow.shifts (windowEvents m r ops) := by
  induction ops with
  | nil => rfl
  | cons op ops ih =>
    unfold windowEvents at ih ⊢
    cases op with
    | revokeJwt token expTime now =>
      simp only [rotations, ih, List.filterMap_cons, Op.event?]
      split_ifs <;> rfl
    | isRevoked => exact ih
    | rotate => simp [rotations, Op.event?, RotatingWindow.shifts, ih]

lemma natCast_lt_ediv_iff {r : ℕ} {x : ℤ} (hx : 0 < x) (n : ℕ) :
    (n : ℤ) < x / r ↔ n < x.toNat / r := by
  obtain ⟨k, rfl⟩ := Int.eq_ofNat_of_zero_le hx.le
  rw [Int.toNat_natCast, ← Int.natCast_ediv]
  exact Int.ofNat_lt

lemma survivors_eq_alive (m r slot : ℕ) (ops : List Op) :
    survivors m r slot ops = RotatingWindow.alive slot (windowEvents m r ops) := by
  induction ops with
  | nil => rfl
  | cons op ops ih =>
    have hrot := rotations_eq_shifts m r ops
    unfold windowEvents at ih hrot ⊢
    cases op with
    | revokeJwt token expTime now =>
      simp only [survivors, List.filterMap_cons, Op.event?, ih, hrot]
      by_cases ha : 0 < expTime - now ∧ expTime - now ≤ m
      · simp only [ha, and_self, true_and, if_true, RotatingWindow.alive,
          natCast_lt_ediv_iff ha.1]
      · simp only [ha, false_and, if_false]
    | isRevoked => exact ih
    | rotate => simpa [survivors, Op.event?, RotatingWindow.alive] using ih

variable {hash : HashCalls} {e e' : Engine} {blank : BaseBloomFilter} {history : List Op}

/-- The content of a slot: bits and count are those of the survivors. -/
theorem HasHistory.slot (h : e.HasHistory hash blank history) {i : ℕ} {f : BaseBloomFilter}
    (hf : e.filters[i]? = some f) :
    f.bloomFilterSize = toUnsignedInt e.bloomFilterSize ∧
      f.hashFunctionNum = e.hashFunctionNum ∧
      f.msgNum = (survivors e.maxJwtLifeTime e.rotationInterval i history).length ∧
      ∀ b, f.IsSet b ↔ ∃ token ∈ survivors e.maxJwtLifeTime e.rotationInterval i history,
        b ∈ indexBits hash (toUnsignedInt e.bloomFilterSize) e.hashFunctionNum token := by
  obtain ⟨hs, hk, hm, hb⟩ := BaseBloomFilter.construct_eq_ok h.construct_blank
  have hi : i < e.filtersNum := h.shaped.length_filters ▸ (List.getElem?_eq_some_iff.mp hf).1
  have hget := RotatingWindow.getElem?_run (BaseBloomFilter.add hash) blank hi
    (windowEvents e.maxJwtLifeTime e.rotationInterval history)
    (h.filtersNum_eq ▸ depth_le_of_mem_windowEvents)
  rw [← h.filters_eq, ← survivors_eq_alive, hf] at hget
  obtain rfl := Option.some.inj hget
  generalize survivors e.maxJwtLifeTime e.rotationInterval i history = tokens
  have hadd : tokens.foldl (BaseBloomFilter.add hash) blank =
      blank.addAll (tokens.map (hash, ·)) := by
    rw [BaseBloomFilter.addAll, List.foldl_map]
  obtain ⟨hs', hk', hm', hb'⟩ := blank.addAll_spec (tokens.map (hash, ·))
  rw [hadd]
  refine ⟨hs'.trans hs, hk'.trans hk, ?_, ?_⟩
  · rw [hm', hm, List.length_map, Nat.zero_add]
  · intro b
    simp [hb', hb, hs, hk]

lemma HasHistory.size_of_mem (h : e.HasHistory hash blank history) {f : BaseBloomFilter}
    (hf : f ∈ e.filters) :
    f.bloomFilterSize = toUnsignedInt e.bloomFilterSize ∧
      f.hashFunctionNum = e.hashFunctionNum := by
  obtain ⟨i, hget⟩ := List.mem_iff_getElem?.mp hf
  obtain ⟨hs, hk, -⟩ := h.slot hget
  exact ⟨hs, hk⟩

lemma HasHistory.contains_slot_iff (h : e.HasHistory hash blank history) {i : ℕ}
    {f : BaseBloomFilter} (hf : e.filters[i]? = some f) (token : Str) :
    f.contains hash token = true ↔
      ∀ b ∈ indexBits hash (toUnsignedInt e.bloomFilterSize) e.hashFunctionNum token,
        ∃ token' ∈ survivors e.maxJwtLifeTime e.rotationInterval i history,
          b ∈ indexBits hash (toUnsignedInt e.bloomFilterSize) e.hashFunctionNum token' := by
  obtain ⟨hs, hk, -, hb⟩ := h.slot hf
  simp only [BaseBloomFilter.contains_iff, hs, hk, hb]

lemma HasHistory.contains_of_survivors (h : e.HasHistory hash blank history) {token : Str} {k : ℕ}
    (hk : ∀ i < k, token ∈ survivors e.maxJwtLifeTime e.rotationInterval i history) :
    ∀ f ∈ e.filters.take k, f.contains hash token = true := by
  intro f hf
  obtain ⟨i, hlt, hget⟩ := List.mem_take_iff_getElem.mp hf
  refine (h.contains_slot_iff (List.getElem?_eq_some_iff.mpr ⟨_, hget⟩) token).mpr
    fun b hb => ⟨token, hk i (by omega), hb⟩

lemma mem_survivors_of_le {m r i j : ℕ} (hij : i ≤ j) {token : Str}
    (h : token ∈ survivors m r j history) : token ∈ survivors m r i history := by
  rw [survivors_eq_alive] at h ⊢
  exact (RotatingWindow.alive_sublist hij _).mem h

/-- A query of an accepted lifetime answers true when it consults no slot, and
otherwise exactly when the survivors of the last slot consulted cover the token. -/
theorem HasHistory.reports_iff (h : e.HasHistory hash blank history) {now expTime : ℤ}
    {token : Str} (ha : e.Accepts (expTime - now)) :
    e.Reports hash now token expTime ↔
      e.slots (expTime - now) = 0 ∨
        ∀ b ∈ indexBits hash (toUnsignedInt e.bloomFilterSize) e.hashFunctionNum token,
          ∃ token' ∈ survivors e.maxJwtLifeTime e.rotationInterval (e.slots (expTime - now) - 1)
            history,
            b ∈ indexBits hash (toUnsignedInt e.bloomFilterSize) e.hashFunctionNum token' := by
  have hle := slots_le h.shaped ha
  rw [Reports, and_iff_right ha]
  generalize e.slots (expTime - now) = n at hle ⊢
  cases n with
  | zero => simp
  | succ n =>
    rw [Nat.add_sub_cancel, or_iff_right (Nat.succ_ne_zero n)]
    have hlast : e.filters[n]? = some e.filters[n] := List.getElem?_eq_getElem (by omega)
    constructor
    · intro hall
      refine (h.contains_slot_iff hlast token).mp (hall _ ?_)
      exact List.mem_iff_getElem?.mpr ⟨n, by rw [List.getElem?_take, if_pos (by omega), hlast]⟩
    · intro hcov f hf
      obtain ⟨i, hi⟩ := List.mem_iff_getElem?.mp hf
      have hin : i < n + 1 := by
        by_contra hc
        rw [List.getElem?_take, if_neg hc] at hi
        cases hi
      rw [List.getElem?_take, if_pos hin] at hi
      refine (h.contains_slot_iff hi token).mpr fun b hb => ?_
      obtain ⟨token', hm, hb'⟩ := hcov b hb
      exact ⟨token', mem_survivors_of_le (by omega) hm, hb'⟩

lemma HasHistory.not_contains_of_msgNum (h : e.HasHistory hash blank history)
    {f : BaseBloomFilter} (hf : f ∈ e.filters) (hm : f.getMsgNum = 0) (token : Str) :
    f.contains hash token = false := by
  obtain ⟨i, hget⟩ := List.mem_iff_getElem?.mp hf
  obtain ⟨-, hk, hcount, -⟩ := h.slot hget
  have hnil : survivors e.maxJwtLifeTime e.rotationInterval i history = [] := by
    rw [← List.length_eq_zero_iff, ← hcount]
    exact hm
  have hidx : hash 0 (hashedString token 0) % toUnsignedInt e.bloomFilterSize ∈
      indexBits hash (toUnsignedInt e.bloomFilterSize) e.hashFunctionNum token :=
    mem_indexBits.mpr ⟨0, hk ▸ f.hashFunctionNum_pos, rfl⟩
  rw [Bool.eq_false_iff]
  intro hc
  obtain ⟨token', hmem, -⟩ := (h.contains_slot_iff hget token).mp hc _ hidx
  rw [hnil] at hmem
  exact absurd hmem List.not_mem_nil

lemma loadedOps_of_empty {utcOffset now : ℤ} {dir : LogDir}
    (hd : ∀ name content, dir name = some content → content = []) :
    loadedOps utcOffset now dir = [] := by
  have hc : ∀ name, (dir name).getD [] = [] := by
    intro name
    cases hn : dir name with
    | none => rfl
    | some content => exact hd name content hn
  simp [loadedOps, loadOps, recordsOf, linesOf, hc, getlines]

/-- On an engine initialised from an empty log every run goes through, and slot
`i` then holds the bits and the count of the survivors of the run in slot `i`. -/
theorem slots_hold_survivors {utcOffset now : ℤ} {p : Params} {w w' : World}
    (hi : Returns (init hash utcOffset now p) w () w')
    (hd : ∀ name content, w.logDir name = some content → content = [])
    (hn : 1 ≤ w'.engine.filtersNum) (hsize : p.bloomFilterSize.toNat < 2 ^ 32) (ops : List Op) :
    ∃ e, w'.engine.run hash ops = .ok e ∧ e.filters.length = w'.engine.filtersNum ∧
      ∀ i < w'.engine.filtersNum, ∃ f, e.filters[i]? = some f ∧
        (∀ b, f.IsSet b ↔
          ∃ token ∈ survivors p.maxJwtLifeTime.toNat p.rotationInterval.toNat i ops,
            b ∈ indexBits hash p.bloomFilterSize.toNat p.hashFunctionNum.toNat token) ∧
        f.getMsgNum =
          (survivors p.maxJwtLifeTime.toNat p.rotationInterval.toNat i ops).length := by
  obtain ⟨-, hbuilt⟩ := init_returns.mp hi
  have hle : p.rotationInterval.toNat ≤ p.maxJwtLifeTime.toNat := by
    rw [hbuilt.hasParams.filtersNum] at hn
    exact (Nat.div_pos_iff.mp hn).2
  obtain ⟨blank, hist⟩ := hbuilt.hasHistory hle
  obtain ⟨e, hr⟩ := hist.run_isOk (hbuilt.hasParams.bloomFilterSize ▸ hsize) ops
  obtain ⟨blank', hist', hparams⟩ := hbuilt.history_run hle hr
  have hlen : e.filters.length = w'.engine.filtersNum := by
    rw [hist'.shaped.length_filters, hparams.filtersNum, hbuilt.hasParams.filtersNum]
  refine ⟨e, hr, hlen, ?_⟩
  intro i hlt
  have hget := List.getElem?_eq_getElem (hlen ▸ hlt)
  obtain ⟨-, -, hm, hb⟩ := hist'.slot hget
  rw [hparams.bloomFilterSize, toUnsignedInt, Nat.mod_eq_of_lt hsize] at hb
  rw [loadedOps_of_empty hd, List.nil_append, hparams.maxJwtLifeTime,
    hparams.rotationInterval] at hm hb
  rw [hparams.hashFunctionNum] at hb
  exact ⟨_, hget, hb, hm⟩

theorem slots_hold_survivors_three_slots :
    ∃ w', Returns (init (fun _ key => key.length) 0 0 ⟨30, 10, 8, 1⟩) ⟨{}, fun _ => none⟩ () w' ∧
      ∃ e, w'.engine.run (fun _ key => key.length)
          [.revokeJwt "a" 25 0, .rotate 10, .revokeJwt "bcd" 30 12] = .ok e ∧
        e.filters.length = w'.engine.filtersNum ∧
        ∀ i < w'.engine.filtersNum, ∃ f, e.filters[i]? = some f ∧
          (∀ b, f.IsSet b ↔
            ∃ token ∈ survivors 30 10 i
                [.revokeJwt "a" 25 0, .rotate 10, .revokeJwt "bcd" 30 12],
              b ∈ indexBits (fun _ key => key.length) 8 1 token) ∧
          f.getMsgNum =
            (survivors 30 10 i [.revokeJwt "a" 25 0, .rotate 10, .revokeJwt "bcd" 30 12]).length :=
  ⟨_, returns_of_ok rfl, slots_hold_survivors (p := ⟨30, 10, 8, 1⟩) (returns_of_ok rfl)
    (fun _ _ h => by cases h) (by decide) (by decide) _⟩

end Engine

end JwtRevoker
