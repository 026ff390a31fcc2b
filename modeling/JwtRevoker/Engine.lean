import JwtRevoker.BaseBloomFilter
import JwtRevoker.RotatingWindow

/-!
# The engine: revoke, query, rotate

`Engine` keeps a window of Bloom filters. `revokeJwt` and `isRevoked` walk a
prefix of the window whose length is the rounded-down quotient of the remaining
lifetime and the rotation interval; the rotation thread drops the first filter
and appends a new one.
-/
namespace JwtRevoker

/-- The arguments of `init` and `adjustFiltersParam` in their C++ widths. -/
structure Params where
  maxJwtLifeTime : UInt32
  rotationInterval : UInt32
  bloomFilterSize : UInt64
  hashFunctionNum : UInt32
  deriving DecidableEq, Repr

structure Engine where
  filters : List BaseBloomFilter := []
  maxJwtLifeTime : ℕ := 0
  rotationInterval : ℕ := 0
  bloomFilterSize : ℕ := 0
  hashFunctionNum : ℕ := 0
  filtersNum : ℕ := 0
  logQueue : List Str := []
  deriving DecidableEq, Repr

/-- The size parameter is a `const unsigned int &`: a `size_t` argument is narrowed. -/
def getNewFilters (filtersNum bloomFilterSize hashFunctionNum : ℕ) :
    Except Fault (List BaseBloomFilter) :=
  (List.range filtersNum).foldlM (fun newFilters _ => do
    let filter ← BaseBloomFilter.construct (toUnsignedInt bloomFilterSize) hashFunctionNum
    pure (newFilters ++ [filter])) []

def addAt (hash : HashCalls) (token : Str) (filters : List BaseBloomFilter) (i : ℕ) :
    Except Fault (List BaseBloomFilter) :=
  match filters[i]? with
  | none => .error (.badIndex i filters.length)
  | some filter => .ok (filters.set i (filter.add hash token))

def addToFirst (hash : HashCalls) (token : Str) (num : ℕ) (filters : List BaseBloomFilter) :
    Except Fault (List BaseBloomFilter) :=
  (List.range num).foldlM (addAt hash token) filters

/-- The query loop from slot `i` on: the first filter without the token decides. -/
def queryFrom (hash : HashCalls) (token : Str) (filters : List BaseBloomFilter) :
    ℕ → ℕ → Except Fault Bool
  | _, 0 => .ok true
  | i, steps + 1 =>
      match filters[i]? with
      | none => .error (.badIndex i filters.length)
      | some filter =>
          if filter.contains hash token then queryFrom hash token filters (i + 1) steps
          else .ok false

namespace Engine

/-- The clock is an argument; `time_t` differences are those of the integers. -/
def revokeJwt (hash : HashCalls) (now : ℤ) (e : Engine) (token : Str) (expTime : ℤ) :
    Except Fault Engine :=
  let remainingTime := expTime - now
  if remainingTime ≤ 0 then .ok e
  else if remainingTime > e.maxJwtLifeTime then .ok e
  else do
    let num ← ceilQuotient remainingTime.toNat e.rotationInterval
    if num > e.filtersNum then return e
    let filters ← addToFirst hash token num e.filters
    return { e with filters := filters }

def isRevoked (hash : HashCalls) (now : ℤ) (e : Engine) (token : Str) (expTime : ℤ) :
    Except Fault Bool :=
  let remainingTime := expTime - now
  if remainingTime ≤ 0 then .ok false
  else if remainingTime > e.maxJwtLifeTime then .ok false
  else do
    let num ← ceilQuotient remainingTime.toNat e.rotationInterval
    if num > e.filtersNum then return false
    queryFrom hash token e.filters 0 num

/-- The time-out branch of `rotateBloomFilterWorker`. -/
def rotateFilters (e : Engine) : Except Fault Engine :=
  match e.filters with
  | [] => .error .eraseFromEmpty
  | _ :: rest => do
      let filter ← BaseBloomFilter.construct e.bloomFilterSize e.hashFunctionNum
      return { e with filters := rest ++ [filter] }

def getBloomFilterSize (e : Engine) : ℕ := e.bloomFilterSize

def getBloomFilterFillingRate (e : Engine) : List ℕ := e.filters.map BaseBloomFilter.getMsgNum

/-- One call on a running engine, with the clock reading it is made at. -/
inductive Op
  | revokeJwt (token : Str) (expTime now : ℤ)
  | isRevoked (token : Str) (expTime now : ℤ)
  | rotate (now : ℤ)
  deriving DecidableEq, Repr

def step (hash : HashCalls) (e : Engine) : Op → Except Fault Engine
  | .revokeJwt token expTime now => e.revokeJwt hash now token expTime
  | .isRevoked token expTime now => do
      let _ ← e.isRevoked hash now token expTime
      return e
  | .rotate _ => e.rotateFilters

def run (hash : HashCalls) (e : Engine) (ops : List Op) : Except Fault Engine :=
  ops.foldlM (step hash) e

/-- The remaining lifetimes `revokeJwt` and `isRevoked` go on with. -/
def Accepts (e : Engine) (remainingTime : ℤ) : Prop :=
  0 < remainingTime ∧ remainingTime ≤ e.maxJwtLifeTime

instance (e : Engine) (r : ℤ) : Decidable (e.Accepts r) := by unfold Accepts; infer_instance

def slots (e : Engine) (remainingTime : ℤ) : ℕ := remainingTime.toNat / e.rotationInterval

/-- What `isRevoked` answers on an engine in shape. -/
def Reports (hash : HashCalls) (now : ℤ) (e : Engine) (token : Str) (expTime : ℤ) : Prop :=
  e.Accepts (expTime - now) ∧
    ∀ f ∈ e.filters.take (e.slots (expTime - now)), f.contains hash token = true

instance (hash : HashCalls) (now : ℤ) (e : Engine) (token : Str) (expTime : ℤ) :
    Decidable (e.Reports hash now token expTime) := by unfold Reports; infer_instance

/-- The parameters divide and the window has the length computed from them. -/
structure Shaped (e : Engine) : Prop where
  interval_pos : 0 < e.rotationInterval
  filtersNum_eq : e.filtersNum = e.maxJwtLifeTime / e.rotationInterval
  length_filters : e.filters.length = e.filtersNum

end Engine

lemma getNewFilters_succ (n size k : ℕ) :
    getNewFilters (n + 1) size k = (getNewFilters n size k >>= fun newFilters => do
      let filter ← BaseBloomFilter.construct (toUnsignedInt size) k
      pure (newFilters ++ [filter])) := by
  rw [getNewFilters, List.range_succ, List.foldlM_append, ← getNewFilters]
  simp

lemma getNewFilters_eq_ok {n size k : ℕ} {fs : List BaseBloomFilter}
    (h : getNewFilters n size k = .ok fs) :
    fs.length = n ∧
      ∀ f ∈ fs, BaseBloomFilter.construct (toUnsignedInt size) k = .ok f := by
  induction n generalizing fs with
  | zero =>
    cases h
    simp
  | succ n ih =>
    rw [getNewFilters_succ, bind_eq_ok] at h
    obtain ⟨gs, hgs, h⟩ := h
    obtain ⟨f, hf, h⟩ := bind_eq_ok.mp h
    cases h
    obtain ⟨hlen, hall⟩ := ih hgs
    refine ⟨by simp [hlen], ?_⟩
    intro g hg
    rcases List.mem_append.mp hg with hg | hg
    · exact hall g hg
    · rw [List.mem_singleton.mp hg, hf]

lemma getNewFilters_of_construct {size k : ℕ} {f : BaseBloomFilter}
    (hf : BaseBloomFilter.construct (toUnsignedInt size) k = .ok f) (n : ℕ) :
    getNewFilters n size k = .ok (List.replicate n f) := by
  induction n with
  | zero => rfl
  | succ n ih =>
    rw [getNewFilters_succ, ih, hf, List.replicate_succ']
    rfl

lemma addToFirst_succ (hash : HashCalls) (token : Str) (num : ℕ)
    (filters : List BaseBloomFilter) :
    addToFirst hash token (num + 1) filters =
      (addToFirst hash token num filters >>= fun fs => addAt hash token fs num) := by
  rw [addToFirst, List.range_succ, List.foldlM_append, ← addToFirst]
  simp

lemma addAt_eq (hash : HashCalls) (token : Str) {filters : List BaseBloomFilter} {i : ℕ}
    (hi : i < filters.length) :
    addAt hash token filters i =
      .ok (RotatingWindow.putBetween (BaseBloomFilter.add hash) i (i + 1) token filters) := by
  rw [addAt, List.getElem?_eq_getElem hi]
  refine congrArg Except.ok (List.ext_getElem? fun j => ?_)
  rw [List.getElem?_set, RotatingWindow.getElem?_putBetween]
  by_cases hij : i = j
  · subst hij
    simp [hi]
  · have hn : ¬ (i ≤ j ∧ j < i + 1) := by omega
    simp only [hij, hn, if_false, Option.map_id']

/-- The write loop, when it stays inside the window, is a prefix write. -/
theorem addToFirst_eq (hash : HashCalls) (token : Str) {num : ℕ} {filters : List BaseBloomFilter}
    (hn : num ≤ filters.length) :
    addToFirst hash token num filters =
      .ok (RotatingWindow.putPrefix (BaseBloomFilter.add hash) num token filters) := by
  rw [← RotatingWindow.putBetween_zero]
  induction num with
  | zero =>
    rw [RotatingWindow.putBetween_self]
    rfl
  | succ num ih =>
    rw [addToFirst_succ, ih (by omega), ok_bind,
      addAt_eq hash token (by rw [RotatingWindow.length_putBetween]; omega),
      RotatingWindow.putBetween_putBetween _ (Nat.zero_le num) (Nat.le_succ num)]

lemma addAt_eq_ok {hash : HashCalls} {token : Str} {filters filters' : List BaseBloomFilter} {i : ℕ}
    (h : addAt hash token filters i = .ok filters') :
    filters'.length = filters.length := by
  unfold addAt at h
  split at h
  · cases h
  · cases h
    exact List.length_set

lemma addToFirst_eq_ok {hash : HashCalls} {token : Str} {num : ℕ}
    {filters filters' : List BaseBloomFilter}
    (h : addToFirst hash token num filters = .ok filters') :
    filters'.length = filters.length := by
  induction num generalizing filters' with
  | zero =>
    cases h
    rfl
  | succ num ih =>
    rw [addToFirst_succ] at h
    obtain ⟨filters₁, h₁, h⟩ := bind_eq_ok.mp h
    rw [addAt_eq_ok h, ih h₁]

lemma queryFrom_eq (hash : HashCalls) (token : Str) (filters : List BaseBloomFilter)
    {i steps : ℕ} (h : i + steps ≤ filters.length) :
    queryFrom hash token filters i steps =
      .ok (((filters.drop i).take steps).all fun f => f.contains hash token) := by
  induction steps generalizing i with
  | zero => simp [queryFrom]
  | succ steps ih =>
    have hlt : i < filters.length := by omega
    rw [queryFrom, List.getElem?_eq_getElem hlt, List.drop_eq_getElem_cons hlt, List.take_succ_cons,
      List.all_cons]
    dsimp only
    split_ifs with hc
    · rw [ih (by omega), hc, Bool.true_and]
    · simp [hc]

end JwtRevoker
