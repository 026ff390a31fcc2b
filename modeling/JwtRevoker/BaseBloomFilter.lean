import JwtRevoker.Cpp

/-!
# The Bloom filter of one slot

`BaseBloomFilter` with its index computation. The value of every `hashSHA256`
call is an input of the operation that makes it, so that the results state what
they need of it: nothing, one fixed function of the key, or the source's own.
-/
namespace JwtRevoker

abbrev Digest := Vector UInt8 32

/-- A local `BYTE buf[SHA256_BLOCK_SIZE]`: where it lies and what it holds. -/
structure LocalBuffer where
  address : ℕ
  bytes : Digest

/-- `digest` is what init, update and final leave in the buffer for the hashed
string, `address` is where this call's buffer lies. -/
def hashSHA256 (digest : Str → Digest) (address : ℕ) (key : Str) : ℕ :=
  let buf : LocalBuffer := ⟨address, digest key⟩
  -- `reinterpret_cast<size_t>(buf)` converts the pointer, not the bytes.
  buf.address

/-- The values of the successive `hashSHA256` calls of one `calcHashIndices`. -/
abbrev HashCalls := ℕ → Str → ℕ

def hashCallsAt (digest : Str → Digest) (addresses : ℕ → ℕ) : HashCalls :=
  fun i key => hashSHA256 digest (addresses i) key

def hashedString (key : Str) (i : ℕ) : Str := key ++ '_' :: Numeral.writeNat i

def calcHashIndices (hash : HashCalls) (hashFunctionNum : ℕ) (key : Str) : List ℕ :=
  (List.range hashFunctionNum).map fun i => hash i (hashedString key i)

/-- The positions `add` sets and `contains` tests in a filter of the given size. -/
def indexBits (hash : HashCalls) (size hashFunctionNum : ℕ) (key : Str) : List ℕ :=
  (calcHashIndices hash hashFunctionNum key).map (· % size)

lemma mem_indexBits {hash : HashCalls} {size k : ℕ} {key : Str} {b : ℕ} :
    b ∈ indexBits hash size k key ↔ ∃ i < k, hash i (hashedString key i) % size = b := by
  simp [indexBits, calcHashIndices]

/-- A filter that passed the checks of its constructor. -/
structure BaseBloomFilter where
  bloomFilter : List Bool
  bloomFilterSize : ℕ
  hashFunctionNum : ℕ
  msgNum : ℕ
  size_pos : 0 < bloomFilterSize
  size_pow : bloomFilterSize &&& (bloomFilterSize - 1) = 0
  hashFunctionNum_pos : 0 < hashFunctionNum
  bits_length : bloomFilter.length = bloomFilterSize
  deriving DecidableEq, Repr

namespace BaseBloomFilter

def construct (size hashFunctionNum : ℕ) : Except Fault BaseBloomFilter :=
  if hs : size = 0 then
    .error (.invalidArgument "The size of Bloom filter cannot be zero")
  else if hp : size &&& (size - 1) ≠ 0 then
    .error (.invalidArgument "The size of a Bloom filter must be a power of 2.")
  else if hk : hashFunctionNum = 0 then
    .error (.invalidArgument "The number of hash functions cannot be zero")
  else
    .ok {
      bloomFilter := List.replicate size false
      bloomFilterSize := size
      hashFunctionNum := hashFunctionNum
      msgNum := 0
      size_pos := Nat.pos_of_ne_zero hs
      size_pow := not_not.mp hp
      hashFunctionNum_pos := Nat.pos_of_ne_zero hk
      bits_length := List.length_replicate }

def markIndex (f : BaseBloomFilter) (index : ℕ) : BaseBloomFilter :=
  { f with
    bloomFilter := f.bloomFilter.set (index % f.bloomFilterSize) true
    bits_length := by rw [List.length_set, f.bits_length] }

def testIndex (f : BaseBloomFilter) (index : ℕ) : Bool :=
  f.bloomFilter.get ⟨index % f.bloomFilterSize, by
    rw [f.bits_length]
    exact Nat.mod_lt _ f.size_pos⟩

def add (hash : HashCalls) (f : BaseBloomFilter) (key : Str) : BaseBloomFilter :=
  let marked := (calcHashIndices hash f.hashFunctionNum key).foldl markIndex f
  { marked with msgNum := marked.msgNum + 1 }

def contains (hash : HashCalls) (f : BaseBloomFilter) (key : Str) : Bool :=
  (calcHashIndices hash f.hashFunctionNum key).all f.testIndex

def getMsgNum (f : BaseBloomFilter) : ℕ := f.msgNum

def IsSet (f : BaseBloomFilter) (b : ℕ) : Prop := f.bloomFilter[b]? = some true

instance (f : BaseBloomFilter) (b : ℕ) : Decidable (f.IsSet b) := by unfold IsSet; infer_instance

lemma construct_eq_ok {size k : ℕ} {f : BaseBloomFilter} (h : construct size k = .ok f) :
    f.bloomFilterSize = size ∧ f.hashFunctionNum = k ∧ f.msgNum = 0 ∧ ∀ b, ¬ f.IsSet b := by
  unfold construct at h
  split_ifs at h
  cases h
  refine ⟨rfl, rfl, rfl, ?_⟩
  intro b
  simp [IsSet, List.getElem?_replicate]

lemma construct_isOk (size k : ℕ) (hs : 0 < size) (hp : size &&& (size - 1) = 0) (hk : 0 < k) :
    ∃ f, construct size k = .ok f := by
  simp [construct, hs.ne', hp, hk.ne']

lemma isPowerOfTwo_of_construct {size k : ℕ} {f : BaseBloomFilter}
    (h : construct size k = .ok f) : size.isPowerOfTwo := by
  have hf := (construct_eq_ok h).1
  exact Nat.ne_zero_and_sub_one_eq_zero_iff_isPowerOfTwo.mp
    ⟨hf ▸ f.size_pos.ne', hf ▸ f.size_pow⟩

lemma mod_size_lt (f : BaseBloomFilter) (index : ℕ) :
    index % f.bloomFilterSize < f.bloomFilter.length := by
  rw [f.bits_length]
  exact Nat.mod_lt _ f.size_pos

lemma isSet_markIndex (f : BaseBloomFilter) (index b : ℕ) :
    (f.markIndex index).IsSet b ↔ b = index % f.bloomFilterSize ∨ f.IsSet b := by
  have hlt := f.mod_size_lt index
  simp only [IsSet, markIndex, List.getElem?_set]
  split_ifs with hb
  · simp [hb]
  · simp [Ne.symm hb]

lemma testIndex_iff (f : BaseBloomFilter) (index : ℕ) :
    f.testIndex index = true ↔ f.IsSet (index % f.bloomFilterSize) := by
  simp [testIndex, IsSet, List.getElem?_eq_getElem (f.mod_size_lt index)]

/-- The loop of `add`: it marks the indices and touches nothing else. -/
theorem foldl_markIndex (f : BaseBloomFilter) (indices : List ℕ) :
    let marked := indices.foldl markIndex f
    marked.bloomFilterSize = f.bloomFilterSize ∧ marked.hashFunctionNum = f.hashFunctionNum ∧
      marked.msgNum = f.msgNum ∧
      ∀ b, marked.IsSet b ↔ b ∈ indices.map (· % f.bloomFilterSize) ∨ f.IsSet b := by
  induction indices generalizing f with
  | nil => simp
  | cons index indices ih =>
    obtain ⟨hs, hk, hm, hb⟩ := ih (f.markIndex index)
    refine ⟨hs, hk, hm, ?_⟩
    intro b
    rw [List.foldl_cons, hb, isSet_markIndex, List.map_cons, List.mem_cons, or_left_comm, or_assoc]
    rfl

@[simp] lemma add_bloomFilterSize (hash : HashCalls) (f : BaseBloomFilter) (key : Str) :
    (f.add hash key).bloomFilterSize = f.bloomFilterSize := (foldl_markIndex f _).1

@[simp] lemma add_hashFunctionNum (hash : HashCalls) (f : BaseBloomFilter) (key : Str) :
    (f.add hash key).hashFunctionNum = f.hashFunctionNum := (foldl_markIndex f _).2.1

@[simp] lemma add_msgNum (hash : HashCalls) (f : BaseBloomFilter) (key : Str) :
    (f.add hash key).msgNum = f.msgNum + 1 := congrArg (· + 1) (foldl_markIndex f _).2.2.1

lemma isSet_add (hash : HashCalls) (f : BaseBloomFilter) (key : Str) (b : ℕ) :
    (f.add hash key).IsSet b ↔
      b ∈ indexBits hash f.bloomFilterSize f.hashFunctionNum key ∨ f.IsSet b :=
  (foldl_markIndex f _).2.2.2 b

lemma contains_iff (hash : HashCalls) (f : BaseBloomFilter) (key : Str) :
    f.contains hash key = true ↔
      ∀ b ∈ indexBits hash f.bloomFilterSize f.hashFunctionNum key, f.IsSet b := by
  simp [contains, indexBits, testIndex_iff]

/-- A filter without a bit contains nothing, as it has a hash function. -/
lemma contains_of_clear {f : BaseBloomFilter} (hf : ∀ b, ¬ f.IsSet b) (hash : HashCalls)
    (key : Str) : f.contains hash key = false := by
  rw [Bool.eq_false_iff, Ne, contains_iff]
  exact fun hall => hf _ (hall _ (mem_indexBits.mpr ⟨0, f.hashFunctionNum_pos, rfl⟩))

lemma contains_add_self (hash : HashCalls) (f : BaseBloomFilter) (key : Str) :
    (f.add hash key).contains hash key = true := by
  simp only [contains_iff, isSet_add, add_bloomFilterSize, add_hashFunctionNum]
  exact fun b hb => .inl hb

/-- An `add` leaves every key found that was found before. -/
lemma contains_add {hash : HashCalls} {f : BaseBloomFilter} {key : Str}
    (h : f.contains hash key = true) (key' : Str) :
    (f.add hash key').contains hash key = true := by
  simp only [contains_iff, isSet_add, add_bloomFilterSize, add_hashFunctionNum] at h ⊢
  exact fun b hb => .inr (h b hb)

/-- A filter is its parameters, its count and its set bits. -/
lemma eq_of_isSet_iff {f g : BaseBloomFilter} (hs : f.bloomFilterSize = g.bloomFilterSize)
    (hk : f.hashFunctionNum = g.hashFunctionNum) (hm : f.msgNum = g.msgNum)
    (hb : ∀ b, f.IsSet b ↔ g.IsSet b) : f = g := by
  have hbits : f.bloomFilter = g.bloomFilter := by
    have hlen : f.bloomFilter.length = g.bloomFilter.length := by
      rw [f.bits_length, g.bits_length, hs]
    refine List.ext_getElem hlen fun i hf hg => Bool.eq_iff_iff.mpr ?_
    simpa [IsSet, List.getElem?_eq_getElem hf, List.getElem?_eq_getElem hg] using hb i
  cases f
  cases g
  simp only [mk.injEq]
  exact ⟨hbits, hs, hk, hm⟩

lemma add_right_comm (hash : HashCalls) (f : BaseBloomFilter) (key key' : Str) :
    (f.add hash key).add hash key' = (f.add hash key').add hash key := by
  refine eq_of_isSet_iff ?_ ?_ ?_ fun b => ?_
  · simp
  · simp
  · simp
  · simp only [isSet_add, add_bloomFilterSize, add_hashFunctionNum]
    exact or_left_comm

def addAll (f : BaseBloomFilter) (calls : List (HashCalls × Str)) : BaseBloomFilter :=
  calls.foldl (fun f call => f.add call.1 call.2) f

/-- After any sequence of `add` calls exactly the index bits of the added keys
are set, over what was set before. -/
theorem addAll_spec (f : BaseBloomFilter) (calls : List (HashCalls × Str)) :
    (f.addAll calls).bloomFilterSize = f.bloomFilterSize ∧
      (f.addAll calls).hashFunctionNum = f.hashFunctionNum ∧
      (f.addAll calls).msgNum = f.msgNum + calls.length ∧
      ∀ b, (f.addAll calls).IsSet b ↔ (∃ call ∈ calls,
        b ∈ indexBits call.1 f.bloomFilterSize f.hashFunctionNum call.2) ∨ f.IsSet b := by
  induction calls generalizing f with
  | nil => simp [addAll]
  | cons call calls ih =>
    obtain ⟨hs, hk, hm, hb⟩ := ih (f.add call.1 call.2)
    have hc : f.addAll (call :: calls) = (f.add call.1 call.2).addAll calls := rfl
    refine ⟨by simpa [hc] using hs, by simpa [hc] using hk, ?_, ?_⟩
    · rw [hc, hm, add_msgNum, List.length_cons]
      omega
    · intro b
      rw [hc, hb, isSet_add, add_bloomFilterSize, add_hashFunctionNum, List.exists_mem_cons_iff,
        or_left_comm, or_assoc]

lemma contains_addAll_iff {hash : HashCalls} {f : BaseBloomFilter}
    {calls : List (HashCalls × Str)} {key : Str} (hf : ∀ b, ¬ f.IsSet b) :
    (f.addAll calls).contains hash key = true ↔
      ∀ b ∈ indexBits hash f.bloomFilterSize f.hashFunctionNum key,
        ∃ call ∈ calls, b ∈ indexBits call.1 f.bloomFilterSize f.hashFunctionNum call.2 := by
  obtain ⟨hs, hk, -, hb⟩ := f.addAll_spec calls
  simp only [contains_iff, hs, hk, hb, hf, or_false]

end BaseBloomFilter

end JwtRevoker
