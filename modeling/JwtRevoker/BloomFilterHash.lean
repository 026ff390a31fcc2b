import JwtRevoker.BaseBloomFilter

/-!
# What the filter sees of the digest

`hashSHA256` returns the address of its digest buffer. These results say what
the filter answers with that hash: it compares buffer addresses, and the
digests never reach an index.
-/
namespace JwtRevoker.BaseBloomFilter

def addAllAt (digest : Str → Digest) (f : BaseBloomFilter) (adds : List (Str × (ℕ → ℕ))) :
    BaseBloomFilter :=
  f.addAll (adds.map fun a => (hashCallsAt digest a.2, a.1))

lemma mem_indexBits_hashCallsAt (digest : Str → Digest) {addresses : ℕ → ℕ} {size k : ℕ}
    {key : Str} {b : ℕ} :
    b ∈ indexBits (hashCallsAt digest addresses) size k key ↔ ∃ i < k, addresses i % size = b := by
  simp [mem_indexBits, hashCallsAt, hashSHA256]

/-- A filter answers true exactly when every buffer address of the query is
congruent, modulo the filter size, to one an `add` call has used; neither the
queried key nor the added keys matter. -/
theorem contains_iff_buffer_addresses {size k : ℕ} {f : BaseBloomFilter}
    (hf : construct size k = .ok f) (digest : Str → Digest) (adds : List (Str × (ℕ → ℕ)))
    (key : Str) (buf : ℕ → ℕ) :
    (f.addAllAt digest adds).contains (hashCallsAt digest buf) key = true ↔
      ∀ i < k, ∃ a ∈ adds, ∃ j < k, a.2 j % size = buf i % size := by
  obtain ⟨hs, hk, -, he⟩ := construct_eq_ok hf
  rw [addAllAt, contains_addAll_iff he, hs, hk]
  constructor
  · intro h i hi
    obtain ⟨call, hcall, hb⟩ := h _ ((mem_indexBits_hashCallsAt digest).mpr ⟨i, hi, rfl⟩)
    obtain ⟨a, ha, rfl⟩ := List.mem_map.mp hcall
    exact ⟨a, ha, (mem_indexBits_hashCallsAt digest).mp hb⟩
  · intro h b hb
    obtain ⟨i, hi, rfl⟩ := (mem_indexBits_hashCallsAt digest).mp hb
    obtain ⟨a, ha, hj⟩ := h i hi
    exact ⟨_, List.mem_map_of_mem ha, (mem_indexBits_hashCallsAt digest).mpr hj⟩

theorem contains_iff_buffer_addresses_two_frames :
    ∃ f : BaseBloomFilter, construct 64 1 = .ok f ∧
      ((f.addAllAt (fun _ => Vector.replicate 32 0) [("jwt", fun _ => 0x7ffd5a10)]).contains
          (hashCallsAt (fun _ => Vector.replicate 32 0) fun _ => 0x7ffd5a20) "jwt" = true ↔
        ∀ i < 1, ∃ a ∈ [(("jwt" : Str), fun _ : ℕ => 0x7ffd5a10)], ∃ j < 1,
          a.2 j % 64 = 0x7ffd5a20 % 64) := by
  obtain ⟨f, hf⟩ := construct_isOk 64 1 (by decide) (by decide) (by decide)
  exact ⟨f, hf, contains_iff_buffer_addresses hf _ _ _ _⟩

/-- A key that was added is reported absent from a deeper stack frame. -/
theorem added_key_not_contained :
    ∃ f : BaseBloomFilter, construct 64 1 = .ok f ∧
      (f.addAllAt (fun _ => Vector.replicate 32 0) [("jwt", fun _ => 0x7ffd5a10)]).contains
        (hashCallsAt (fun _ => Vector.replicate 32 0) fun _ => 0x7ffd5a20) "jwt" = false := by
  obtain ⟨f, hf⟩ := construct_isOk 64 1 (by decide) (by decide) (by decide)
  refine ⟨f, hf, ?_⟩
  cases hf
  decide

def littleEndian64 (d : Digest) : ℕ :=
  (d.toList.take 8).foldr (fun byte acc => byte.toNat + 256 * acc) 0

/-- The index a digest-valued hash would give. -/
def referenceIndex (digest : Str → Digest) (size : ℕ) (key : Str) (i : ℕ) : ℕ :=
  littleEndian64 (digest (hashedString key i)) % size

def ReferenceCovered (digest : Str → Digest) (size k : ℕ) (added : List Str) (key : Str) : Prop :=
  ∀ i < k, ∃ key' ∈ added, ∃ j < k,
    referenceIndex digest size key i = referenceIndex digest size key' j

/-- With one buffer address for all calls, a filter contains every key as soon
as anything was added. -/
theorem contains_same_context {size k : ℕ} {f : BaseBloomFilter} (hf : construct size k = .ok f)
    (digest : Str → Digest) (address : ℕ) (added : List Str) (key : Str) :
    (f.addAllAt digest (added.map (·, fun _ => address))).contains
      (hashCallsAt digest fun _ => address) key = true ↔ added ≠ [] := by
  have hk : 0 < k := (construct_eq_ok hf).2.1 ▸ f.hashFunctionNum_pos
  rw [contains_iff_buffer_addresses hf]
  constructor
  · intro h
    obtain ⟨a, ha, -⟩ := h 0 hk
    rintro rfl
    simp at ha
  · intro h i hi
    obtain ⟨key', keys, rfl⟩ := List.exists_cons_of_ne_nil h
    exact ⟨(key', fun _ => address), by simp, i, hi, rfl⟩

/-- From one call context, `contains` answers true only for keys whose reference
indices are covered exactly when nothing was added yet or the key's reference
indices happen to be covered: the filter itself tells no two keys apart. -/
theorem contains_only_covered_iff {size k : ℕ} {f : BaseBloomFilter}
    (hf : construct size k = .ok f) (digest : Str → Digest) (address : ℕ) (added : List Str)
    (key : Str) :
    ((f.addAllAt digest (added.map (·, fun _ => address))).contains
        (hashCallsAt digest fun _ => address) key = true →
      ReferenceCovered digest size k added key) ↔
      added = [] ∨ ReferenceCovered digest size k added key := by
  rw [contains_same_context hf]
  tauto

/-- Two keys of one length have the same reference indices under a digest of the
length, so the second is covered once the first was added. -/
theorem contains_only_covered_iff_same_length :
    ∃ f : BaseBloomFilter, construct 64 3 = .ok f ∧
      ReferenceCovered (fun s => Vector.replicate 32 (UInt8.ofNat s.length)) 64 3 ["jwt"] "xyz" ∧
      (((f.addAllAt (fun s => Vector.replicate 32 (UInt8.ofNat s.length))
            ([("jwt" : Str)].map (·, fun _ => 0x7ffd5a10))).contains
          (hashCallsAt (fun s => Vector.replicate 32 (UInt8.ofNat s.length)) fun _ => 0x7ffd5a10)
          "xyz" = true →
        ReferenceCovered (fun s => Vector.replicate 32 (UInt8.ofNat s.length)) 64 3
          ["jwt"] "xyz") ↔
        [("jwt" : Str)] = [] ∨
          ReferenceCovered (fun s => Vector.replicate 32 (UInt8.ofNat s.length)) 64 3
            ["jwt"] "xyz") := by
  obtain ⟨f, hf⟩ := construct_isOk 64 3 (by decide) (by decide) (by decide)
  refine ⟨f, hf, ?_, contains_only_covered_iff hf _ _ _ _⟩
  unfold ReferenceCovered
  decide

/-- After one `add` a key with other reference indices is contained as well. -/
theorem uncovered_key_contained :
    ∃ f : BaseBloomFilter, construct 64 1 = .ok f ∧
      (f.addAllAt (fun s => Vector.replicate 32 (UInt8.ofNat s.length))
          ([("jwt" : Str)].map (·, fun _ => 0x7ffd5a10))).contains
        (hashCallsAt (fun s => Vector.replicate 32 (UInt8.ofNat s.length)) fun _ => 0x7ffd5a10)
        "other" = true ∧
      ¬ ReferenceCovered (fun s => Vector.replicate 32 (UInt8.ofNat s.length)) 64 1
        ["jwt"] "other" := by
  obtain ⟨f, hf⟩ := construct_isOk 64 1 (by decide) (by decide) (by decide)
  refine ⟨f, hf, ?_, ?_⟩
  · cases hf
    decide
  · unfold ReferenceCovered
    decide

end JwtRevoker.BaseBloomFilter
