import JwtRevoker.MasterMessages
import JwtRevoker.WindowContents

/-!
# Messages to the master

The status report and the sign of life that the two timer threads of `Scheduler` queue.
From a report the master reads the parameters in force and, slot by slot, how many
revocations survive.
-/
namespace JwtRevoker

open EngineM Engine JsonText

/-- The loop over the indices; every number but the first has a comma before it. -/
def vectorToString (vec : List ℕ) : Str :=
  vec.zipIdx.foldl (fun result entry =>
    (if entry.2 > 0 then result ++ [','] else result) ++ stdToString entry.1) ['['] ++ [']']

lemma foldl_vectorToString (vec : List ℕ) (i : ℕ) (result : Str) :
    (vec.zipIdx (i + 1)).foldl (fun result entry =>
        (if entry.2 > 0 then result ++ [','] else result) ++ stdToString entry.1) result =
      result ++ vec.flatMap fun (n : ℕ) => ',' :: stdToString n := by
  induction vec generalizing i result with
  | nil => simp
  | cons n vec ih =>
    rw [List.zipIdx_cons, List.foldl_cons, ih]
    simp

/-- The numbers in brackets, with commas between them. -/
lemma vectorToString_eq (vec : List ℕ) :
    vectorToString vec =
      '[' :: [','].intercalate (vec.map fun (n : ℕ) => stdToString n) ++ [']'] := by
  cases vec with
  | nil => rfl
  | cons n vec =>
    have hfirst : ¬ (0 : ℕ) > 0 := lt_irrefl 0
    rw [vectorToString, List.zipIdx_cons, List.foldl_cons, foldl_vectorToString]
    have htail : [','].intercalate ((n :: vec).map fun (n : ℕ) => stdToString n) =
        stdToString n ++ vec.flatMap fun (n : ℕ) => ',' :: stdToString n := by
      induction vec generalizing n with
      | nil => simp
      | cons m vec ih =>
        have hm := ih m
        simp only [List.map_cons] at hm ⊢
        rw [List.intercalate_cons_cons, hm]
        simp
    rw [htail]
    simp

lemma comma_notMem_stdToString (i : ℤ) : ',' ∉ stdToString i := by
  intro h
  rcases Numeral.mem_writeInt h with h | h
  · exact absurd h (by decide)
  · exact absurd h (by decide)

/-- Different vectors have different texts. -/
theorem vectorToString_injective : Function.Injective vectorToString := by
  have hread (vec : List ℕ) (hne : vec ≠ []) :
      ([','].intercalate (vec.map fun (n : ℕ) => stdToString n)).splitOn ',' =
        vec.map fun (n : ℕ) => stdToString n := by
    apply List.splitOn_intercalate
    · intro text hmem
      obtain ⟨n, -, rfl⟩ := List.mem_map.mp hmem
      exact comma_notMem_stdToString n
    · simpa using hne
  have hnil (vec : List ℕ)
      (h : [','].intercalate (vec.map fun (n : ℕ) => stdToString n) = []) : vec = [] := by
    by_contra hne
    have hsplit := hread vec hne
    rw [h, List.splitOn_nil] at hsplit
    obtain ⟨n, vec', rfl⟩ := List.exists_cons_of_ne_nil hne
    exact Numeral.writeInt_ne_nil n (List.cons.inj hsplit).1.symm
  intro xs ys h
  rw [vectorToString_eq, vectorToString_eq, List.cons_append, List.cons_append] at h
  have hinner := List.append_cancel_right (List.cons.inj h).2
  by_cases hx : xs = []
  · subst hx
    exact (hnil ys hinner.symm).symm
  by_cases hy : ys = []
  · subst hy
    exact hnil xs hinner
  have hmap := congrArg (List.splitOn ',') hinner
  rw [hread xs hx, hread ys hy] at hmap
  have hinj : Function.Injective fun (n : ℕ) => stdToString n := fun a b hab =>
    Int.ofNat_inj.mp (Numeral.writeInt_injective hab)
  exact hinj.list_map hmap

namespace Scheduler

section Messages

variable (J : JsonLib) (clientUid : Str)

/-- The data that `bloomFilterStatusReport` reads from the engine. -/
def statusData (e : Engine) : Data :=
  (((((AList.insert ("client_uid" : Str) clientUid ∅).insert
    ("max_jwt_life_time" : Str) (stdToString e.maxJwtLifeTime)).insert
    ("rotation_interval" : Str) (stdToString e.rotationInterval)).insert
    ("bloom_filter_size" : Str) (stdToString e.getBloomFilterSize)).insert
    ("hash_function_num" : Str) (stdToString e.hashFunctionNum)).insert
    ("bloom_filter_filling_rate" : Str) (vectorToString e.getBloomFilterFillingRate)

/-- One turn of `bloomFilterStatusReport`: the message it queues. -/
def bloomFilterStatusReport (e : Engine) : Str :=
  J.msgAssembly "bloom_filter_status" (statusData clientUid e)

/-- One turn of `keepaliveWorker`. -/
def keepaliveWorker (serverPort : Str) : Str :=
  J.msgAssembly "keepalive"
    ((AList.insert ("client_uid" : Str) clientUid ∅).insert ("node_port" : Str) serverPort)

end Messages

variable {J : JsonLib} {hash : HashCalls} {utcOffset now : ℤ} {p : Params} {w w' : World}
  {e : Engine} {ops : List Op}

lemma filterParams_of_statusData {data : Data} {clientUid : Str} (he : e.HasParams p)
    (hdata : ∀ key, data.lookup key = (statusData clientUid e).lookup key) :
    filterParams data = .ok p := by
  have hM : (statusData clientUid e).lookup ("max_jwt_life_time" : Str) =
      some (stdToString e.maxJwtLifeTime) := rfl
  have hR : (statusData clientUid e).lookup ("rotation_interval" : Str) =
      some (stdToString e.rotationInterval) := rfl
  have hS : (statusData clientUid e).lookup ("bloom_filter_size" : Str) =
      some (stdToString e.bloomFilterSize) := rfl
  have hK : (statusData clientUid e).lookup ("hash_function_num" : Str) =
      some (stdToString e.hashFunctionNum) := rfl
  apply filterParams_of_lookup
  · rw [hdata, hM, he.maxJwtLifeTime]
  · rw [hdata, hR, he.rotationInterval]
  · rw [hdata, hS, he.bloomFilterSize]
  · rw [hdata, hK, he.hashFunctionNum]

/-- After any run since a build, the report reads back as the node, the parameters of the
build, and one count for each slot: that of the revocations which survive in the slot. -/
theorem report_reads_back (hJ : J.RoundTrips) (hb : Built hash utcOffset now p w w')
    (hp : p.rotationInterval.toNat ≤ p.maxJwtLifeTime.toNat)
    (hr : w'.engine.run hash ops = .ok e) (clientUid : Str) :
    ∃ data, J.msgParse (bloomFilterStatusReport J clientUid e) [] ∅ =
        .ok ("bloom_filter_status", data) ∧
      data.lookup ("client_uid" : Str) = some clientUid ∧ filterParams data = .ok p ∧
      ∀ counts, data.lookup ("bloom_filter_filling_rate" : Str) = some (vectorToString counts) ↔
        counts = (List.range (p.maxJwtLifeTime.toNat / p.rotationInterval.toNat)).map fun i =>
          (survivors p.maxJwtLifeTime.toNat p.rotationInterval.toNat i
            (loadedOps utcOffset now w.logDir ++ ops)).length := by
  obtain ⟨data, hparse, hdata⟩ := JsonLib.msgParse_msgAssembly hJ "bloom_filter_status"
    (statusData clientUid e)
  obtain ⟨blank, hist, hparams⟩ := hb.history_run hp hr
  have hrates : e.getBloomFilterFillingRate =
      (List.range (p.maxJwtLifeTime.toNat / p.rotationInterval.toNat)).map fun i =>
        (survivors p.maxJwtLifeTime.toNat p.rotationInterval.toNat i
          (loadedOps utcOffset now w.logDir ++ ops)).length := by
    have hlen : e.filters.length = p.maxJwtLifeTime.toNat / p.rotationInterval.toNat :=
      hist.shaped.length_filters.trans hparams.filtersNum
    apply List.ext_getElem
    · simp [getBloomFilterFillingRate, hlen]
    · intro i hi hi'
      have hi₀ : i < e.filters.length := by simpa [getBloomFilterFillingRate] using hi
      obtain ⟨-, -, hcount, -⟩ := hist.slot (List.getElem?_eq_getElem hi₀)
      rw [hparams.maxJwtLifeTime, hparams.rotationInterval] at hcount
      simpa [getBloomFilterFillingRate, BaseBloomFilter.getMsgNum] using hcount
  refine ⟨data, hparse, hdata _, filterParams_of_statusData hparams hdata, fun counts => ?_⟩
  have hlookup : data.lookup ("bloom_filter_filling_rate" : Str) =
      some (vectorToString e.getBloomFilterFillingRate) := hdata _
  rw [hlookup, ← hrates, Option.some.injEq]
  constructor
  · intro h
    exact vectorToString_injective h.symm
  · rintro rfl
    rfl

theorem report_reads_back_after_rotation :
    jsonText.RoundTrips ∧ ∃ w' e, Built (fun _ key => key.length) 0 0 ⟨30, 10, 8, 1⟩
        ⟨{}, fun _ => none⟩ w' ∧
      w'.engine.run (fun _ key => key.length) [.revokeJwt "a" 25 0, .rotate 10] = .ok e ∧
      ∃ data, jsonText.msgParse (bloomFilterStatusReport jsonText "node_0001" e) [] ∅ =
          .ok ("bloom_filter_status", data) ∧
        filterParams data = .ok ⟨30, 10, 8, 1⟩ := by
  have hi : Returns (init (fun _ key => key.length) 0 0 ⟨30, 10, 8, 1⟩)
      ⟨{}, fun _ => none⟩ () _ := returns_of_ok rfl
  have hbuilt := (init_returns.mp hi).2
  obtain ⟨data, hparse, -, hparams, -⟩ := report_reads_back roundTrips_jsonText hbuilt (by decide)
    (show Engine.run _ _ [.revokeJwt "a" 25 0, .rotate 10] = .ok _ from rfl) "node_0001"
  exact ⟨roundTrips_jsonText, _, _, hbuilt, rfl, data, hparse, hparams⟩

end Scheduler

end JwtRevoker
