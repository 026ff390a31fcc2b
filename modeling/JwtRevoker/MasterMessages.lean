import JwtRevoker.JsonText
import JwtRevoker.Scheduler

/-!
# Messages the node did not assemble itself

What the node reads from any JSON text that parses to an event and an object of data,
where a number may be written as a text or as a JSON integer.
-/
namespace JwtRevoker

open JsonText

namespace JsonLib

variable (J : JsonLib)

/-- The text parses to an object with this event and these data, the keys of which are
distinct. -/
structure IsMessage (text event : Str) (members : List (Str × Json J.Double)) : Prop where
  parses : ∃ fields, J.parse text = .ok (.object fields) ∧
    fields.lookup ("event" : Str) = some (.string event) ∧
    fields.lookup ("data" : Str) = some (.object members)
  nodup : (members.map Prod.fst).Nodup

/-- The two ways to write an integer: as a decimal text, or as a JSON integer, which the
parser gives as signed or unsigned. -/
def WritesInt (i : ℤ) : Json J.Double → Prop
  | .string s => s = stdToString i
  | .int64 j => j = i
  | .uint64 n => (n : ℤ) = i
  | _ => False

/-- The member `key` writes the integer. -/
def HasInt (members : List (Str × Json J.Double)) (key : Str) (i : ℤ) : Prop :=
  ∃ value, members.lookup key = some value ∧ J.WritesInt i value

/-- The members write the four parameters. -/
structure HasParams (members : List (Str × Json J.Double)) (p : Params) : Prop where
  maxJwtLifeTime : J.HasInt members "max_jwt_life_time" p.maxJwtLifeTime.toNat
  rotationInterval : J.HasInt members "rotation_interval" p.rotationInterval.toNat
  bloomFilterSize : J.HasInt members "bloom_filter_size" p.bloomFilterSize.toNat
  hashFunctionNum : J.HasInt members "hash_function_num" p.hashFunctionNum.toNat

/-- The members write a token and its expiry. -/
structure HasRevocation (members : List (Str × Json J.Double)) (token : Str) (expTime : ℤ) :
    Prop where
  token : members.lookup ("token" : Str) = some (.string token)
  expTime : J.HasInt members "exp_time" expTime

variable {J} {text event key : Str} {data : Data} {members : List (Str × Json J.Double)} {i : ℤ}

lemma memberText_of_writesInt {value : Json J.Double} (h : J.WritesInt i value) :
    J.memberText value = stdToString i := by
  cases value with
  | string s => exact h
  | int64 j =>
    cases h
    rfl
  | uint64 n =>
    cases h
    rfl
  | null | bool | double | array | object => cases h

lemma lookup_insertMembers_of_nodup (hn : (members.map Prod.fst).Nodup) (data : Data) (key : Str) :
    (J.insertMembers data members).lookup key =
      ((members.lookup key).map J.memberText).or (data.lookup key) := by
  induction members generalizing data with
  | nil => simp [insertMembers]
  | cons member members ih =>
    obtain ⟨k, value⟩ := member
    rw [List.map_cons, List.nodup_cons] at hn
    have hrest := ih hn.2 (data.insert k (J.memberText value))
    refine Eq.trans hrest ?_
    by_cases hkey : key = k
    · subst hkey
      have hnone : members.lookup key = none := by
        rw [List.lookup_eq_none_iff]
        intro member hmember
        apply bne_iff_ne.mpr
        intro h
        exact hn.1 (List.mem_map.mpr ⟨member, hmember, h.symm⟩)
      rw [hnone, AList.lookup_insert, List.lookup_cons_self]
      rfl
    · have hbeq : (key == k) = false := beq_eq_false_iff_ne.mpr hkey
      rw [AList.lookup_insert_ne hkey, List.lookup_cons, hbeq]

/-- Every member arrives as its text, and nothing else does. -/
theorem msgParse_of_message (h : J.IsMessage text event members) :
    ∃ data, J.msgParse text [] ∅ = .ok (event, data) ∧
      ∀ key, data.lookup key = (members.lookup key).map J.memberText := by
  obtain ⟨fields, hparse, hevent, hdata⟩ := h.parses
  refine ⟨J.insertMembers ∅ members, ?_, ?_⟩
  · rw [msgParse, hparse, ok_bind]
    simp only [hevent, hdata, valueToString]
    rfl
  · intro key
    rw [lookup_insertMembers_of_nodup h.nodup, AList.lookup_empty, Option.or_none]

/-- What the program assembles is such a message. -/
lemma isMessage_msgAssembly (hJ : J.RoundTrips) (event : Str) (data : Data) :
    ∃ members, J.IsMessage (J.msgAssembly event data) event members ∧
      ∀ key, members.lookup key = (data.lookup key).map .string := by
  have hperm := perm_entriesByKey data
  have hn : (entriesByKey data).NodupKeys := (List.perm_nodupKeys hperm).mpr data.nodupKeys
  refine ⟨(entriesByKey data).map fun entry => (entry.1, .string entry.2),
    ⟨⟨_, hJ event data, rfl, rfl⟩, ?_⟩, ?_⟩
  · rw [List.map_map]
    exact hn
  · intro key
    have hlookup := List.perm_dlookup key hn hperm
    change _ = (data.entries.dlookup key).map Json.string
    rw [← hlookup]
    generalize entriesByKey data = entries
    induction entries with
    | nil => rfl
    | cons entry entries ih =>
      obtain ⟨k, v⟩ := entry
      rw [List.map_cons]
      by_cases hkey : key = k
      · subst hkey
        rw [List.lookup_cons_self, List.dlookup_cons_eq, Option.map_some]
      · have hbeq : (key == k) = false := beq_eq_false_iff_ne.mpr hkey
        rw [List.lookup_cons, hbeq, List.dlookup_cons_ne _ _ hkey]
        exact ih

lemma hasInt_of_lookup (hlookup : ∀ key, members.lookup key = (data.lookup key).map .string)
    (h : data.lookup key = some (stdToString i)) : J.HasInt members key i := by
  refine ⟨.string (stdToString i), ?_, rfl⟩
  rw [hlookup, h]
  rfl

lemma lookup_of_hasInt (hdata : ∀ key, data.lookup key = (members.lookup key).map J.memberText)
    (h : J.HasInt members key i) : data.lookup key = some (stdToString i) := by
  obtain ⟨value, hvalue, hwrites⟩ := h
  rw [hdata, hvalue, Option.map_some, memberText_of_writesInt hwrites]

end JsonLib

variable {J : JsonLib} {text event : Str} {members : List (Str × Json J.Double)} {p : Params}
  {token : Str} {expTime : ℤ}

lemma stoUnsigned_stdToString (what : String) {n : ℕ} (hn : n < 2 ^ 64) :
    stoUnsigned what (stdToString n) = .ok n := by
  have hpos : ¬ (n : ℤ) < 0 := by omega
  simp only [stoUnsigned, stdToString, Numeral.readSigned_writeInt, decide_eq_false hpos,
    Int.natAbs_natCast, if_neg (not_le.mpr hn)]
  rfl

lemma stringToUInt_stdToString {n : ℕ} (hn : n < 2 ^ 32) : stringToUInt (stdToString n) = n := by
  rw [stringToUInt, stoul, stoUnsigned_stdToString _ (by omega)]
  exact Nat.mod_eq_of_lt hn

lemma stringToSizeT_stdToString {n : ℕ} (hn : n < 2 ^ 64) : stringToSizeT (stdToString n) = n := by
  rw [stringToSizeT, stoull, stoUnsigned_stdToString _ hn]
  rfl

lemma stringToTimestamp_stdToString {i : ℤ} (hi : InLong i) :
    stringToTimestamp (stdToString i) = i := by
  rw [stringToTimestamp, stoll, stoSigned_stdToString hi]
  rfl

namespace Scheduler

lemma filterParams_of_lookup {data : Data}
    (hM : data.lookup ("max_jwt_life_time" : Str) = some (stdToString p.maxJwtLifeTime.toNat))
    (hR : data.lookup ("rotation_interval" : Str) = some (stdToString p.rotationInterval.toNat))
    (hS : data.lookup ("bloom_filter_size" : Str) = some (stdToString p.bloomFilterSize.toNat))
    (hK : data.lookup ("hash_function_num" : Str) = some (stdToString p.hashFunctionNum.toNat)) :
    filterParams data = .ok p := by
  have hM' := stringToUInt_stdToString p.maxJwtLifeTime.toNat_lt
  have hR' := stringToUInt_stdToString p.rotationInterval.toNat_lt
  have hS' := stringToSizeT_stdToString p.bloomFilterSize.toNat_lt
  have hK' := stringToUInt_stdToString p.hashFunctionNum.toNat_lt
  simp only [filterParams, Data.atKey, hM, hR, hS, hK, ok_bind, hM', hR', hS', hK',
    UInt32.ofNat_toNat, UInt64.ofNat_toNat]
  rfl

lemma filterParams_of_members {data : Data}
    (hdata : ∀ key, data.lookup key = (members.lookup key).map J.memberText)
    (hp : J.HasParams members p) : filterParams data = .ok p := by
  apply filterParams_of_lookup
  · exact JsonLib.lookup_of_hasInt hdata hp.maxJwtLifeTime
  · exact JsonLib.lookup_of_hasInt hdata hp.rotationInterval
  · exact JsonLib.lookup_of_hasInt hdata hp.bloomFilterSize
  · exact JsonLib.lookup_of_hasInt hdata hp.hashFunctionNum

lemma revokeRequest_of_members {data : Data}
    (hdata : ∀ key, data.lookup key = (members.lookup key).map J.memberText)
    (hr : J.HasRevocation members token expTime) (hlong : InLong expTime) :
    revokeRequest data = (token, expTime) := by
  have hexp := JsonLib.lookup_of_hasInt hdata hr.expTime
  have htoken : data.get "token" = token := by
    rw [Data.get, hdata, hr.token]
    rfl
  rw [revokeRequest, htoken, Data.get, hexp, Option.getD_some,
    stringToTimestamp_stdToString hlong]

/-- The node reads parameters of any value and expiries of 64 bits as they are meant,
whether the master writes them as texts or as JSON integers. -/
theorem numbers_read_exactly (h : J.IsMessage text event members) :
    ∃ data, J.msgParse text [] ∅ = .ok (event, data) ∧
      (∀ p, J.HasParams members p → filterParams data = .ok p) ∧
      ∀ token expTime, J.HasRevocation members token expTime → InLong expTime →
        revokeRequest data = (token, expTime) := by
  obtain ⟨data, hparse, hdata⟩ := JsonLib.msgParse_of_message h
  exact ⟨data, hparse, fun p => filterParams_of_members hdata,
    fun token expTime => revokeRequest_of_members hdata⟩

def sampleRevocationText : Str :=
  "\x7b\"event\":\"revoke_jwt\",\"data\":\x7b\"token\":\"a\",\"exp_time\":1700000000\x7d\x7d"

def sampleMembers : List (Str × Json Empty) :=
  [("token", .string "a"), ("exp_time", .int64 1700000000)]

/-- The reader of texts and objects, and of one text that has a number. -/
def sampleParse (text : Str) : Except Fault (Json Empty) :=
  if text = sampleRevocationText then
    .ok (.object [("event", .string "revoke_jwt"), ("data", .object sampleMembers)])
  else parse text

def sampleJson : JsonLib where
  Double := Empty
  doubleToString := Empty.elim
  serialize := write
  parse := sampleParse

lemma isMessage_sample :
    sampleJson.IsMessage sampleRevocationText "revoke_jwt" sampleMembers := by
  have hparse : sampleParse sampleRevocationText = .ok _ := if_pos rfl
  exact ⟨⟨_, hparse, rfl, rfl⟩, by decide⟩

theorem numbers_read_exactly_revocation :
    sampleJson.IsMessage sampleRevocationText "revoke_jwt" sampleMembers ∧
      ∃ data, sampleJson.msgParse sampleRevocationText [] ∅ = .ok ("revoke_jwt", data) ∧
        (∀ p, sampleJson.HasParams sampleMembers p → filterParams data = .ok p) ∧
        ∀ token expTime, sampleJson.HasRevocation sampleMembers token expTime → InLong expTime →
          revokeRequest data = (token, expTime) :=
  ⟨isMessage_sample, numbers_read_exactly isMessage_sample⟩

end Scheduler

end JwtRevoker
