import JwtRevoker.Cpp

/-!
# Messages as JSON texts

`msgAssembly` and `msgParse` over a JSON library given by its serializer and its
parser. When parsing undoes serializing, parsing an assembled message gives its
event and the same entries back.
-/
namespace JwtRevoker

/-- The kinds of value `msgParse` tells apart. -/
inductive Json (Double : Type)
  | null
  | bool (b : Bool)
  | int64 (i : ℤ)
  | uint64 (n : ℕ)
  | double (d : Double)
  | string (s : Str)
  | array (elements : List (Json Double))
  | object (members : List (Str × Json Double))

/-- The JSON library, with `std::to_string` of its floating-point numbers. -/
structure JsonLib where
  Double : Type
  doubleToString : Double → Str
  serialize : Json Double → Str
  parse : Str → Except Fault (Json Double)

namespace JsonLib

variable (J : JsonLib)

/-- The entries of a map in the order of its iterators. -/
def entriesByKey (data : Data) : List (Σ _ : Str, Str) :=
  data.entries.mergeSort fun a b => decide (a.1 ≤ b.1)

def msgObject (event : Str) (data : Data) : Json J.Double :=
  .object [("event", .string event),
    ("data", .object ((entriesByKey data).map fun entry => (entry.1, .string entry.2)))]

def msgAssembly (event : Str) (data : Data) : Str := J.serialize (J.msgObject event data)

/-- `value_to<std::string>`. -/
def valueToString : Json J.Double → Except Fault Str
  | .string s => .ok s
  | _ => .error (.runtimeError "not_string")

def memberText : Json J.Double → Str
  | .string s => s
  | .int64 i => stdToString i
  | .uint64 n => stdToString n
  | .double d => J.doubleToString d
  | .bool b => if b then "true" else "false"
  | .null => "null"
  | .array _ => "unsupported_type"
  | .object _ => "unsupported_type"

def insertMembers (data : Data) (members : List (Str × Json J.Double)) : Data :=
  members.foldl (fun data member => data.insert member.1 (J.memberText member.2)) data

/-- `event` and `data` are the values the two reference parameters have before the call. -/
def msgParse (jsonStr event : Str) (data : Data) : Except Fault (Str × Data) := do
  match ← J.parse jsonStr with
  | .object jsonObject =>
      let event ← match jsonObject.lookup ("event" : Str) with
        | none => pure event
        | some value => J.valueToString value
      match jsonObject.lookup ("data" : Str) with
      | none => pure (event, data)
      | some (.object dataObject) => pure (event, J.insertMembers data dataObject)
      | some (.array _) => .error (.runtimeError "not_object")
      | some dataValue => pure (event, data.insert "message" (J.serialize dataValue))
  | _ => .error (.runtimeError "Invalid JSON format")

/-- Parsing undoes serializing on assembled messages. -/
def RoundTrips : Prop :=
  ∀ event data, J.parse (J.msgAssembly event data) = .ok (J.msgObject event data)

variable {J}

lemma perm_entriesByKey (data : Data) : (entriesByKey data).Perm data.entries :=
  List.mergeSort_perm ..

/-- Entries sorted by their keys are in the order of the iterators. -/
lemma entriesByKey_of_sorted {data : Data} {entries : List (Σ _ : Str, Str)}
    (hperm : entries.Perm data.entries) (hsorted : entries.Pairwise fun a b => a.1 ≤ b.1) :
    entriesByKey data = entries := by
  have hbykey : (entriesByKey data).Pairwise fun a b => a.1 ≤ b.1 := by
    refine (List.pairwise_mergeSort ?_ ?_ data.entries).imp of_decide_eq_true
    · intro a b c hab hbc
      exact decide_eq_true (le_trans (of_decide_eq_true hab) (of_decide_eq_true hbc))
    · intro a b
      simpa using le_total a.1 b.1
  refine ((perm_entriesByKey data).trans hperm.symm).eq_of_pairwise ?_ hbykey hsorted
  intro a b ha hb hab hba
  exact data.nodupKeys.eq_of_fst_eq ((perm_entriesByKey data).subset ha) (hperm.subset hb)
    (le_antisymm hab hba)

lemma lookup_insertMembers (entries : List (Σ _ : Str, Str)) (hn : entries.NodupKeys)
    (data : Data) (key : Str) :
    (J.insertMembers data (entries.map fun entry => (entry.1, .string entry.2))).lookup key =
      (entries.dlookup key).or (data.lookup key) := by
  induction entries generalizing data with
  | nil => simp [insertMembers]
  | cons entry entries ih =>
    obtain ⟨k, v⟩ := entry
    have hrest := ih (List.nodupKeys_of_nodupKeys_cons hn) (data.insert k v)
    have hk := List.notMem_keys_of_nodupKeys_cons hn
    rw [List.map_cons]
    refine Eq.trans hrest ?_
    by_cases hkey : key = k
    · subst hkey
      rw [List.dlookup_eq_none.mpr hk, AList.lookup_insert, List.dlookup_cons_eq]
      rfl
    · rw [AList.lookup_insert_ne hkey, List.dlookup_cons_ne _ _ hkey]

lemma msgParse_msgAssembly (hJ : J.RoundTrips) (event : Str) (data : Data) :
    ∃ data', J.msgParse (J.msgAssembly event data) [] ∅ = .ok (event, data') ∧
      ∀ key, data'.lookup key = data.lookup key := by
  refine ⟨J.insertMembers ∅ ((entriesByKey data).map fun entry => (entry.1, .string entry.2)), ?_,
    fun key => ?_⟩
  · unfold msgParse
    rw [hJ event data]
    rfl
  · have hperm := perm_entriesByKey data
    have hn : (entriesByKey data).NodupKeys := (List.perm_nodupKeys hperm).mpr data.nodupKeys
    rw [lookup_insertMembers _ hn, List.perm_dlookup key hn hperm, AList.lookup_empty,
      Option.or_none]
    rfl

end JsonLib

end JwtRevoker
