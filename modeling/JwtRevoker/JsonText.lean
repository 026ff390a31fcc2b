import JwtRevoker.JsonSerializer

/-!
# A JSON text format

A concrete serializer, and a parser for the texts made of strings and objects.
Messages are such texts, and parsing undoes serializing on them.
-/
namespace JwtRevoker.JsonText

def escape : Str → Str
  | [] => []
  | c :: cs => if c = '"' ∨ c = '\\' then '\\' :: c :: escape cs else c :: escape cs

def quote (s : Str) : Str := '"' :: escape s ++ ['"']

mutual

def write : Json Empty → Str
  | .null => "null"
  | .bool b => if b then "true" else "false"
  | .int64 i => stdToString i
  | .uint64 n => stdToString n
  | .double d => d.elim
  | .string s => quote s
  | .array elements => '[' :: writeElements elements ++ [']']
  | .object members => '{' :: writeMembers members ++ ['}']

def writeElements : List (Json Empty) → Str
  | [] => []
  | [x] => write x
  | x :: xs => write x ++ ',' :: writeElements xs

def writeMembers : List (Str × Json Empty) → Str
  | [] => []
  | [(key, value)] => quote key ++ ':' :: write value
  | (key, value) :: members => quote key ++ ':' :: write value ++ ',' :: writeMembers members

end

/-- The rest of a string after its opening quotation mark. -/
def readString : Str → Option (Str × Str)
  | [] => none
  | '"' :: rest => some ([], rest)
  | '\\' :: c :: rest => (readString rest).map fun r => (c :: r.1, r.2)
  | c :: rest => (readString rest).map fun r => (c :: r.1, r.2)

mutual

/-- A string or an object, with a bound on the nesting and the number of members. -/
def readValue : ℕ → Str → Option (Json Empty × Str)
  | 0, _ => none
  | fuel + 1, text =>
      match text with
      | '"' :: rest => (readString rest).map fun r => (.string r.1, r.2)
      | '{' :: '}' :: rest => some (.object [], rest)
      | '{' :: rest => (readMembers fuel rest).map fun r => (.object r.1, r.2)
      | _ => none

def readMembers : ℕ → Str → Option (List (Str × Json Empty) × Str)
  | 0, _ => none
  | fuel + 1, text =>
      match text with
      | '"' :: rest => do
          let (key, rest) ← readString rest
          match rest with
          | ':' :: rest => do
              let (value, rest) ← readValue fuel rest
              match rest with
              | '}' :: rest => some ([(key, value)], rest)
              | ',' :: rest => (readMembers fuel rest).map fun r => ((key, value) :: r.1, r.2)
              | _ => none
          | _ => none
      | _ => none

end

def parse (text : Str) : Except Fault (Json Empty) :=
  match readValue text.length text with
  | some (value, []) => .ok value
  | _ => .error (.runtimeError "syntax error")

/-- The format as a library without floating-point numbers. -/
def jsonText : JsonLib where
  Double := Empty
  doubleToString := Empty.elim
  serialize := write
  parse := parse

lemma readString_escape (s rest : Str) :
    readString (escape s ++ '"' :: rest) = some (s, rest) := by
  induction s with
  | nil => rfl
  | cons c cs ih =>
    rw [escape]
    split_ifs with hc
    · rw [List.cons_append, List.cons_append, readString, ih]
      rfl
    · obtain ⟨hq, hb⟩ := not_or.mp hc
      rw [List.cons_append, readString.eq_4 _ _ hq, ih]
      · rfl
      · rintro c' rest' rfl
        exact absurd rfl hb

lemma readValue_string {fuel : ℕ} (hf : 0 < fuel) (s rest : Str) :
    readValue fuel (quote s ++ rest) = some (.string s, rest) := by
  obtain ⟨n, rfl⟩ := Nat.exists_eq_add_of_lt hf
  rw [quote, List.append_assoc, List.cons_append, Nat.zero_add, readValue, List.singleton_append,
    readString_escape]
  rfl

/-- A member that reads back, and what may follow it. -/
theorem readMembers_cons {fuel : ℕ} {text : Str} {value : Json Empty} (key rest : Str)
    (hv : ∀ rest, readValue fuel (text ++ rest) = some (value, rest)) :
    readMembers (fuel + 1) (quote key ++ ':' :: (text ++ '}' :: rest)) =
        some ([(key, value)], rest) ∧
      readMembers (fuel + 1) (quote key ++ ':' :: (text ++ ',' :: rest)) =
        (readMembers fuel rest).map fun r => ((key, value) :: r.1, r.2) := by
  constructor
  · simp only [quote, List.append_assoc, List.cons_append, readMembers, List.nil_append,
      readString_escape, Option.bind_eq_bind, Option.bind_some, hv]
  · simp only [quote, List.append_assoc, List.cons_append, readMembers, List.nil_append,
      readString_escape, Option.bind_eq_bind, Option.bind_some, hv]

lemma readMembers_writeMembers {entries : List (Σ _ : Str, Str)} (hne : entries ≠ []) {fuel : ℕ}
    (hf : entries.length < fuel) (rest : Str) :
    readMembers fuel (writeMembers (entries.map fun e => (e.1, .string e.2)) ++ '}' :: rest) =
      some (entries.map fun e => (e.1, .string e.2), rest) := by
  induction entries generalizing fuel with
  | nil => exact absurd rfl hne
  | cons e entries ih =>
    obtain ⟨n, rfl⟩ : ∃ n, fuel = n + 1 := ⟨fuel - 1, by omega⟩
    have hn : entries.length < n := by simpa using hf
    have hv : ∀ rest, readValue n (quote e.2 ++ rest) = some (.string e.2, rest) :=
      fun rest => readValue_string (by omega) e.2 rest
    cases entries with
    | nil =>
      have hc := (readMembers_cons e.1 rest hv).1
      rw [← List.cons_append, ← List.append_assoc] at hc
      exact hc
    | cons e' entries =>
      have hc := (readMembers_cons e.1 (writeMembers ((e' :: entries).map fun e =>
        (e.1, .string e.2)) ++ '}' :: rest) hv).2
      rw [ih (List.cons_ne_nil _ _) hn] at hc
      simp only [List.map_cons, writeMembers, write, List.append_assoc, List.cons_append] at hc ⊢
      exact hc

lemma length_le_writeMembers (members : List (Str × Json Empty)) :
    members.length ≤ (writeMembers members).length := by
  induction members with
  | nil => simp
  | cons m ms ih =>
    cases ms with
    | nil => simp [writeMembers, quote]
    | cons m' ms =>
      simp only [writeMembers, List.length_append, List.length_cons] at ih ⊢
      omega

lemma readValue_object (entries : List (Σ _ : Str, Str)) {fuel : ℕ} (hf : entries.length + 1 < fuel)
    (rest : Str) :
    readValue fuel (write (.object (entries.map fun e => (e.1, .string e.2))) ++ rest) =
      some (.object (entries.map fun e => (e.1, .string e.2)), rest) := by
  obtain ⟨n, rfl⟩ : ∃ n, fuel = n + 1 := ⟨fuel - 1, by omega⟩
  cases entries with
  | nil => rfl
  | cons e entries =>
    have hm := readMembers_writeMembers (List.cons_ne_nil e entries)
      (Nat.lt_of_succ_lt_succ hf) rest
    have hq : ∃ tail, writeMembers ((e :: entries).map fun e => (e.1, .string e.2)) ++ '}' :: rest =
        '"' :: tail := by
      cases entries <;> exact ⟨_, rfl⟩
    obtain ⟨tail, hq⟩ := hq
    rw [write, List.append_assoc, List.cons_append, List.singleton_append, hq, readValue]
    · rw [hq] at hm
      simp only [hm, Option.map_some]
    · rintro rest' h
      cases h

def message (event : Str) (entries : List (Σ _ : Str, Str)) : Json Empty :=
  .object [("event", .string event), ("data", .object (entries.map fun e => (e.1, .string e.2)))]

lemma parse_write_message (event : Str) (entries : List (Σ _ : Str, Str)) :
    parse (write (message event entries)) = .ok (message event entries) := by
  let second : Str := quote "data" ++ ':' ::
    (write (.object (entries.map fun e => (e.1, .string e.2))) ++ ['}'])
  let tail : Str := escape "event" ++ '"' :: ':' :: (quote event ++ ',' :: second)
  have htext : write (message event entries) = '{' :: '"' :: tail := by
    simp [message, write, writeMembers, tail, second, quote]
  have hlen : entries.length + 1 < tail.length - 1 := by
    have hle := length_le_writeMembers (entries.map fun e => (e.1, .string e.2))
    simp only [List.length_map] at hle
    simp only [tail, second, write, List.length_append, List.length_cons]
    omega
  obtain ⟨n, hn⟩ : ∃ n, tail.length = n + 1 := ⟨tail.length - 1, by omega⟩
  have hdata := (readMembers_cons "data" []
    fun rest => readValue_object entries (show entries.length + 1 < n by omega) rest).1
  have hevent := (readMembers_cons "event" second
    fun rest => readValue_string (Nat.succ_pos n) event rest).2
  rw [hdata] at hevent
  have hread : readValue (n + 1 + 1 + 1) ('{' :: '"' :: tail) =
      some (message event entries, []) := by
    rw [readValue]
    · have ht : '"' :: tail = quote "event" ++ ':' :: (quote event ++ ',' :: second) := by
        simp [tail, quote]
      rw [ht]
      change (readMembers (n.succ + 1) _).map _ = _
      rw [hevent]
      rfl
    · rintro rest h
      cases h
  rw [htext, parse, List.length_cons, List.length_cons, hn, hread]

/-- On messages parsing undoes serializing. -/
theorem roundTrips_jsonText : jsonText.RoundTrips :=
  fun event data => parse_write_message event (JsonLib.entriesByKey data)

end JwtRevoker.JsonText
