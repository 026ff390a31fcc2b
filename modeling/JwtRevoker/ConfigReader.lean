import JwtRevoker.Cpp

/-!
# The configuration file

`ConfigReader.hpp`: blanks are trimmed at the ends of a line, of a key and of a
value; a line is split at its first `=`, and lines that are empty, start with `#`
or have no `=` are passed over. A file that is written in this form reads back as
its entries.
-/
namespace JwtRevoker.ConfigReader

/-- A position in a string; `none` is `npos`. -/
abbrev Position := Option ℕ

/-- `npos + 1` wraps to 0. -/
def Position.succ : Position → ℕ
  | none => 0
  | some i => i + 1

def find (str : Str) (c : Char) : Position := str.findIdx? (· == c)

def findFirstNotOf (str chars : Str) : Position := str.findIdx? (!chars.contains ·)

def findLastNotOf (str chars : Str) : Position :=
  (str.reverse.findIdx? (!chars.contains ·)).map fun i => str.length - 1 - i

/-- At most `count` characters from `pos` on go. -/
def erase (str : Str) (pos : ℕ) (count : Position) : Except Fault Str :=
  if str.length < pos then .error (.outOfRange "basic_string::erase")
  else .ok (str.take pos ++ str.drop (pos + count.getD str.length))

def substr (str : Str) (pos : ℕ) (count : Position) : Except Fault Str :=
  if str.length < pos then .error (.outOfRange "basic_string::substr")
  else .ok ((str.drop pos).take (count.getD str.length))

def blanks : Str := " \t"

def trim (str : Str) : Except Fault Str := do
  let result ← erase str 0 (findFirstNotOf str blanks)
  erase result (findLastNotOf result blanks).succ none

/-- One round of the loop. -/
def readLine (config : Data) (line : Str) : Except Fault Data := do
  let line ← trim line
  if line = [] ∨ line.head? = some '#' then return config
  match find line '=' with
  | none => return config
  | some delimiterPos =>
      let key ← substr line 0 (some delimiterPos)
      let value ← substr line (delimiterPos + 1) none
      let key ← trim key
      let value ← trim value
      return config.insert key value

/-- The file by its content; `none` is a file that cannot be opened. -/
def readConfig : Option Str → Except Fault Data
  | none => .ok ∅
  | some text => (getlines text).foldlM readLine ∅

section Trim

def isBlank (c : Char) : Bool := blanks.contains c

variable {s b b' : Str}

/-- What `find_first_not_of` finds is where `dropWhile` stops. -/
lemma erase_findFirstNotOf (s : Str) :
    erase s 0 (findFirstNotOf s blanks) = .ok (s.dropWhile isBlank) := by
  have hdrop : s.dropWhile isBlank = s.drop ((findFirstNotOf s blanks).getD s.length) := by
    rw [List.dropWhile_eq_drop_findIdx_not, findFirstNotOf, ← List.findIdx_eq_getD_findIdx?]
    rfl
  rw [erase, if_neg (Nat.not_lt_zero _), hdrop, Nat.zero_add]
  rfl

lemma succ_findLastNotOf (s : Str) :
    (findLastNotOf s blanks).succ = s.length - s.reverse.findIdx (!isBlank ·) := by
  rw [List.findIdx_eq_getD_findIdx?]
  change Position.succ ((s.reverse.findIdx? (!isBlank ·)).map _) = _
  cases h : s.reverse.findIdx? (!isBlank ·) with
  | none => simp [Position.succ]
  | some i =>
    have hlt := (List.findIdx?_eq_some_iff_findIdx_eq.mp h).1
    rw [List.length_reverse] at hlt
    simp only [Option.map_some, Position.succ, Option.getD_some]
    omega

lemma erase_findLastNotOf (s : Str) :
    erase s (findLastNotOf s blanks).succ none = .ok (s.rdropWhile isBlank) := by
  rw [succ_findLastNotOf, erase, if_neg (by omega), List.rdropWhile,
    List.dropWhile_eq_drop_findIdx_not, ← List.rdrop_eq_reverse_drop_reverse, List.rdrop]
  simp

lemma trim_eq (s : Str) : trim s = .ok ((s.dropWhile isBlank).rdropWhile isBlank) := by
  rw [trim, erase_findFirstNotOf, ok_bind, erase_findLastNotOf]

/-- A string that trimming leaves as it is. -/
def NoBlankEnds (s : Str) : Prop :=
  (∀ c ∈ s.head?, isBlank c = false) ∧ ∀ c ∈ s.getLast?, isBlank c = false

def Blank (b : Str) : Prop := ∀ c ∈ b, isBlank c = true

-- Without these the quantifiers would be decided by going through all characters.
instance (s : Str) : Decidable (NoBlankEnds s) :=
  @instDecidableAnd _ _ (Option.decidableForallMem s.head?) (Option.decidableForallMem s.getLast?)

instance (b : Str) : Decidable (Blank b) := List.decidableBAll (isBlank · = true) b

lemma rdropWhile_of_noBlankEnds (hs : NoBlankEnds s) : s.rdropWhile isBlank = s := by
  rw [List.rdropWhile_eq_self_iff]
  intro hne
  simp [hs.2 _ (List.getLast?_eq_getLast_of_ne_nil hne)]

lemma rdropWhile_append_blank (s : Str) (hb : Blank b) :
    (s ++ b).rdropWhile isBlank = s.rdropWhile isBlank := by
  rw [List.rdropWhile, List.reverse_append,
    List.dropWhile_append_of_pos fun c hc => hb c (List.mem_reverse.mp hc), ← List.rdropWhile]

/-- The character before the cut stops it. -/
lemma rdropWhile_append_cons (s t : Str) {c : Char} (hc : isBlank c = false) :
    (s ++ c :: t).rdropWhile isBlank = s ++ c :: t.rdropWhile isBlank := by
  induction t using List.reverseRecOn with
  | nil => exact List.rdropWhile_concat_neg isBlank s c (by simp [hc])
  | append_singleton t d ih =>
    rw [← List.cons_append, ← List.append_assoc, List.rdropWhile_concat, List.rdropWhile_concat]
    split_ifs
    · exact ih
    · rw [List.append_assoc, List.cons_append]

lemma trim_blank (hb : Blank b) : trim b = .ok [] := by
  rw [trim_eq, List.dropWhile_eq_nil_iff.mpr hb]
  rfl

lemma trim_front (hb : Blank b) (hs : ∀ c ∈ s.head?, isBlank c = false) :
    trim (b ++ s) = .ok (s.rdropWhile isBlank) := by
  rw [trim_eq, List.dropWhile_append_of_pos hb]
  cases s with
  | nil => rfl
  | cons c cs => rw [List.dropWhile_cons_of_neg (by simp [hs c rfl])]

lemma trim_surrounded (hb : Blank b) (hs : NoBlankEnds s) (hb' : Blank b') :
    trim (b ++ s ++ b') = .ok s := by
  rw [List.append_assoc]
  cases s with
  | nil =>
    apply trim_blank
    intro c hc
    rcases List.mem_append.mp hc with hc | hc
    · exact hb c hc
    · exact hb' c hc
  | cons c cs =>
    have hfront : ∀ d ∈ (c :: cs ++ b').head?, isBlank d = false := hs.1
    rw [trim_front hb hfront, rdropWhile_append_blank _ hb', rdropWhile_of_noBlankEnds hs]

/-- Trimming the end of the line has trimmed the end of the value already. -/
lemma trim_rdropWhile_surrounded (hb : Blank b) (hs : NoBlankEnds s) (hb' : Blank b') :
    trim ((b ++ s ++ b').rdropWhile isBlank) = .ok s := by
  rw [rdropWhile_append_blank _ hb']
  rcases eq_or_ne s [] with rfl | hne
  · rw [List.append_nil, List.rdropWhile_eq_nil_iff.mpr hb]
    rfl
  · have hkeep : (b ++ s).rdropWhile isBlank = b ++ s ++ [] := by
      rw [List.append_nil, List.rdropWhile_eq_self_iff]
      intro h
      rw [List.getLast_append_of_ne_nil h hne]
      simp [hs.2 _ (List.getLast?_eq_getLast_of_ne_nil hne)]
    rw [hkeep]
    exact trim_surrounded hb hs fun c hc => absurd hc List.not_mem_nil

end Trim

/-- A key that can stand in front of an `=`. -/
structure Key where
  text : Str
  ne_nil : text ≠ []
  no_hash : text.head? ≠ some '#'
  no_equals : '=' ∉ text
  no_newline : '\n' ∉ text
  noBlankEnds : NoBlankEnds text

structure Value where
  text : Str
  no_newline : '\n' ∉ text
  noBlankEnds : NoBlankEnds text

/-- Spaces and tabs. -/
abbrev Blanks := {b : Str // Blank b}

def spaces (n : ℕ) : Blanks :=
  ⟨List.replicate n ' ', fun _ hc => List.eq_of_mem_replicate hc ▸ rfl⟩

/-- What a line of a configuration file can be. -/
inductive Line
  | entry (before : Blanks) (key : Key) (behind : Blanks) (front : Blanks) (value : Value)
      (after : Blanks)
  | blank (b : Blanks)
  | comment (before : Blanks) (rest : Str) (no_newline : '\n' ∉ rest)
  | noEquals (text : Str) (no_newline : '\n' ∉ text) (no_equals : '=' ∉ text)

namespace Line

def text : Line → Str
  | entry before key behind front value after =>
      before ++ key.text ++ behind ++ '=' :: (front ++ value.text ++ after)
  | blank b => b
  | comment before rest _ => before ++ '#' :: rest
  | noEquals text _ _ => text

def record : Line → Option (Σ _ : Str, Str)
  | entry _ key _ _ value _ => some ⟨key.text, value.text⟩
  | blank _ | comment _ _ _ | noEquals _ _ _ => none

end Line

/-- The lines one after the other; with an empty one at the end the text ends in a newline. -/
def fileText (lines : List Line) : Str := ['\n'].intercalate (lines.map Line.text)

/-- The entries a file lists, in the order of its lines. -/
def records (lines : List Line) : List (Σ _ : Str, Str) := lines.filterMap Line.record

section Read

variable {config : Data} {line : Line} {lines : List Line}

lemma find_append {s : Str} {c : Char} (hs : c ∉ s) (rest : Str) :
    find (s ++ c :: rest) c = some s.length := by
  induction s with
  | nil => simp [find, List.findIdx?_cons]
  | cons d ds ih =>
    rw [List.mem_cons, not_or] at hs
    have hd : (d == c) = false := by simp [Ne.symm hs.1]
    have hrest : (ds ++ c :: rest).findIdx? (· == c) = some ds.length := ih hs.2
    simp [find, List.findIdx?_cons, hd, hrest]

lemma find_eq_none {s : Str} {c : Char} (hs : c ∉ s) : find s c = none := by
  rw [find, List.findIdx?_eq_none_iff]
  intro d hd
  simp only [beq_eq_false_iff_ne]
  exact fun h => hs (h ▸ hd)

lemma substr_front (s t : Str) : substr (s ++ t) 0 (some s.length) = .ok s := by simp [substr]

lemma substr_behind (s t : Str) (c : Char) :
    substr (s ++ c :: t) (s.length + 1) none = .ok t := by
  have hlen : t.length ≤ (s ++ c :: t).length := by
    simp only [List.length_append, List.length_cons]
    omega
  have hdrop : (s ++ c :: t).drop (s.length + 1) = t := by simp
  rw [substr, if_neg (by simp), hdrop]
  exact congrArg Except.ok (List.take_of_length_le hlen)

/-- What is left of a line that a key begins is not passed over. -/
lemma Key.front (key : Key) (t : Str) :
    (∀ c ∈ (key.text ++ t).head?, isBlank c = false) ∧
      ¬ (key.text ++ t = [] ∨ (key.text ++ t).head? = some '#') := by
  obtain ⟨c, cs, hkey⟩ := List.exists_cons_of_ne_nil key.ne_nil
  have hhead : (key.text ++ t).head? = key.text.head? := by simp [hkey]
  rw [hhead]
  refine ⟨key.noBlankEnds.1, ?_⟩
  rintro (hnil | hhash)
  · exact key.ne_nil (List.append_eq_nil_iff.mp hnil).1
  · exact key.no_hash hhash

lemma readLine_entry (before : Blanks) (key : Key) (behind front : Blanks) (value : Value)
    (after : Blanks) :
    readLine config (Line.entry before key behind front value after).text =
      .ok (config.insert key.text value.text) := by
  have hequals : '=' ∉ key.text ++ behind.val := by
    intro h
    rcases List.mem_append.mp h with h | h
    · exact key.no_equals h
    · exact absurd (behind.property _ h) (by decide)
  have hline : trim (Line.entry before key behind front value after).text =
      .ok (key.text ++ behind.val ++
        '=' :: (front.val ++ value.text ++ after.val).rdropWhile isBlank) := by
    rw [← rdropWhile_append_cons _ _ (by decide), List.append_assoc,
      ← trim_front before.property (key.front _).1]
    simp only [Line.text, List.append_assoc]
  have hkey : trim (key.text ++ behind.val) = .ok key.text :=
    trim_surrounded (b := []) (fun c hc => absurd hc List.not_mem_nil) key.noBlankEnds
      behind.property
  have hvalue := trim_rdropWhile_surrounded front.property value.noBlankEnds after.property
  rw [readLine, hline, ok_bind, if_neg (by rw [List.append_assoc]; exact (key.front _).2),
    find_append hequals]
  dsimp only
  rw [substr_front, ok_bind, substr_behind, ok_bind, hkey, ok_bind, hvalue]
  rfl

lemma readLine_text (config : Data) (line : Line) :
    readLine config line.text =
      .ok (line.record.elim config fun record => config.insert record.1 record.2) := by
  cases line with
  | entry before key behind front value after => exact readLine_entry ..
  | blank b =>
    rw [Line.text, readLine, trim_blank b.property, ok_bind, if_pos (.inl rfl)]
    rfl
  | comment before rest hn =>
    have hline : trim (before ++ '#' :: rest) = .ok ('#' :: rest.rdropWhile isBlank) := by
      rw [trim_front before.property (by simp; decide)]
      exact congrArg Except.ok (rdropWhile_append_cons [] rest (by decide))
    rw [Line.text, readLine, hline, ok_bind, if_pos (.inr rfl)]
    rfl
  | noEquals text hn he =>
    have htrimmed : '=' ∉ (text.dropWhile isBlank).rdropWhile isBlank := fun h =>
      he ((List.dropWhile_suffix isBlank).subset ((List.rdropWhile_prefix isBlank _).subset h))
    rw [Line.text, readLine, trim_eq, ok_bind]
    split_ifs
    · rfl
    · rw [find_eq_none htrimmed]
      rfl

/-- Both cuts at an `=` that was found are inside of the line. -/
lemma readLine_isOk (config : Data) (line : Str) :
    ∃ config', readLine config line = .ok config' := by
  rw [readLine, trim_eq, ok_bind]
  set trimmed := (line.dropWhile isBlank).rdropWhile isBlank
  split_ifs
  · exact ⟨config, rfl⟩
  · cases hfind : find trimmed '=' with
    | none => exact ⟨config, rfl⟩
    | some pos =>
      have hlt := (List.findIdx?_eq_some_iff_findIdx_eq.mp hfind).1
      dsimp only
      rw [substr, if_neg (by omega), ok_bind, substr, if_neg (by omega), ok_bind, trim_eq, ok_bind,
        trim_eq, ok_bind]
      exact ⟨_, rfl⟩

/-- Whatever the file holds, reading it throws nothing. -/
theorem readConfig_isOk (file : Option Str) : ∃ config, readConfig file = .ok config := by
  cases file with
  | none => exact ⟨∅, rfl⟩
  | some text =>
    have hlines : ∀ (lines : List Str) (config : Data),
        ∃ config', lines.foldlM readLine config = .ok config' := by
      intro lines
      induction lines with
      | nil => exact fun config => ⟨config, rfl⟩
      | cons line lines ih =>
        intro config
        obtain ⟨config₁, h₁⟩ := readLine_isOk config line
        rw [List.foldlM_cons, h₁, ok_bind]
        exact ih config₁
    exact hlines (getlines text) ∅

lemma newline_notMem_text (line : Line) : '\n' ∉ line.text := by
  have hblanks (b : Blanks) : '\n' ∉ b.val := fun h => absurd (b.property _ h) (by decide)
  cases line with
  | entry before key behind front value after =>
    simp [Line.text, hblanks, key.no_newline, value.no_newline]
  | blank b => exact hblanks b
  | comment before rest hn => simp [Line.text, hblanks, hn]
  | noEquals text hn he => exact hn

lemma getlines_of_notMem {line : Str} (hn : '\n' ∉ line) (hne : line ≠ []) :
    getlines line = [line] := by
  induction line with
  | nil => exact absurd rfl hne
  | cons c cs ih =>
    rw [List.mem_cons, not_or] at hn
    cases cs with
    | nil => simp [getlines, Ne.symm hn.1]
    | cons d ds => rw [getlines, if_neg (Ne.symm hn.1), ih hn.2 (List.cons_ne_nil d ds)]

/-- `std::getline` reads the lines back, save an empty one at the end. -/
lemma foldlM_getlines {lines : List Str} (hn : ∀ line ∈ lines, '\n' ∉ line) (config : Data) :
    (getlines (['\n'].intercalate lines)).foldlM readLine config =
      lines.foldlM readLine config := by
  induction lines generalizing config with
  | nil => rfl
  | cons line lines ih =>
    rw [List.forall_mem_cons] at hn
    cases lines with
    | nil =>
      rcases eq_or_ne line [] with rfl | hne
      · exact (readLine_text config (.blank (spaces 0))).symm
      · have hone : ['\n'].intercalate [line] = line := by simp [List.intercalate]
        rw [hone, getlines_of_notMem hn.1 hne]
    | cons next lines =>
      have htwo : ['\n'].intercalate (line :: next :: lines) =
          line ++ '\n' :: ['\n'].intercalate (next :: lines) := by simp [List.intercalate]
      rw [htwo, getlines_append_newline hn.1, List.foldlM_cons, List.foldlM_cons]
      congr 1
      funext config
      exact ih hn.2 config

def insertRecord (config : Data) (record : Σ _ : Str, Str) : Data :=
  config.insert record.1 record.2

lemma foldlM_readLine (lines : List Line) (config : Data) :
    (lines.map Line.text).foldlM readLine config =
      .ok ((records lines).foldl insertRecord config) := by
  induction lines generalizing config with
  | nil => rfl
  | cons line lines ih =>
    rw [List.map_cons, List.foldlM_cons, readLine_text, ok_bind, ih, records, records,
      List.filterMap_cons]
    cases line.record <;> rfl

/-- Of several records of a key the last one counts. -/
lemma lookup_foldl_insertRecord (records : List (Σ _ : Str, Str)) (key : Str) :
    (records.foldl insertRecord ∅).lookup key = records.reverse.dlookup key := by
  induction records using List.reverseRecOn with
  | nil => rfl
  | append_singleton records record ih =>
    obtain ⟨k, v⟩ := record
    rw [List.foldl_append, List.reverse_append]
    change ((records.foldl insertRecord ∅).insert k v).lookup key =
      List.dlookup key (⟨k, v⟩ :: records.reverse)
    by_cases hkey : key = k
    · subst hkey
      rw [AList.lookup_insert, List.dlookup_cons_eq]
    · rw [AList.lookup_insert_ne hkey, List.dlookup_cons_ne _ _ hkey, ih]

/-- A file reads back as its records: the last line of each key counts, and where the
lines list the entries of a map, each once and in any order, the result is the map. -/
theorem readConfig_fileText (lines : List Line) :
    ∃ config, readConfig (some (fileText lines)) = .ok config ∧
      (∀ key, config.lookup key = (records lines).reverse.dlookup key) ∧
      ∀ map : Finmap fun _ : Str => Str, (records lines : Multiset (Σ _ : Str, Str)) = map.entries →
        config.toFinmap = map := by
  have hlookup := lookup_foldl_insertRecord (records lines)
  refine ⟨_, ?_, hlookup, ?_⟩
  · have hn : ∀ text ∈ lines.map Line.text, '\n' ∉ text := by
      intro text htext
      obtain ⟨line, -, rfl⟩ := List.mem_map.mp htext
      exact newline_notMem_text line
    exact (foldlM_getlines hn ∅).trans (foldlM_readLine lines ∅)
  · intro map hmap
    induction map using Finmap.induction_on with
    | H entries =>
      have hperm : (records lines).Perm entries.entries := Multiset.coe_eq_coe.mp hmap
      have hnodup : (records lines).NodupKeys := (List.perm_nodupKeys hperm).mpr entries.nodupKeys
      apply Finmap.ext_lookup
      intro key
      rw [Finmap.lookup_toFinmap, Finmap.lookup_toFinmap, hlookup]
      have hreverse := List.reverse_perm (records lines)
      exact List.perm_dlookup key ((List.perm_nodupKeys hreverse).mpr hnodup)
        (hreverse.trans hperm)

/-- A comment, a value with both separators in it, a line without `=`, an empty value, and
a newline at the end. -/
def sampleLines : List Line :=
  [.comment (spaces 1) " port = 1" (by decide),
    .entry (spaces 0) ⟨"token", by decide, by decide, by decide, by decide, by decide⟩
      ⟨" \t", by decide⟩ (spaces 1) ⟨"a=b #c", by decide, by decide⟩ (spaces 1),
    .noEquals "no entry" (by decide) (by decide),
    .entry (spaces 2) ⟨"port", by decide, by decide, by decide, by decide, by decide⟩ (spaces 0)
      (spaces 2) ⟨[], by decide, by decide⟩ (spaces 0),
    .blank (spaces 0)]

def sampleMap : Finmap fun _ : Str => Str :=
  Finmap.insert "port" [] (Finmap.singleton "token" "a=b #c")

theorem readConfig_fileText_sample :
    fileText sampleLines =
      (" # port = 1\ntoken \t= a=b #c \nno entry\n  port=  \n" : Str) ∧
    (records sampleLines : Multiset (Σ _ : Str, Str)) = sampleMap.entries ∧
    ∃ config, readConfig (some (fileText sampleLines)) = .ok config ∧
      config.toFinmap = sampleMap := by
  have hentries : (records sampleLines : Multiset (Σ _ : Str, Str)) = sampleMap.entries := by
    decide +kernel
  obtain ⟨config, hread, -, hmap⟩ := readConfig_fileText sampleLines
  exact ⟨by decide, hentries, config, hread, hmap sampleMap hentries⟩

end Read

end JwtRevoker.ConfigReader
