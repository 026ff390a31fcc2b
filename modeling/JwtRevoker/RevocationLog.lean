import JwtRevoker.EngineWindow

/-!
# The revocation log

Records are written by `logWorker` as lines `token,expTime` into one file per
local hour and read back by `recoverFromLog`, which visits the files of the last
24 hours, newest first, and deletes every other regular file of the directory.
The offset of local time from UTC is constant.
-/
namespace JwtRevoker

/-- The regular files of the log directory by name. -/
abbrev LogDir := Str → Option Str

instance decidableMemNames (name : Str) (names : List Str) : Decidable (name ∈ names) :=
  inferInstance

/-- Local time with minutes and seconds set to 0, back as a time stamp. -/
def hourlyTimestamp (utcOffset now : ℤ) : ℤ := (now + utcOffset) / 3600 * 3600 - utcOffset

def logFileName (hourlyTimestamp : ℤ) : Str := stdToString hourlyTimestamp ++ (".txt" : Str)

def logRecord (token : Str) (expTime : ℤ) : Str := token ++ ',' :: stdToString expTime

/-- One append of `logWorker`: `std::endl` ends the record. -/
def writeLog (utcOffset now : ℤ) (dir : LogDir) (msg : Str) : LogDir :=
  let name := logFileName (hourlyTimestamp utcOffset now)
  Function.update dir name (some ((dir name).getD [] ++ (msg ++ ['\n'])))

def hourFiles (utcOffset now : ℤ) : List Str :=
  (List.range 24).map fun i : ℕ => logFileName (hourlyTimestamp utcOffset now - 3600 * i)

def lookForHourFiles (utcOffset now : ℤ) (dir : LogDir) : List Str :=
  (hourFiles utcOffset now).filter fun name => (dir name).isSome

def deleteOthers (foundFiles : List Str) (dir : LogDir) : LogDir :=
  fun name => if name ∈ foundFiles then dir name else none

/-- The two `std::getline` calls on a line: the text before the first comma and
the text after it. Without a comma, or with nothing after it, there is no record. -/
def splitRecord (line : Str) : Option (Str × Str) :=
  match line.dropWhile (· != ',') with
  | _ :: c :: rest => some (line.takeWhile (· != ','), c :: rest)
  | _ => none

def importRecord (hash : HashCalls) (now : ℤ) (e : Engine) (filters : List BaseBloomFilter)
    (token : Str) (expTime : ℤ) : Except Fault (List BaseBloomFilter) :=
  if expTime < now then .ok filters
  else
    let remainingTime := expTime - now
    if remainingTime ≤ 0 then .ok filters
    else if remainingTime > e.maxJwtLifeTime then .ok filters
    else do
      let num ← ceilQuotient remainingTime.toNat e.rotationInterval
      if num > e.filtersNum then return filters
      addToFirst hash token num filters

def importLine (hash : HashCalls) (now : ℤ) (e : Engine) (filters : List BaseBloomFilter)
    (line : Str) : Except Fault (List BaseBloomFilter) :=
  match splitRecord line with
  | none => .ok filters
  | some (token, expTimeStr) => do
      let expTime ← stol expTimeStr
      importRecord hash now e filters token expTime

def importContent (hash : HashCalls) (now : ℤ) (e : Engine) (filters : List BaseBloomFilter)
    (content : Str) : Except Fault (List BaseBloomFilter) :=
  (getlines content).foldlM (importLine hash now e) filters

/-- The files one after the other; one that cannot be opened ends the import. -/
def importFiles (hash : HashCalls) (now : ℤ) (e : Engine) (dir : LogDir) :
    List Str → List BaseBloomFilter → Except Fault (List BaseBloomFilter)
  | [], filters => .ok filters
  | name :: names, filters =>
      match dir name with
      | none => .ok filters
      | some content => do
          let filters ← importContent hash now e filters content
          importFiles hash now e dir names filters

def recordOfLine (line : Str) : Option (Str × ℤ) :=
  match splitRecord line with
  | none => none
  | some (token, expTimeStr) =>
      match stol expTimeStr with
      | .ok expTime => some (token, expTime)
      | .error _ => none

lemma recordOfLine_eq_some {line token : Str} {expTime : ℤ}
    (h : recordOfLine line = some (token, expTime)) :
    ∃ expTimeStr, splitRecord line = some (token, expTimeStr) ∧ stol expTimeStr = .ok expTime := by
  unfold recordOfLine at h
  split at h
  · cases h
  · rename_i token' expTimeStr hsplit
    split at h
    · rename_i expTime' hstol
      cases h
      exact ⟨expTimeStr, hsplit, hstol⟩
    · cases h

/-- A line at which the import goes on: it holds no record, or `stol` reads its expiry. -/
def Parses (line : Str) : Prop :=
  splitRecord line = none ∨ ∃ record, recordOfLine line = some record

instance (line : Str) : Decidable (Parses line) :=
  decidable_of_iff (splitRecord line = none ∨ (recordOfLine line).isSome) (by
    rw [Parses, Option.isSome_iff_exists])

def linesOf (dir : LogDir) (name : Str) : List Str := getlines ((dir name).getD [])

def recordsOf (dir : LogDir) (names : List Str) : List (Str × ℤ) :=
  names.flatMap fun name => (linesOf dir name).filterMap recordOfLine

/-- A record loaded at `now` counts as a revocation at `now`. -/
def loadOps (now : ℤ) (records : List (Str × ℤ)) : List Engine.Op :=
  records.map fun r => .revokeJwt r.1 r.2 now

/-- A text of ended lines. -/
def EndsLine (content : Str) : Prop := content = [] ∨ ∃ s, content = s ++ ['\n']

lemma EndsLine.getlines_append {content : Str} (h : EndsLine content) (rest : Str) :
    getlines (content ++ rest) = getlines content ++ getlines rest := by
  rcases h with rfl | ⟨s, rfl⟩
  · simp [getlines]
  · rw [List.append_assoc]
    exact JwtRevoker.getlines_append s rest

lemma hourlyTimestamp_mono (utcOffset : ℤ) : Monotone (hourlyTimestamp utcOffset) := by
  intro s t hst
  have hdiv := Int.ediv_le_ediv (show (0 : ℤ) < 3600 by decide)
    (show s + utcOffset ≤ t + utcOffset by omega)
  unfold hourlyTimestamp
  omega

lemma logFileName_injective : Function.Injective logFileName := by
  intro a b hab
  exact Numeral.writeInt_injective (List.append_cancel_right hab)

lemma hourlyTimestamp_spec (utcOffset now : ℤ) :
    ∃ hour, hourlyTimestamp utcOffset now = 3600 * hour - utcOffset ∧
      3600 * hour - utcOffset ≤ now ∧ now < 3600 * hour - utcOffset + 3600 := by
  refine ⟨(now + utcOffset) / 3600, ?_, ?_, ?_⟩
  · rw [hourlyTimestamp]; omega
  · omega
  · omega

/-- An hour file is among the visited ones exactly when it is at most 23 hours old. -/
theorem logFileName_mem_hourFiles {utcOffset now s : ℤ} (hs : s ≤ now) :
    logFileName (hourlyTimestamp utcOffset s) ∈ hourFiles utcOffset now ↔
      hourlyTimestamp utcOffset now - hourlyTimestamp utcOffset s ≤ 23 * 3600 := by
  obtain ⟨h, hh, hlo, hhi⟩ := hourlyTimestamp_spec utcOffset now
  obtain ⟨h', hh', hlo', hhi'⟩ := hourlyTimestamp_spec utcOffset s
  rw [hourFiles, List.mem_map]
  constructor
  · rintro ⟨i, hi, he⟩
    have := logFileName_injective he
    have := List.mem_range.mp hi
    omega
  · intro hle
    refine ⟨(h - h').toNat, List.mem_range.mpr (by omega), congrArg logFileName ?_⟩
    omega

lemma mem_lookForHourFiles {utcOffset now : ℤ} {dir : LogDir} {name : Str} :
    name ∈ lookForHourFiles utcOffset now dir ↔
      name ∈ hourFiles utcOffset now ∧ (dir name).isSome := by
  simp [lookForHourFiles]

lemma deleteOthers_of_mem {foundFiles : List Str} {dir : LogDir} {name : Str}
    (h : name ∈ foundFiles) : deleteOthers foundFiles dir name = dir name := if_pos h

lemma deleteOthers_of_notMem {foundFiles : List Str} {dir : LogDir} {name : Str}
    (h : name ∉ foundFiles) : deleteOthers foundFiles dir name = none := if_neg h

lemma splitRecord_logRecord {token : Str} (ht : ',' ∉ token) (expTime : ℤ) :
    splitRecord (logRecord token expTime) = some (token, stdToString expTime) := by
  have htw : (logRecord token expTime).takeWhile (· != ',') = token := by
    rw [logRecord, List.takeWhile_append_of_pos (fun c hc => by
      simpa using fun h : c = ',' => ht (h ▸ hc))]
    simp
  have hdw : (logRecord token expTime).dropWhile (· != ',') = ',' :: stdToString expTime := by
    rw [logRecord, List.dropWhile_append_of_pos (fun c hc => by
      simpa using fun h : c = ',' => ht (h ▸ hc))]
    simp
  unfold splitRecord
  rw [hdw, htw]
  cases hs : stdToString expTime with
  | nil => exact absurd hs (Numeral.writeInt_ne_nil expTime)
  | cons c cs => rfl

lemma recordOfLine_logRecord {token : Str} (ht : ',' ∉ token) {expTime : ℤ}
    (he : InLong expTime) : recordOfLine (logRecord token expTime) = some (token, expTime) := by
  have hp : stol (stdToString expTime) = .ok expTime := stoSigned_stdToString he
  simp only [recordOfLine, splitRecord_logRecord ht, hp]

lemma parses_logRecord {token : Str} (ht : ',' ∉ token) {expTime : ℤ} (he : InLong expTime) :
    Parses (logRecord token expTime) :=
  .inr ⟨_, recordOfLine_logRecord ht he⟩

lemma newline_notMem_logRecord {token : Str} (ht : '\n' ∉ token) (expTime : ℤ) :
    '\n' ∉ logRecord token expTime := by
  intro h
  rcases List.mem_append.mp h with h | h
  · exact ht h
  · rcases List.mem_cons.mp h with h | h
    · exact absurd h (by decide)
    · rcases Numeral.mem_writeInt h with h | h <;> exact absurd h (by decide)

/-- An append adds its lines to its own file and leaves the others alone. -/
theorem linesOf_writeLog {dir : LogDir} (hd : ∀ name, EndsLine ((dir name).getD []))
    (utcOffset now : ℤ) (msg name : Str) :
    linesOf (writeLog utcOffset now dir msg) name = linesOf dir name ++
      if name = logFileName (hourlyTimestamp utcOffset now) then getlines (msg ++ ['\n'])
      else [] := by
  unfold linesOf writeLog
  split_ifs with hn
  · rw [hn, Function.update_self, Option.getD_some, (hd _).getlines_append]
  · rw [Function.update_of_ne hn, List.append_nil]

lemma getlines_record {msg : Str} (hm : '\n' ∉ msg) : getlines (msg ++ ['\n']) = [msg] := by
  rw [getlines_append_newline hm]
  rfl

lemma writeLog_isSome {dir : LogDir} {name : Str} (h : (dir name).isSome) (utcOffset now : ℤ)
    (msg : Str) : (writeLog utcOffset now dir msg name).isSome := by
  unfold writeLog
  by_cases hn : name = logFileName (hourlyTimestamp utcOffset now)
  · rw [hn, Function.update_self]
    rfl
  · rwa [Function.update_of_ne hn]

lemma endsLine_writeLog {dir : LogDir} (hd : ∀ name, EndsLine ((dir name).getD []))
    (utcOffset now : ℤ) (msg name : Str) :
    EndsLine ((writeLog utcOffset now dir msg name).getD []) := by
  unfold writeLog
  by_cases hn : name = logFileName (hourlyTimestamp utcOffset now)
  · rw [hn, Function.update_self, Option.getD_some]
    exact .inr ⟨_, (List.append_assoc ..).symm⟩
  · rw [Function.update_of_ne hn]
    exact hd name

/-- What importing one record does to the filters of an engine in shape. -/
theorem importRecord_eq {e : Engine} (h : e.Shaped) (hash : HashCalls) (now : ℤ) (token : Str)
    (expTime : ℤ) :
    importRecord hash now e e.filters token expTime =
      (e.revokeJwt hash now token expTime).map Engine.filters := by
  unfold importRecord Engine.revokeJwt
  by_cases h0 : expTime < now
  · have h1 : expTime - now ≤ 0 := by omega
    simp only [h0, h1, if_true]
    rfl
  · rw [if_neg h0]
    dsimp only
    split_ifs with h1 h2
    · rfl
    · rfl
    · rw [ceilQuotient_of_pos h.interval_pos]
      change (if _ then _ else _) = Except.map _ (if _ then _ else _)
      split_ifs with h3
      · rfl
      · change _ = Except.map _ (addToFirst _ _ _ _ >>= _)
        cases addToFirst hash token ((expTime - now).toNat / e.rotationInterval) e.filters <;> rfl

end JwtRevoker
