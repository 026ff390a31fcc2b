import JwtRevoker.Rebuild

/-!
# What is logged and what is read back

The records of the `revoke_jwt` messages on their way through the log queue into one
file, and the reading of that file up to the exception of `std::stol`. The format
has two separators and no escaping, so that the token decides.
-/
namespace JwtRevoker.LogRoundTrip

open StepRuns
open ThreadSafeQueue (queueDefaultMaxSize)

/-- The log side of a node: the queue, the record `logWorker` holds, the files. -/
structure Logger where
  logQueue : List Str := []
  hand : Option Str := none
  logDir : LogDir := fun _ => none

inductive Action
  | logRevoke (data : Data)
  | takeRecord
  | appendRecord (now : ℤ)

/-- Every role logs the revocation; `enqueue` waits while the queue is full. -/
def step (utcOffset : ℤ) (s : Logger) : Action → Option Logger
  | .logRevoke data =>
      let (token, expTime) := Scheduler.revokeRequest data
      if s.logQueue.length < queueDefaultMaxSize then
        some { s with logQueue := s.logQueue ++ [logRecord token expTime] }
      else none
  | .takeRecord =>
      match s.hand, s.logQueue with
      | none, msg :: rest => some { s with logQueue := rest, hand := some msg }
      | _, _ => none
  | .appendRecord now =>
      match s.hand with
      | some msg => some { s with logDir := writeLog utcOffset now s.logDir msg, hand := none }
      | none => none

/-- The pairs of token and expiry in the order of the messages. -/
def requests (actions : List Action) : List (Str × ℤ) :=
  actions.filterMap fun a =>
    match a with
    | .logRevoke data => some (Scheduler.revokeRequest data)
    | _ => none

def readRecord (line : Str) : Except Fault (Option (Str × ℤ)) :=
  match splitRecord line with
  | none => .ok none
  | some (token, expTimeStr) => do
      let expTime ← stol expTimeStr
      return some (token, expTime)

/-- What `recoverFromLog` reads of the lines of a file. -/
def readRecords : List Str → Except Fault (List (Str × ℤ))
  | [] => .ok []
  | line :: lines => do
      let record ← readRecord line
      let records ← readRecords lines
      return record.toList ++ records

/-- A token the format can carry. -/
def Clean (token : Str) : Prop := ',' ∉ token ∧ '\n' ∉ token

variable {utcOffset now : ℤ} {s s' : Logger} {a : Action} {actions : List Action}
  {records : List (Str × ℤ)} {line name : Str}

/-- The import of a line is its record read and then written into the filters. -/
lemma importLine_eq_readRecord (hash : HashCalls) (now : ℤ) (e : Engine)
    (filters : List BaseBloomFilter) (line : Str) :
    importLine hash now e filters line = (do
      match ← readRecord line with
      | none => return filters
      | some (token, expTime) => importRecord hash now e filters token expTime) := by
  unfold importLine readRecord
  cases splitRecord line with
  | none => rfl
  | some record =>
    obtain ⟨token, expTimeStr⟩ := record
    cases hp : stol expTimeStr <;> simp only [hp] <;> rfl

lemma readRecord_eq_ok {record : Option (Str × ℤ)} :
    readRecord line = .ok record ↔ Parses line ∧ recordOfLine line = record := by
  unfold readRecord Parses recordOfLine
  cases splitRecord line with
  | none => simp
  | some record =>
    obtain ⟨token, expTimeStr⟩ := record
    cases hp : stol expTimeStr <;> simp [hp, Bind.bind, Except.bind, pure, Except.pure]

lemma readRecords_eq_ok {lines : List Str} :
    readRecords lines = .ok records ↔
      (∀ line ∈ lines, Parses line) ∧ lines.filterMap recordOfLine = records := by
  induction lines generalizing records with
  | nil => simp [readRecords]
  | cons line lines ih =>
    simp only [readRecords, bind_eq_ok, readRecord_eq_ok, ih, List.forall_mem_cons]
    constructor
    · rintro ⟨_, ⟨hline, rfl⟩, _, ⟨hlines, rfl⟩, h⟩
      cases h
      refine ⟨⟨hline, hlines⟩, ?_⟩
      cases hrec : recordOfLine line <;> simp [hrec]
    · rintro ⟨⟨hline, hlines⟩, rfl⟩
      refine ⟨_, ⟨hline, rfl⟩, _, ⟨hlines, rfl⟩, ?_⟩
      cases hrec : recordOfLine line <;> simp [hrec, pure, Except.pure]

/-- On filters in shape an import raises exactly when reading the records does. -/
theorem importLines_isOk_iff_readRecords {e : Engine} (h : e.Shaped) (hash : HashCalls) (now : ℤ)
    (lines : List Str) :
    (∃ filters, lines.foldlM (importLine hash now e) e.filters = .ok filters) ↔
      ∃ records, readRecords lines = .ok records := by
  simp only [importLines_isOk_iff h hash now, readRecords_eq_ok, exists_and_left, exists_eq',
    and_true]

lemma newline_notMem_of_mem_getlines {content : Str} (h : line ∈ getlines content) :
    '\n' ∉ line := by
  induction content generalizing line with
  | nil => cases h
  | cons c cs ih =>
    simp only [getlines] at h
    split_ifs at h with hc
    · rcases List.mem_cons.mp h with rfl | h
      · exact List.not_mem_nil
      · exact ih h
    · split at h
      · rw [List.mem_singleton.mp h, List.mem_singleton]
        exact Ne.symm hc
      · rename_i hlines
        rcases List.mem_cons.mp h with rfl | h
        · rw [List.mem_cons, not_or]
          exact ⟨Ne.symm hc, ih (hlines ▸ List.mem_cons_self)⟩
        · exact ih (hlines ▸ List.mem_cons_of_mem _ h)

/-- Only clean tokens are ever read from a line. -/
lemma clean_of_recordOfLine {token : Str} {expTime : ℤ}
    (h : recordOfLine line = some (token, expTime)) (hline : '\n' ∉ line) : Clean token := by
  obtain ⟨expTimeStr, hsplit, -⟩ := recordOfLine_eq_some h
  have htoken : token = line.takeWhile (· != ',') := by
    unfold splitRecord at hsplit
    split at hsplit
    · cases hsplit
      rfl
    · cases hsplit
  rw [htoken]
  refine ⟨?_, fun hm => hline (List.takeWhile_subset _ hm)⟩
  intro hm
  simpa using List.mem_takeWhile_imp hm

/-- The lines of a file of ended records. -/
lemma getlines_flatMap {msgs : List Str} (h : ∀ msg ∈ msgs, '\n' ∉ msg) :
    getlines (msgs.flatMap (· ++ ['\n'])) = msgs := by
  induction msgs with
  | nil => rfl
  | cons msg msgs ih =>
    have ih := ih fun m hm => h m (List.mem_cons_of_mem _ hm)
    rw [List.flatMap_cons, List.append_assoc, List.singleton_append,
      getlines_append_newline (h msg List.mem_cons_self), ih]

/-- The format carries a sequence of records exactly when all tokens are clean. -/
theorem readRecords_logged_iff (hlong : ∀ r ∈ records, InLong r.2) :
    readRecords (getlines ((records.map fun r => logRecord r.1 r.2).flatMap (· ++ ['\n']))) =
        .ok records ↔
      ∀ r ∈ records, Clean r.1 := by
  rw [readRecords_eq_ok]
  constructor
  · rintro ⟨-, hread⟩ ⟨token, expTime⟩ hr
    rw [← hread] at hr
    obtain ⟨line, hline, hrec⟩ := List.mem_filterMap.mp hr
    exact clean_of_recordOfLine hrec (newline_notMem_of_mem_getlines hline)
  · intro hclean
    have hrec (r) (hr : r ∈ records) : recordOfLine (logRecord r.1 r.2) = some r :=
      recordOfLine_logRecord (hclean r hr).1 (hlong r hr)
    rw [getlines_flatMap]
    · refine ⟨?_, ?_⟩
      · intro line hm
        obtain ⟨r, hr, rfl⟩ := List.mem_map.mp hm
        exact .inr ⟨r, hrec r hr⟩
      · rw [List.filterMap_map]
        exact (List.filterMap_congr hrec).trans List.filterMap_some
    · intro msg hm
      obtain ⟨r, hr, rfl⟩ := List.mem_map.mp hm
      exact newline_notMem_logRecord (hclean r hr).2 r.2

/-- The records appended to the file, the one in hand and those queued are, in this
order, the records of the messages so far. -/
def Inv (name : Str) (handled : List (Str × ℤ)) (s : Logger) : Prop :=
  ∃ written : List Str, (s.logDir name).getD [] = written.flatMap (· ++ ['\n']) ∧
    written ++ (s.hand.toList ++ s.logQueue) = handled.map fun r => logRecord r.1 r.2

/-- Appends go to the file `name`. -/
def ToFile (utcOffset : ℤ) (name : Str) : Action → Prop
  | .appendRecord now => logFileName (hourlyTimestamp utcOffset now) = name
  | _ => True

instance (utcOffset : ℤ) (name : Str) (a : Action) : Decidable (ToFile utcOffset name a) := by
  cases a <;> unfold ToFile <;> infer_instance

lemma inv_step (hfile : ToFile utcOffset name a) (h : Inv name records s)
    (hs : step utcOffset s a = some s') : Inv name (records ++ requests [a]) s' := by
  obtain ⟨written, hcontent, hpending⟩ := h
  cases a with
  | logRevoke data =>
    simp only [step] at hs
    split_ifs at hs
    cases hs
    refine ⟨written, hcontent, ?_⟩
    rw [List.map_append, ← hpending]
    simp [requests]
  | takeRecord =>
    simp only [step] at hs
    split at hs
    · rename_i msg rest hhand hqueue
      cases hs
      refine ⟨written, hcontent, ?_⟩
      rw [hhand, hqueue] at hpending
      simpa [requests] using hpending
    · cases hs
  | appendRecord now =>
    simp only [step] at hs
    split at hs
    · rename_i msg hhand
      cases hs
      refine ⟨written ++ [msg], ?_, ?_⟩
      · rw [← (show logFileName (hourlyTimestamp utcOffset now) = name from hfile)] at hcontent ⊢
        simp only [writeLog, Function.update_self, Option.getD_some, hcontent]
        simp
      · rw [hhand] at hpending
        simpa [requests] using hpending
    · cases hs

lemma inv_run (hfile : ∀ a ∈ actions, ToFile utcOffset name a) (h : Inv name records s)
    (hrun : run (step utcOffset) s actions = some s') :
    Inv name (records ++ requests actions) s' := by
  induction actions generalizing s records with
  | nil =>
    cases hrun
    simpa [requests] using h
  | cons a actions ih =>
    obtain ⟨s₁, hs, hrun⟩ := run_cons_eq_some.mp hrun
    have h₁ := inv_step (hfile a List.mem_cons_self) h hs
    have hsplit : requests (a :: actions) = requests [a] ++ requests actions :=
      List.filterMap_append (l := [a])
    rw [hsplit, ← List.append_assoc]
    exact ih (fun a ha => hfile a (List.mem_cons_of_mem _ ha)) h₁ hrun

lemma inLong_of_mem_requests {r : Str × ℤ} (hr : r ∈ requests actions) : InLong r.2 := by
  obtain ⟨a, -, ha⟩ := List.mem_filterMap.mp hr
  cases a with
  | logRevoke data =>
    cases ha
    exact inLong_stringToTimestamp _
  | takeRecord | appendRecord => cases ha

/-- When everything is written, into one file, the file reads back as the messages that
were handled, in order and without an exception, exactly when no token has a comma or
a newline. -/
theorem reads_back_iff (hfile : ∀ a ∈ actions, ToFile utcOffset name a)
    (hrun : run (step utcOffset) {} actions = some s') (hhand : s'.hand = none)
    (hqueue : s'.logQueue = []) :
    readRecords (linesOf s'.logDir name) = .ok (requests actions) ↔
      ∀ r ∈ requests actions, Clean r.1 := by
  have hstart : Inv name [] {} := ⟨[], rfl, rfl⟩
  obtain ⟨written, hcontent, hpending⟩ := inv_run hfile hstart hrun
  rw [hhand, hqueue, Option.toList_none, List.append_nil, List.append_nil,
    List.nil_append] at hpending
  rw [linesOf, hcontent, hpending]
  exact readRecords_logged_iff fun r => inLong_of_mem_requests

/-- `revoke_jwt` messages. -/
def revocation (token expTime : String) : Data :=
  (AList.insert ("token" : Str) token ∅).insert ("exp_time" : Str) expTime

theorem reads_back_iff_two_records :
    ∃ s', run (step 0) {} [.logRevoke (revocation "a" "5"), .logRevoke (revocation "b" "7"),
        .takeRecord, .appendRecord 10, .takeRecord, .appendRecord 20] = some s' ∧
      (readRecords (linesOf s'.logDir "0.txt") = .ok (requests
          [.logRevoke (revocation "a" "5"), .logRevoke (revocation "b" "7"), .takeRecord,
            .appendRecord 10, .takeRecord, .appendRecord 20]) ↔
        ∀ r ∈ requests [.logRevoke (revocation "a" "5"), .logRevoke (revocation "b" "7"),
          .takeRecord, .appendRecord 10, .takeRecord, .appendRecord 20], Clean r.1) := by
  have hfile : ∀ a ∈ [.logRevoke (revocation "a" "5"), .logRevoke (revocation "b" "7"),
      .takeRecord, .appendRecord 10, .takeRecord, .appendRecord 20], ToFile 0 "0.txt" a := by
    decide +kernel
  exact ⟨_, rfl, reads_back_iff hfile rfl rfl rfl⟩

/-- One record with a comma in its token: the reading of the file ends with the
exception of `std::stol`. -/
theorem comma_stops_recovery :
    ∃ s', run (step 0) {} [.logRevoke (revocation "a,b" "5"), .takeRecord, .appendRecord 10] =
        some s' ∧ s'.hand = none ∧ s'.logQueue = [] ∧
      logFileName (hourlyTimestamp 0 10) = ("0.txt" : Str) ∧
      requests [.logRevoke (revocation "a,b" "5"), .takeRecord, .appendRecord 10] =
        [("a,b".toList, 5)] ∧
      readRecords (linesOf s'.logDir "0.txt") = .error (.invalidArgument "stol") := by
  refine ⟨_, rfl, rfl, rfl, ?_, ?_, ?_⟩
  · decide +kernel
  · decide +kernel
  · decide +kernel

end JwtRevoker.LogRoundTrip
