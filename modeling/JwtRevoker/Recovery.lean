import JwtRevoker.Queries
import JwtRevoker.WindowShape

/-!
# Recovery after a restart

The log directory that `logWorker` leaves, the import of its files into a new
window, and which of the records still alive come back: those whose hour file
is among the 24 that are visited. The visited hours are counted from the clock,
whatever the maximum lifetime is.
-/
namespace JwtRevoker

open EngineM Engine

/-- One append of `logWorker`: the record and the time it is written at. -/
structure LogEntry where
  time : ℤ
  token : Str
  expTime : ℤ
  deriving DecidableEq, Repr

namespace LogEntry

def file (utcOffset : ℤ) (r : LogEntry) : Str := logFileName (hourlyTimestamp utcOffset r.time)

def line (r : LogEntry) : Str := logRecord r.token r.expTime

/-- A token that fits a line of the log, and a time stamp of 64 bits. -/
structure Clean (r : LogEntry) : Prop where
  comma_notMem : ',' ∉ r.token
  newline_notMem : '\n' ∉ r.token
  inLong : InLong r.expTime

lemma Clean.newline_notMem_line {r : LogEntry} (h : r.Clean) : '\n' ∉ r.line :=
  newline_notMem_logRecord h.newline_notMem r.expTime

end LogEntry

def writeAll (utcOffset : ℤ) (entries : List LogEntry) : LogDir :=
  entries.foldl (fun dir r => writeLog utcOffset r.time dir r.line) fun _ => none

variable {hash : HashCalls} {utcOffset now : ℤ} {e : Engine} {entries : List LogEntry}

lemma endsLine_writeAll (utcOffset : ℤ) (entries : List LogEntry) (name : Str) :
    EndsLine ((writeAll utcOffset entries name).getD []) := by
  induction entries using List.reverseRecOn generalizing name with
  | nil => exact .inl rfl
  | append_singleton entries r ih =>
    rw [writeAll, List.foldl_append]
    exact endsLine_writeLog ih utcOffset r.time r.line name

lemma linesOf_writeAll (hc : ∀ r ∈ entries, r.Clean) (name : Str) :
    linesOf (writeAll utcOffset entries) name =
      (entries.filter fun r => r.file utcOffset = name).map LogEntry.line := by
  induction entries using List.reverseRecOn with
  | nil => rfl
  | append_singleton entries r ih =>
    have hr := hc r (List.mem_append_right _ List.mem_cons_self)
    have hw : writeAll utcOffset (entries ++ [r]) =
        writeLog utcOffset r.time (writeAll utcOffset entries) r.line := by
      rw [writeAll, List.foldl_append]
      rfl
    rw [hw, linesOf_writeLog (endsLine_writeAll utcOffset entries),
      getlines_record hr.newline_notMem_line, ih fun r' h => hc r' (List.mem_append_left _ h),
      List.filter_append, List.map_append]
    change (_ ++ if name = r.file utcOffset then [r.line] else []) = _
    by_cases hn : r.file utcOffset = name
    · rw [if_pos hn.symm]
      simp [hn]
    · rw [if_neg (Ne.symm hn)]
      simp [hn]

lemma writeAll_isSome (utcOffset : ℤ) {r : LogEntry} (hr : r ∈ entries) :
    (writeAll utcOffset entries (r.file utcOffset)).isSome := by
  induction entries using List.reverseRecOn with
  | nil => cases hr
  | append_singleton entries r' ih =>
    rw [writeAll, List.foldl_append]
    change (writeLog utcOffset r'.time (writeAll utcOffset entries) r'.line _).isSome
    rcases List.mem_append.mp hr with h | h
    · exact writeLog_isSome (ih h) utcOffset r'.time r'.line
    · rw [List.mem_singleton.mp h, LogEntry.file, writeLog, Function.update_self]
      rfl

lemma mem_recordsOf_writeAll (hc : ∀ r ∈ entries, r.Clean) {r : LogEntry} (hr : r ∈ entries)
    {names : List Str} (hn : r.file utcOffset ∈ names) :
    (r.token, r.expTime) ∈ recordsOf (writeAll utcOffset entries) names := by
  refine List.mem_flatMap.mpr ⟨_, hn, List.mem_filterMap.mpr ⟨r.line, ?_, ?_⟩⟩
  · rw [linesOf_writeAll hc]
    exact List.mem_map_of_mem (List.mem_filter.mpr ⟨hr, decide_eq_true rfl⟩)
  · exact recordOfLine_logRecord (hc r hr).comma_notMem (hc r hr).inLong

/-- A line that reads back as a record. -/
def IsRecordLine (line : Str) : Prop :=
  ∃ token expTime, ',' ∉ token ∧ InLong expTime ∧ line = logRecord token expTime

lemma IsRecordLine.parses {line : Str} (h : IsRecordLine line) : Parses line := by
  obtain ⟨token, expTime, hcomma, hlong, rfl⟩ := h
  exact parses_logRecord hcomma hlong

lemma isRecordLine_of_mem (hc : ∀ r ∈ entries, r.Clean) {name line : Str}
    (hm : line ∈ linesOf (writeAll utcOffset entries) name) : IsRecordLine line := by
  rw [linesOf_writeAll hc] at hm
  obtain ⟨r, hr, rfl⟩ := List.mem_map.mp hm
  have hclean := hc r (List.mem_filter.mp hr).1
  exact ⟨_, _, hclean.comma_notMem, hclean.inLong, rfl⟩

lemma visitedParse_writeAll (hc : ∀ r ∈ entries, r.Clean) (utcOffset now : ℤ) :
    VisitedParse utcOffset now (writeAll utcOffset entries) :=
  fun _ _ _ hm => (isRecordLine_of_mem hc hm).parses

/-- A clean log never stops the recovery. -/
theorem recoverFromLog_isOk (hash : HashCalls) (utcOffset now : ℤ) {p : Params}
    {filters : List BaseBloomFilter}
    (hp : 0 < p.rotationInterval.toNat)
    (hnew : getNewFilters (p.maxJwtLifeTime.toNat / p.rotationInterval.toNat)
      p.bloomFilterSize.toNat p.hashFunctionNum.toNat = .ok filters)
    (hc : ∀ r ∈ entries, r.Clean) (e : Engine) :
    ∃ filters' w', Returns (recoverFromLog hash utcOffset now filters)
        ⟨e.withParams p, writeAll utcOffset entries⟩ filters' w' ∧
      Built hash utcOffset now p ⟨e, writeAll utcOffset entries⟩
        ⟨{ e.withParams p with filters := filters' }, w'.logDir⟩ ∧
      w'.logDir = deleteOthers (lookForHourFiles utcOffset now (writeAll utcOffset entries))
        (writeAll utcOffset entries) := by
  have hs : Shaped { e.withParams p with filters := filters } :=
    ⟨hp, rfl, (getNewFilters_eq_ok hnew).1⟩
  obtain ⟨filters', hf⟩ := (importFound_isOk_iff hs hash utcOffset now _).mpr
    (visitedParse_writeAll hc utcOffset now)
  rw [importFiles_withFilters] at hf
  exact ⟨filters', _, recoverFromLog_returns.mpr ⟨rfl, hf⟩,
    ⟨hp, rfl, rfl, filters, hnew, hf⟩, rfl⟩

lemma rotations_loadOps (now : ℤ) (records : List (Str × ℤ)) :
    rotations (loadOps now records) = 0 := by
  induction records with
  | nil => rfl
  | cons r rs ih => exact ih

/-- Every record imported into new filters for a lifetime in the accepted range
is in the slots of that lifetime. -/
theorem contains_imported {fresh filters : List BaseBloomFilter} {dir : LogDir}
    {names : List Str} (hfresh : e.FreshFilters fresh) (hn : ∀ name ∈ names, (dir name).isSome)
    (hi : importFiles hash now e dir names fresh = .ok filters) {token : Str} {expTime : ℤ}
    (hm : (token, expTime) ∈ recordsOf dir names)
    (ha : 0 < expTime - now ∧ expTime - now ≤ e.maxJwtLifeTime) :
    ∀ f ∈ filters.take ((expTime - now).toNat / e.rotationInterval),
      f.contains hash token = true := by
  intro f hf
  obtain ⟨hs, -⟩ := importFiles_run hfresh.shaped hn ((importFiles_withFilters ..).trans hi)
  have hpos : 0 < e.filtersNum := by
    have hlen : filters.length = e.filtersNum := hs.length_filters
    rw [← hlen]
    exact List.length_pos_of_mem (List.mem_of_mem_take hf)
  obtain ⟨blank, hist⟩ := hfresh.import_hasHistory hpos hn hi
  refine hist.contains_of_survivors (fun i hslot => ?_) f hf
  obtain ⟨before, after, heq⟩ := List.append_of_mem hm
  rw [heq, loadOps, List.map_append, List.map_cons]
  refine mem_survivors_of_rotations ha ?_
  change ((i + rotations (loadOps now after) : ℕ) : ℤ) < _
  rw [rotations_loadOps, Nat.add_zero]
  exact (natCast_lt_ediv_iff ha.1 i).mpr hslot

lemma Engine.Built.contains_loaded {p : Params} {w w' : World}
    (h : Built hash utcOffset now p w w') {token : Str} {expTime : ℤ}
    (hm : (token, expTime) ∈ recordsOf w.logDir (lookForHourFiles utcOffset now w.logDir))
    (ha : 0 < expTime - now ∧ expTime - now ≤ p.maxJwtLifeTime.toNat) :
    ∀ f ∈ w'.engine.filters.take ((expTime - now).toNat / p.rotationInterval.toNat),
      f.contains hash token = true := by
  obtain ⟨filters, hnew, hi⟩ := h.filters_eq
  have hfresh : FreshFilters (w.engine.withParams p) filters := ⟨h.interval_pos, rfl, hnew⟩
  rw [h.logDir_eq] at hi
  refine contains_imported hfresh (isSome_deleteOthers utcOffset now w.logDir) hi ?_ ha
  rwa [recordsOf_deleteOthers]

/-- A record still alive when the recovery runs comes back, with its file kept,
exactly when the start of its hour is at most 23 hours before the start of the
current one. -/
theorem recovers_live_record_iff {p : Params} {filters : List BaseBloomFilter}
    (hp : 0 < p.rotationInterval.toNat)
    (hnew : getNewFilters (p.maxJwtLifeTime.toNat / p.rotationInterval.toNat)
      p.bloomFilterSize.toNat p.hashFunctionNum.toNat = .ok filters)
    (hc : ∀ r ∈ entries, r.Clean) (e : Engine) {r : LogEntry} (hr : r ∈ entries) {t₀ : ℤ}
    (ht₀ : t₀ ≤ r.time) (hacc : 0 < r.expTime - t₀ ∧ r.expTime - t₀ ≤ p.maxJwtLifeTime.toNat)
    (hs : r.time ≤ now) (hlive : now < r.expTime) :
    ∃ filters' w', Returns (recoverFromLog hash utcOffset now filters)
        ⟨e.withParams p, writeAll utcOffset entries⟩ filters' w' ∧
      ((w'.logDir (r.file utcOffset) = writeAll utcOffset entries (r.file utcOffset) ∧
          ∀ f ∈ filters'.take ((r.expTime - now).toNat / p.rotationInterval.toNat),
            f.contains hash r.token = true) ↔
        hourlyTimestamp utcOffset now - hourlyTimestamp utcOffset r.time ≤ 23 * 3600) := by
  obtain ⟨filters', w', hret, hbuilt, hdir⟩ :=
    recoverFromLog_isOk hash utcOffset now hp hnew hc e
  have hsome := writeAll_isSome utcOffset hr
  refine ⟨filters', w', hret, ?_⟩
  rw [← logFileName_mem_hourFiles hs, hdir]
  constructor
  · rintro ⟨hkept, -⟩
    by_contra hn
    have hnot : r.file utcOffset ∉ lookForHourFiles utcOffset now (writeAll utcOffset entries) :=
      fun h => hn (mem_lookForHourFiles.mp h).1
    rw [deleteOthers_of_notMem hnot] at hkept
    rw [← hkept] at hsome
    cases hsome
  · intro hvisited
    have hfound : r.file utcOffset ∈ lookForHourFiles utcOffset now (writeAll utcOffset entries) :=
      mem_lookForHourFiles.mpr ⟨hvisited, hsome⟩
    exact ⟨deleteOthers_of_mem hfound,
      hbuilt.contains_loaded (mem_recordsOf_writeAll hc hr hfound) ⟨by omega, by omega⟩⟩

theorem recovers_live_record_iff_next_hour :
    ∃ filters, getNewFilters (7200 / 1800) 8 1 = .ok filters ∧
      ∃ filters' w', Returns (recoverFromLog (fun _ key => key.length) 0 3700 filters)
          ⟨({} : Engine).withParams ⟨7200, 1800, 8, 1⟩, writeAll 0 [⟨10, "a", 7000⟩]⟩ filters' w' ∧
        ((w'.logDir (LogEntry.file 0 ⟨10, "a", 7000⟩) =
              writeAll 0 [⟨10, "a", 7000⟩] (LogEntry.file 0 ⟨10, "a", 7000⟩) ∧
            ∀ f ∈ filters'.take (((7000 : ℤ) - 3700).toNat / 1800),
              f.contains (fun _ key => key.length) "a" = true) ↔
          hourlyTimestamp 0 3700 - hourlyTimestamp 0 10 ≤ 23 * 3600) := by
  have hclean : ∀ r ∈ [(⟨10, "a", 7000⟩ : LogEntry)], r.Clean := by
    rintro _ h
    rw [List.mem_singleton.mp h]
    exact ⟨by decide, by decide, by decide⟩
  have hwritten : (10 : ℤ) ≤ (⟨10, "a", 7000⟩ : LogEntry).time := by decide
  exact ⟨_, rfl, recovers_live_record_iff (p := ⟨7200, 1800, 8, 1⟩) (by decide) rfl hclean {}
    List.mem_cons_self hwritten (by decide) (by decide) (by decide)⟩

/-- Revoked and written at 3599 for a full day; at 86400 the record has 3599 seconds to
live, its file lies 24 hours back and is deleted, and the first filter misses it. -/
theorem live_record_deleted :
    ∃ filters filters' w', getNewFilters (86400 / 1800) 8 1 = .ok filters ∧
      Returns (recoverFromLog (fun _ key => key.length) 0 86400 filters)
        ⟨({} : Engine).withParams ⟨86400, 1800, 8, 1⟩, writeAll 0 [⟨3599, "a", 89999⟩]⟩
        filters' w' ∧
      writeAll 0 [⟨3599, "a", 89999⟩] "0.txt" = some "a,89999\n" ∧ w'.logDir "0.txt" = none ∧
      ∀ f ∈ filters'.take ((89999 - 86400) / 1800),
        f.contains (fun _ key => key.length) "a" = false := by
  refine ⟨_, _, _, rfl, returns_of_ok rfl, ?_, ?_, ?_⟩
  · decide +kernel
  · decide +kernel
  · decide +kernel

/-- With a maximum lifetime of at most 23 hours and one second, the hour of a
record that is still alive is always among those visited. -/
theorem hour_visited_of_short_lifetime {m : ℕ} (hm : m ≤ 82801) {r : LogEntry} {t₀ : ℤ}
    (ht₀ : t₀ ≤ r.time) (hmax : r.expTime - t₀ ≤ m) (hlive : now < r.expTime) :
    hourlyTimestamp utcOffset now - hourlyTimestamp utcOffset r.time ≤ 23 * 3600 := by
  obtain ⟨h, hh, hlo, hhi⟩ := hourlyTimestamp_spec utcOffset now
  obtain ⟨h', hh', hlo', hhi'⟩ := hourlyTimestamp_spec utcOffset r.time
  omega

end JwtRevoker
