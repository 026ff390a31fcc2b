import JwtRevoker.Recovery

/-!
# What a rebuild takes from the log

A rebuild reads the visited hour files and nothing else: neither the engine before it
nor another file makes a difference, and a second rebuild at once changes nothing.
Whether a file is visited depends on the offset of local time when it was written and
when it is read.
-/
namespace JwtRevoker

open EngineM Engine

namespace Engine

/-- The import takes from the engine its parameters only. -/
lemma importRecord_congr {e₁ e₂ : Engine} (hM : e₁.maxJwtLifeTime = e₂.maxJwtLifeTime)
    (hR : e₁.rotationInterval = e₂.rotationInterval) (hN : e₁.filtersNum = e₂.filtersNum)
    (hash : HashCalls) (now : ℤ) (filters : List BaseBloomFilter) (token : Str) (expTime : ℤ) :
    importRecord hash now e₁ filters token expTime =
      importRecord hash now e₂ filters token expTime := by
  simp only [importRecord, hM, hR, hN]

lemma importFiles_congr {e₁ e₂ : Engine} (hM : e₁.maxJwtLifeTime = e₂.maxJwtLifeTime)
    (hR : e₁.rotationInterval = e₂.rotationInterval) (hN : e₁.filtersNum = e₂.filtersNum)
    (hash : HashCalls) (now : ℤ) {dir₁ dir₂ : LogDir} {names : List Str}
    (hdir : ∀ name ∈ names, dir₁ name = dir₂ name) (filters : List BaseBloomFilter) :
    importFiles hash now e₁ dir₁ names filters = importFiles hash now e₂ dir₂ names filters := by
  have hline : importLine hash now e₁ = importLine hash now e₂ := by
    funext filters line
    simp only [importLine, importRecord_congr hM hR hN]
  induction names generalizing filters with
  | nil => rfl
  | cons name names ih =>
    rw [List.forall_mem_cons] at hdir
    simp only [importFiles, importContent, hdir.1, hline, ih hdir.2]

end Engine

variable {hash : HashCalls} {utcOffset now : ℤ} {p : Params} {w w' v : World} {dir dir' : LogDir}

lemma lookForHourFiles_congr (hsame : ∀ name ∈ hourFiles utcOffset now, dir' name = dir name) :
    lookForHourFiles utcOffset now dir' = lookForHourFiles utcOffset now dir := by
  apply List.filter_congr
  intro name hname
  rw [hsame name hname]

lemma deleteOthers_congr {names : List Str} (hsame : ∀ name ∈ names, dir' name = dir name) :
    deleteOthers names dir' = deleteOthers names dir := by
  funext name
  by_cases hname : name ∈ names
  · rw [deleteOthers_of_mem hname, deleteOthers_of_mem hname, hsame name hname]
  · rw [deleteOthers_of_notMem hname, deleteOthers_of_notMem hname]

/-- A rebuild is determined by the visited files: from any engine and next to any other
files it gives the same parameters, filters and log directory, and done again at once it
changes nothing. -/
theorem rebuild_of_visited (h : Returns (adjustFiltersParam hash utcOffset now p) w () w') :
    (∀ v : World, (∀ name ∈ hourFiles utcOffset now, v.logDir name = w.logDir name) →
      Returns (adjustFiltersParam hash utcOffset now p) v ()
        ⟨{ w'.engine with logQueue := v.engine.logQueue }, w'.logDir⟩) ∧
    Returns (adjustFiltersParam hash utcOffset now p) w' () w' := by
  have hb := adjustFiltersParam_returns.mp h
  have hall (v : World) (hsame : ∀ name ∈ hourFiles utcOffset now, v.logDir name = w.logDir name) :
      Returns (adjustFiltersParam hash utcOffset now p) v ()
        ⟨{ w'.engine with logQueue := v.engine.logQueue }, w'.logDir⟩ := by
    have hlook := lookForHourFiles_congr hsame
    have hvisited : ∀ name ∈ lookForHourFiles utcOffset now w.logDir,
        v.logDir name = w.logDir name := fun name hname =>
      hsame name (mem_lookForHourFiles.mp hname).1
    obtain ⟨fresh, hnew, hi⟩ := hb.filters_eq
    refine adjustFiltersParam_returns.mpr ⟨hb.interval_pos, ?_, ?_, fresh, hnew, ?_⟩
    · rw [hlook, deleteOthers_congr hvisited]
      exact hb.logDir_eq
    · rw [hb.engine_eq]
      rfl
    · rw [hlook, ← hi]
      exact @importFiles_congr (v.engine.withParams p) (w.engine.withParams p) rfl rfl rfl hash now
        w'.logDir w'.logDir _ (fun _ _ => rfl) fresh
  refine ⟨hall, ?_⟩
  have hkept : ∀ name ∈ hourFiles utcOffset now, w'.logDir name = w.logDir name := by
    intro name hname
    rw [hb.logDir_eq]
    cases hfile : w.logDir name with
    | none =>
      apply deleteOthers_of_notMem
      rw [mem_lookForHourFiles, hfile]
      simp
    | some content =>
      rw [← hfile]
      apply deleteOthers_of_mem
      rw [mem_lookForHourFiles, hfile]
      simp [hname]
  exact hall w' hkept

theorem rebuild_of_visited_one_record :
    ∃ w', Returns (adjustFiltersParam (fun _ key => key.length) 0 3700 ⟨30, 10, 8, 1⟩)
        ⟨{}, writeAll 0 [⟨3690, "a", 3725⟩]⟩ () w' ∧
      (∀ v : World, (∀ name ∈ hourFiles 0 3700,
          v.logDir name = writeAll 0 [⟨3690, "a", 3725⟩] name) →
        Returns (adjustFiltersParam (fun _ key => key.length) 0 3700 ⟨30, 10, 8, 1⟩) v ()
          ⟨{ w'.engine with logQueue := v.engine.logQueue }, w'.logDir⟩) ∧
      Returns (adjustFiltersParam (fun _ key => key.length) 0 3700 ⟨30, 10, 8, 1⟩) w' () w' := by
  have hstore : 0 < (10 : UInt32).toNat := by decide
  have hclean : ∀ r ∈ [(⟨3690, "a", 3725⟩ : LogEntry)], r.Clean := by
    intro r hr
    rw [List.mem_singleton.mp hr]
    exact ⟨by decide, by decide, by decide⟩
  obtain ⟨filters, w₁, -, hb, -⟩ := recoverFromLog_isOk (p := ⟨30, 10, 8, 1⟩)
    (fun _ key => key.length) 0 3700 hstore rfl hclean {}
  have hreturns := (adjustFiltersParam_returns (u := ())).mpr hb
  exact ⟨_, hreturns, rebuild_of_visited hreturns⟩

/-- Local time at `offset` and at `offset'` has its full hours at the same moments. -/
def SameHours (offset offset' : ℤ) : Prop := (3600 : ℤ) ∣ offset - offset'

instance (offset offset' : ℤ) : Decidable (SameHours offset offset') := by
  unfold SameHours
  infer_instance

variable {offset offset' s : ℤ}

lemma SameHours.hourlyTimestamp_eq (h : SameHours offset offset') (s : ℤ) :
    hourlyTimestamp offset s = hourlyTimestamp offset' s := by
  obtain ⟨k, hk⟩ := h
  obtain ⟨hour, he, hlo, hhi⟩ := hourlyTimestamp_spec offset s
  obtain ⟨hour', he', hlo', hhi'⟩ := hourlyTimestamp_spec offset' s
  omega

/-- An hour file written at another offset is visited exactly when the hours are the same
and it is at most 23 hours old. -/
theorem hourFile_visited_iff (hs : s ≤ now) :
    logFileName (hourlyTimestamp offset s) ∈ hourFiles offset' now ↔
      SameHours offset offset' ∧
        hourlyTimestamp offset' now - hourlyTimestamp offset' s ≤ 23 * 3600 := by
  constructor
  · intro hmem
    have hsame : SameHours offset offset' := by
      obtain ⟨i, -, he⟩ := List.mem_map.mp hmem
      have hname := logFileName_injective he
      obtain ⟨hour, hh, -⟩ := hourlyTimestamp_spec offset s
      obtain ⟨hour', hh', -⟩ := hourlyTimestamp_spec offset' now
      exact ⟨hour - hour' + i, by omega⟩
    rw [hsame.hourlyTimestamp_eq s] at hmem
    exact ⟨hsame, (logFileName_mem_hourFiles hs).mp hmem⟩
  · rintro ⟨hsame, hle⟩
    rw [hsame.hourlyTimestamp_eq s]
    exact (logFileName_mem_hourFiles hs).mpr hle

/-- A rebuild at another offset of local time than that of the writing: an hour file is
kept exactly when the offsets differ by full hours and it is at most 23 hours old, and
then its live records are in the filters; otherwise it is deleted. -/
theorem hourFile_kept_iff {content : Str} (hs : s ≤ now)
    (hfile : w.logDir (logFileName (hourlyTimestamp offset s)) = some content)
    (h : Returns (adjustFiltersParam hash offset' now p) w () w') :
    (w'.logDir (logFileName (hourlyTimestamp offset s)) = some content ↔
      SameHours offset offset' ∧
        hourlyTimestamp offset' now - hourlyTimestamp offset' s ≤ 23 * 3600) ∧
    (w'.logDir (logFileName (hourlyTimestamp offset s)) = some content ∨
      w'.logDir (logFileName (hourlyTimestamp offset s)) = none) ∧
    (SameHours offset offset' →
      hourlyTimestamp offset' now - hourlyTimestamp offset' s ≤ 23 * 3600 →
      ∀ line ∈ getlines content, ∀ token expTime, recordOfLine line = some (token, expTime) →
        0 < expTime - now ∧ expTime - now ≤ p.maxJwtLifeTime.toNat →
        ∀ f ∈ w'.engine.filters.take ((expTime - now).toNat / p.rotationInterval.toNat),
          f.contains hash token = true) := by
  have hb := adjustFiltersParam_returns.mp h
  have hfound : logFileName (hourlyTimestamp offset s) ∈ lookForHourFiles offset' now w.logDir ↔
      SameHours offset offset' ∧
        hourlyTimestamp offset' now - hourlyTimestamp offset' s ≤ 23 * 3600 := by
    rw [mem_lookForHourFiles, hourFile_visited_iff hs, hfile]
    simp
  rw [hb.logDir_eq]
  refine ⟨?_, ?_, ?_⟩
  · rw [← hfound]
    by_cases hmem : logFileName (hourlyTimestamp offset s) ∈ lookForHourFiles offset' now w.logDir
    · simp [deleteOthers_of_mem hmem, hfile, hmem]
    · simp [deleteOthers_of_notMem hmem, hmem]
  · by_cases hmem : logFileName (hourlyTimestamp offset s) ∈ lookForHourFiles offset' now w.logDir
    · exact .inl ((deleteOthers_of_mem hmem).trans hfile)
    · exact .inr (deleteOthers_of_notMem hmem)
  · intro hsame hle line hline token expTime hrecord ha
    refine hb.contains_loaded ?_ ha
    rw [recordsOf, List.mem_flatMap]
    refine ⟨_, hfound.mpr ⟨hsame, hle⟩, List.mem_filterMap.mpr ⟨line, ?_, hrecord⟩⟩
    rw [linesOf, hfile]
    exact hline

/-- Written an hour before a change of the offset by half an hour. -/
theorem hourFile_kept_iff_half_hour :
    ∃ w', Returns (adjustFiltersParam (fun _ key => key.length) 1800 3700 ⟨30, 10, 8, 1⟩)
        ⟨{}, writeAll 0 [⟨100, "a", 3725⟩]⟩ () w' ∧
      writeAll 0 [⟨100, "a", 3725⟩] (logFileName (hourlyTimestamp 0 100)) = some "a,3725\n" ∧
      (w'.logDir (logFileName (hourlyTimestamp 0 100)) = some "a,3725\n" ↔
        SameHours 0 1800 ∧ hourlyTimestamp 1800 3700 - hourlyTimestamp 1800 100 ≤ 23 * 3600) ∧
      (w'.logDir (logFileName (hourlyTimestamp 0 100)) = some "a,3725\n" ∨
        w'.logDir (logFileName (hourlyTimestamp 0 100)) = none) ∧
      (SameHours 0 1800 → hourlyTimestamp 1800 3700 - hourlyTimestamp 1800 100 ≤ 23 * 3600 →
        ∀ line ∈ getlines "a,3725\n", ∀ token expTime, recordOfLine line = some (token, expTime) →
          0 < expTime - 3700 ∧ expTime - 3700 ≤ (30 : ℕ) →
          ∀ f ∈ w'.engine.filters.take ((expTime - 3700).toNat / 10),
            f.contains (fun _ key => key.length) token = true) := by
  have hreturns : Returns (adjustFiltersParam (fun _ key => key.length) 1800 3700 ⟨30, 10, 8, 1⟩)
      ⟨{}, writeAll 0 [⟨100, "a", 3725⟩]⟩ () _ := returns_of_ok (by decide +kernel)
  have hfile : writeAll 0 [⟨100, "a", 3725⟩] (logFileName (hourlyTimestamp 0 100)) =
      some "a,3725\n" := by
    decide +kernel
  exact ⟨_, hreturns, hfile, hourFile_kept_iff (by decide) hfile hreturns⟩

end JwtRevoker
