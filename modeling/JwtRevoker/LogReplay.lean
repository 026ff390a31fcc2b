import JwtRevoker.EngineInit

/-!
# Loading the log replays its records

An import that returns has made the same calls as `revokeJwt` once for each
record, in reading order and at the time of the load. With this the history of a
window covers what was loaded into it.
-/
namespace JwtRevoker

open Engine

variable {hash : HashCalls} {now utcOffset : ℤ} {e e' : Engine}

lemma Engine.run_append (hash : HashCalls) (e : Engine) (ops ops' : List Op) :
    e.run hash (ops ++ ops') = (e.run hash ops >>= fun e₁ => e₁.run hash ops') := by
  unfold Engine.run
  exact List.foldlM_append

lemma Engine.run_singleton {op : Op} (h : e.step hash op = .ok e') : e.run hash [op] = .ok e' := by
  rw [Engine.run, List.foldlM_cons, h]
  rfl

lemma Engine.Shaped.revokeJwt (h : e.Shaped) {token : Str} {expTime : ℤ}
    (hr : e.revokeJwt hash now token expTime = .ok e') :
    e'.Shaped ∧ e' = { e with filters := e'.filters } :=
  ⟨h.step (show e.step hash (.revokeJwt token expTime now) = .ok e' from hr), revokeJwt_frame hr⟩

/-- One line: no call when it holds no record, one revocation when it does. -/
theorem importLine_run (h : e.Shaped) {line : Str} {filters : List BaseBloomFilter}
    (hi : importLine hash now e e.filters line = .ok filters) :
    Shaped { e with filters := filters } ∧
      e.run hash (loadOps now (recordOfLine line).toList) = .ok { e with filters := filters } := by
  unfold importLine at hi
  unfold recordOfLine
  cases hs : splitRecord line with
  | none =>
    rw [hs] at hi
    cases hi
    exact ⟨h, rfl⟩
  | some record =>
    obtain ⟨token, expTimeStr⟩ := record
    rw [hs] at hi
    obtain ⟨expTime, hp, hi⟩ := bind_eq_ok.mp hi
    rw [importRecord_eq h] at hi
    cases hr : e.revokeJwt hash now token expTime with
    | error fault => rw [hr] at hi; cases hi
    | ok e₁ =>
      rw [hr] at hi
      cases hi
      obtain ⟨hshape, heq⟩ := h.revokeJwt hr
      rw [← heq]
      refine ⟨hshape, ?_⟩
      simp only [hp, Option.toList_some, loadOps, List.map_cons, List.map_nil, Engine.run,
        List.foldlM_cons, List.foldlM_nil, Engine.step, hr]
      rfl

lemma importLines_run {lines : List Str} (h : e.Shaped) {filters : List BaseBloomFilter}
    (hi : lines.foldlM (importLine hash now e) e.filters = .ok filters) :
    Shaped { e with filters := filters } ∧
      e.run hash (loadOps now (lines.filterMap recordOfLine)) =
        .ok { e with filters := filters } := by
  induction lines generalizing e with
  | nil =>
    cases hi
    exact ⟨h, rfl⟩
  | cons line lines ih =>
    rw [List.foldlM_cons] at hi
    obtain ⟨filters₁, h1, hi⟩ := bind_eq_ok.mp hi
    obtain ⟨hs₁, hr₁⟩ := importLine_run h h1
    -- Only the parameters of the engine are read, so the filters in between do not matter.
    obtain ⟨hs₂, hr₂⟩ := @ih { e with filters := filters₁ } hs₁ hi
    refine ⟨hs₂, ?_⟩
    have hl : loadOps now ((line :: lines).filterMap recordOfLine) =
        loadOps now (recordOfLine line).toList ++ loadOps now (lines.filterMap recordOfLine) := by
      cases hrec : recordOfLine line <;> simp [loadOps, hrec]
    rw [hl, Engine.run_append, hr₁]
    exact hr₂

lemma importFiles_withFilters (hash : HashCalls) (now : ℤ) (e : Engine) (dir : LogDir)
    (fs : List BaseBloomFilter) (names : List Str) (filters : List BaseBloomFilter) :
    importFiles hash now { e with filters := fs } dir names filters =
      importFiles hash now e dir names filters := by
  induction names generalizing filters with
  | nil => rfl
  | cons name names ih =>
    unfold importFiles
    simp only [ih]
    rfl

lemma importFiles_run {dir : LogDir} {names : List Str} (h : e.Shaped)
    (hn : ∀ name ∈ names, (dir name).isSome) {filters : List BaseBloomFilter}
    (hi : importFiles hash now e dir names e.filters = .ok filters) :
    Shaped { e with filters := filters } ∧
      e.run hash (loadOps now (recordsOf dir names)) = .ok { e with filters := filters } := by
  induction names generalizing e with
  | nil =>
    cases hi
    exact ⟨h, rfl⟩
  | cons name names ih =>
    obtain ⟨content, hc⟩ := Option.isSome_iff_exists.mp (hn name List.mem_cons_self)
    unfold importFiles at hi
    rw [hc] at hi
    obtain ⟨filters₁, h1, hi⟩ := bind_eq_ok.mp hi
    obtain ⟨hs₁, hr₁⟩ := importLines_run h h1
    obtain ⟨hs₂, hr₂⟩ := @ih { e with filters := filters₁ } hs₁
      (fun name hm => hn name (List.mem_cons_of_mem _ hm))
      ((importFiles_withFilters ..).trans hi)
    refine ⟨hs₂, ?_⟩
    have hl : loadOps now (recordsOf dir (name :: names)) =
        loadOps now ((getlines content).filterMap recordOfLine) ++
          loadOps now (recordsOf dir names) := by
      simp [loadOps, recordsOf, linesOf, hc]
    rw [hl, Engine.run_append, hr₁]
    exact hr₂

/-- On an engine in shape only `stol` can stop the import of a line. -/
theorem importLine_isOk_iff (h : e.Shaped) (hash : HashCalls) (now : ℤ) (line : Str) :
    (∃ filters, importLine hash now e e.filters line = .ok filters) ↔ Parses line := by
  unfold importLine Parses recordOfLine
  cases hs : splitRecord line with
  | none => simp
  | some record =>
    obtain ⟨token, expTimeStr⟩ := record
    cases hp : stol expTimeStr with
    | error fault => simp [hp, Bind.bind, Except.bind]
    | ok expTime =>
      simp only [hp, ok_bind, importRecord_eq h, revokeJwt_eq h]
      exact ⟨fun _ => .inr ⟨_, rfl⟩, fun _ => ⟨_, rfl⟩⟩

theorem importLines_isOk_iff (h : e.Shaped) (hash : HashCalls) (now : ℤ) (lines : List Str) :
    (∃ filters, lines.foldlM (importLine hash now e) e.filters = .ok filters) ↔
      ∀ line ∈ lines, Parses line := by
  induction lines generalizing e with
  | nil => simp [pure, Except.pure]
  | cons line lines ih =>
    simp only [List.foldlM_cons, bind_eq_ok, List.forall_mem_cons]
    rw [← importLine_isOk_iff h hash now]
    constructor
    · rintro ⟨filters, filters₁, h₁, hrest⟩
      exact ⟨⟨filters₁, h₁⟩,
        (@ih { e with filters := filters₁ } (importLine_run h h₁).1).mp ⟨filters, hrest⟩⟩
    · rintro ⟨⟨filters₁, h₁⟩, hall⟩
      obtain ⟨filters, hrest⟩ :=
        (@ih { e with filters := filters₁ } (importLine_run h h₁).1).mpr hall
      exact ⟨filters, filters₁, h₁, hrest⟩

/-- The import of files that can be opened goes through exactly when every line parses. -/
theorem importFiles_isOk_iff (h : e.Shaped) (hash : HashCalls) (now : ℤ) {dir : LogDir}
    {names : List Str} (hn : ∀ name ∈ names, (dir name).isSome) :
    (∃ filters, importFiles hash now e dir names e.filters = .ok filters) ↔
      ∀ name ∈ names, ∀ line ∈ linesOf dir name, Parses line := by
  induction names generalizing e with
  | nil => simp [importFiles]
  | cons name names ih =>
    obtain ⟨content, hc⟩ := Option.isSome_iff_exists.mp (hn name List.mem_cons_self)
    have hrest := fun name' hm => hn name' (List.mem_cons_of_mem name hm)
    have hlines : linesOf dir name = getlines content := by rw [linesOf, hc, Option.getD_some]
    simp only [importFiles, hc, bind_eq_ok, List.forall_mem_cons, hlines]
    rw [← importLines_isOk_iff h hash now]
    constructor
    · rintro ⟨filters, filters₁, h₁, hi⟩
      refine ⟨⟨filters₁, h₁⟩,
        (@ih { e with filters := filters₁ } (importLines_run h h₁).1 hrest).mp ⟨filters, ?_⟩⟩
      exact (importFiles_withFilters ..).trans hi
    · rintro ⟨⟨filters₁, h₁⟩, hall⟩
      obtain ⟨filters, hi⟩ :=
        (@ih { e with filters := filters₁ } (importLines_run h h₁).1 hrest).mpr hall
      exact ⟨filters, filters₁, h₁, (importFiles_withFilters ..).symm.trans hi⟩

/-- The operations a build from `dir` at `now` replays. -/
def loadedOps (utcOffset now : ℤ) (dir : LogDir) : List Op :=
  loadOps now (recordsOf dir (lookForHourFiles utcOffset now dir))

lemma recordsOf_deleteOthers (found : List Str) (dir : LogDir) :
    recordsOf (deleteOthers found dir) found = recordsOf dir found := by
  unfold recordsOf
  refine List.flatMap_congr fun name hname => ?_
  rw [linesOf, linesOf, deleteOthers_of_mem hname]

/-- The found files are still there when the others have been deleted. -/
lemma isSome_deleteOthers (utcOffset now : ℤ) (dir : LogDir) :
    ∀ name ∈ lookForHourFiles utcOffset now dir,
      (deleteOthers (lookForHourFiles utcOffset now dir) dir name).isSome := by
  intro name hname
  rw [deleteOthers_of_mem hname]
  exact (mem_lookForHourFiles.mp hname).2

/-- What a recovery needs of the log: every line of the files it visits parses. -/
def VisitedParse (utcOffset now : ℤ) (dir : LogDir) : Prop :=
  ∀ name ∈ lookForHourFiles utcOffset now dir, ∀ line ∈ linesOf dir name, Parses line

lemma visitedParse_empty (utcOffset now : ℤ) : VisitedParse utcOffset now fun _ => none := by
  intro name hname line hmem
  cases hmem

/-- The import of the visited files, the others deleted, goes through exactly when
their lines parse. -/
theorem importFound_isOk_iff (h : e.Shaped) (hash : HashCalls) (utcOffset now : ℤ)
    (dir : LogDir) :
    (∃ filters, importFiles hash now e (deleteOthers (lookForHourFiles utcOffset now dir) dir)
      (lookForHourFiles utcOffset now dir) e.filters = .ok filters) ↔
      VisitedParse utcOffset now dir := by
  rw [importFiles_isOk_iff h hash now (isSome_deleteOthers utcOffset now dir), VisitedParse]
  refine forall₂_congr fun name hn => ?_
  rw [linesOf, linesOf, deleteOthers_of_mem hn]

/-- A build that returns ran the loaded records as revocations on a new window. -/
theorem Engine.Built.run {p : Params} {w w' : World} (h : Built hash utcOffset now p w w') :
    ∃ filters,
      getNewFilters (p.maxJwtLifeTime.toNat / p.rotationInterval.toNat) p.bloomFilterSize.toNat
        p.hashFunctionNum.toNat = .ok filters ∧
      Shaped { w.engine.withParams p with filters := filters } ∧ w'.engine.Shaped ∧
      Engine.run hash { w.engine.withParams p with filters := filters }
        (loadedOps utcOffset now w.logDir) = .ok w'.engine := by
  obtain ⟨filters, hnew, hi⟩ := h.filters_eq
  have hshape : Shaped { w.engine.withParams p with filters := filters } :=
    ⟨h.interval_pos, rfl, (getNewFilters_eq_ok hnew).1⟩
  rw [h.logDir_eq] at hi
  obtain ⟨hs, hr⟩ := importFiles_run hshape (isSome_deleteOthers utcOffset now w.logDir)
    ((importFiles_withFilters ..).trans hi)
  rw [recordsOf_deleteOthers] at hr
  have he : { w.engine.withParams p with filters := w'.engine.filters } = w'.engine :=
    h.engine_eq.symm
  exact ⟨filters, hnew, hshape, he ▸ hs, he ▸ hr⟩

/-- `filters` are what `getNewFilters` makes for the stored parameters of `e`. -/
structure Engine.FreshFilters (e : Engine) (filters : List BaseBloomFilter) : Prop where
  interval_pos : 0 < e.rotationInterval
  filtersNum_eq : e.filtersNum = e.maxJwtLifeTime / e.rotationInterval
  new : getNewFilters e.filtersNum e.bloomFilterSize e.hashFunctionNum = .ok filters

lemma Engine.FreshFilters.shaped {filters : List BaseBloomFilter} (h : e.FreshFilters filters) :
    Shaped { e with filters := filters } :=
  ⟨h.interval_pos, h.filtersNum_eq, (getNewFilters_eq_ok h.new).1⟩

lemma Engine.FreshFilters.hasHistory {filters : List BaseBloomFilter}
    (h : e.FreshFilters filters) (hpos : 0 < e.filtersNum) :
    ∃ blank, HasHistory hash blank { e with filters := filters } [] := by
  obtain ⟨hlen, hall⟩ := getNewFilters_eq_ok h.new
  obtain ⟨blank, hmem⟩ := List.exists_mem_of_length_pos (hlen ▸ hpos)
  have hnew := h.new
  rw [getNewFilters_of_construct (hall blank hmem)] at hnew
  exact ⟨blank, h.interval_pos, h.filtersNum_eq, hpos, hall blank hmem,
    (Except.ok.inj hnew).symm⟩

/-- The history of new filters that files were imported into is the records of the files. -/
lemma Engine.FreshFilters.import_hasHistory {fresh filters : List BaseBloomFilter} {dir : LogDir}
    {names : List Str} (h : e.FreshFilters fresh) (hpos : 0 < e.filtersNum)
    (hn : ∀ name ∈ names, (dir name).isSome)
    (hi : importFiles hash now e dir names fresh = .ok filters) :
    ∃ blank, HasHistory hash blank { e with filters := filters }
      (loadOps now (recordsOf dir names)) := by
  obtain ⟨-, hr⟩ := importFiles_run h.shaped hn ((importFiles_withFilters ..).trans hi)
  obtain ⟨blank, hstart⟩ := @Engine.FreshFilters.hasHistory hash _ _ h hpos
  obtain ⟨_, -, hist⟩ := hstart.run hr
  exact ⟨blank, hist⟩

/-- With at least one filter, the history of the built window is what was loaded. -/
theorem Engine.Built.hasHistory {p : Params} {w w' : World}
    (h : Built hash utcOffset now p w w')
    (hp : p.rotationInterval.toNat ≤ p.maxJwtLifeTime.toNat) :
    ∃ blank, w'.engine.HasHistory hash blank (loadedOps utcOffset now w.logDir) := by
  obtain ⟨filters, hnew, hi⟩ := h.filters_eq
  have hfresh : FreshFilters (w.engine.withParams p) filters := ⟨h.interval_pos, rfl, hnew⟩
  rw [h.logDir_eq] at hi
  obtain ⟨blank, hist⟩ := hfresh.import_hasHistory (Nat.div_pos hp h.interval_pos)
    (isSome_deleteOthers utcOffset now w.logDir) hi
  rw [recordsOf_deleteOthers] at hist
  have he : { w.engine.withParams p with filters := w'.engine.filters } = w'.engine :=
    h.engine_eq.symm
  exact ⟨blank, he ▸ hist⟩

/-- After a run the history is what was loaded and then the run's operations. -/
theorem Engine.Built.history_run {p : Params} {w w' : World} {ops : List Op}
    (h : Built hash utcOffset now p w w')
    (hp : p.rotationInterval.toNat ≤ p.maxJwtLifeTime.toNat)
    (hr : w'.engine.run hash ops = .ok e) :
    ∃ blank, e.HasHistory hash blank (loadedOps utcOffset now w.logDir ++ ops) ∧
      e.HasParams p := by
  obtain ⟨blank, hist⟩ := h.hasHistory hp
  obtain ⟨filters, rfl, hist'⟩ := hist.run hr
  obtain ⟨hM, hR, hS, hK, hN⟩ := h.hasParams
  exact ⟨blank, hist', hM, hR, hS, hK, hN⟩

end JwtRevoker
