import JwtRevoker.Rebuild

/-!
# What a rebuild keeps

The invariant of one record over a run within its hour: it waits to be written
or is a line of the file of the hour, and once the files are read it is in the
new filters.
-/
namespace JwtRevoker

open EngineM Engine StepRuns

namespace Node

variable {hash : HashCalls} {utcOffset : ℤ} {n n' : Node} {a : Action} {line : Str}

/-- What each stage knows about the filters, the found files and the record `line`. -/
def StageHolds (hash : HashCalls) (line : Str) (n : Node) : Stage → Prop
  | .idle => True
  | .built filters => n.engine.FreshFilters filters
  | .looked filters foundFiles =>
      n.engine.FreshFilters filters ∧ ∀ name ∈ foundFiles, (n.logDir name).isSome
  | .deleted filters foundFiles =>
      n.engine.FreshFilters filters ∧ ∀ name ∈ foundFiles, (n.logDir name).isSome
  | .loaded filters =>
      ∀ token expTime, recordOfLine line = some (token, expTime) → n.Live line →
        ∀ f ∈ filters.take ((expTime - n.clock).toNat / n.engine.rotationInterval),
          f.contains hash token = true

/-- A step that leaves the parameters and the clock and removes no file. -/
theorem StageHolds.frame {stage : Stage} (h : StageHolds hash line n stage)
    {filters : List BaseBloomFilter} {queue : List Str}
    (he : n'.engine = { n.engine with filters := filters, logQueue := queue })
    (hclock : n'.clock = n.clock)
    (hdir : ∀ name, (n.logDir name).isSome → (n'.logDir name).isSome) :
    StageHolds hash line n' stage := by
  have hfresh : ∀ {fs}, n.engine.FreshFilters fs → n'.engine.FreshFilters fs := by
    intro fs hf
    rw [he]
    exact ⟨hf.interval_pos, hf.filtersNum_eq, hf.new⟩
  have hlive : n'.Live line ↔ n.Live line := by rw [Live, Live, hclock, he]
  cases stage with
  | idle => trivial
  | built fs => exact hfresh h
  | looked fs foundFiles => exact ⟨hfresh h.1, fun name hn => hdir name (h.2 name hn)⟩
  | deleted fs foundFiles => exact ⟨hfresh h.1, fun name hn => hdir name (h.2 name hn)⟩
  | loaded fs =>
    intro token expTime hr hl
    have hR : n'.engine.rotationInterval = n.engine.rotationInterval := by rw [he]
    rw [hclock, hR]
    exact h token expTime hr (hlive.mp hl)

lemma endsLine_steps (hd : ∀ name, EndsLine ((n.logDir name).getD []))
    (hs : Steps hash utcOffset n a n') (name : Str) : EndsLine ((n'.logDir name).getD []) := by
  cases hs with
  | tick => exact hd name
  | revokeJwt => exact hd name
  | adjust _ _ hf =>
    obtain ⟨-, rfl, -⟩ := newFilters_returns.mp hf
    exact hd name
  | lookForFiles => exact hd name
  | deleteFiles =>
    change EndsLine ((deleteOthers _ n.logDir name).getD [])
    unfold deleteOthers
    split_ifs
    · exact hd name
    · exact .inl rfl
  | loadFiles => exact hd name
  | swapFilters => exact hd name
  | takeRecord => exact hd name
  | appendRecord => exact endsLine_writeLog hd utcOffset n.clock _ name
  | rotate => exact hd name

lemma clock_le_of_steps (hs : Steps hash utcOffset n a n') : n.clock ≤ n'.clock := by
  cases hs with
  | tick => exact le_add_of_nonneg_right (Int.natCast_nonneg _)
  | _ => exact le_rfl

/-- A careful step keeps every line of the file of the hour. -/
theorem mem_linesOf_steps (hd : ∀ name, EndsLine ((n.logDir name).getD []))
    (hc : n.Careful utcOffset a) (hs : Steps hash utcOffset n a n')
    (hl : line ∈ linesOf n.logDir (n.hourFile utcOffset)) :
    line ∈ linesOf n'.logDir (n.hourFile utcOffset) := by
  cases hs with
  | tick => exact hl
  | revokeJwt => exact hl
  | adjust _ _ hf =>
    obtain ⟨-, rfl, -⟩ := newFilters_returns.mp hf
    exact hl
  | lookForFiles => exact hl
  | deleteFiles hstage =>
    rename_i filters foundFiles
    have hspared : n.SparesHourFile utcOffset foundFiles := hc foundFiles (by rw [hstage]; rfl)
    rcases hspared with hfound | hnone
    · change line ∈ linesOf (deleteOthers foundFiles n.logDir) _
      rwa [linesOf, deleteOthers_of_mem hfound]
    · rw [linesOf, hnone] at hl
      cases hl
  | loadFiles => exact hl
  | swapFilters => exact hl
  | takeRecord => exact hl
  | appendRecord =>
    change line ∈ linesOf (writeLog utcOffset n.clock n.logDir _) _
    rw [linesOf_writeLog hd]
    exact List.mem_append_left _ hl
  | rotate => exact hl

/-- The record is on its way to the file of the hour, or in it. -/
def Held (utcOffset : ℤ) (line : Str) (n : Node) : Prop :=
  line ∈ n.pending ∨ line ∈ linesOf n.logDir (n.hourFile utcOffset)

lemma held_steps (hd : ∀ name, EndsLine ((n.logDir name).getD []))
    (hc : n.Careful utcOffset a) (hs : Steps hash utcOffset n a n')
    (hhour : n'.hourFile utcOffset = n.hourFile utcOffset) (hline : '\n' ∉ line)
    (hheld : Held utcOffset line n) : Held utcOffset line n' := by
  rcases hheld with hp | hl
  · unfold Held
    rw [hhour]
    cases hs with
    | tick => exact .inl hp
    | revokeJwt _ hr =>
      rename_i data e _
      refine .inl ?_
      have hq : e.logQueue = n.engine.logQueue := by rw [revokeJwt_frame hr]
      change line ∈ n.hand.toList ++ (e.logQueue ++ _)
      rw [hq, ← List.append_assoc]
      exact List.mem_append_left _ hp
    | adjust _ _ hf =>
      obtain ⟨-, rfl, -⟩ := newFilters_returns.mp hf
      exact .inl hp
    | lookForFiles => exact .inl hp
    | deleteFiles => exact .inl hp
    | loadFiles => exact .inl hp
    | swapFilters => exact .inl hp
    | takeRecord hhand hqueue =>
      rename_i msg rest
      refine .inl ?_
      rw [pending, hhand, hqueue] at hp
      exact hp
    | appendRecord hhand =>
      rename_i msg
      rw [pending, hhand] at hp
      rcases List.mem_append.mp hp with hm | hq
      · refine .inr ?_
        obtain rfl := List.mem_singleton.mp hm
        change line ∈ linesOf (writeLog utcOffset n.clock n.logDir line) _
        rw [linesOf_writeLog hd, hourFile, if_pos rfl, getlines_record hline]
        exact List.mem_append_right _ List.mem_cons_self
      · exact .inl hq
    | rotate he =>
      obtain ⟨-, filter, -, rfl⟩ := rotateFilters_eq_ok he
      exact .inl hp
  · unfold Held
    rw [hhour]
    exact .inr (mem_linesOf_steps hd hc hs hl)

lemma stageHolds_steps (hheld : Held utcOffset line n) (hc : n.Careful utcOffset a)
    (hs : Steps hash utcOffset n a n') (h : StageHolds hash line n n.stage) :
    StageHolds hash line n' n'.stage := by
  cases hs with
  | tick hidle =>
    change StageHolds hash line _ n.stage
    rw [hidle]
    trivial
  | revokeJwt hidle =>
    change StageHolds hash line _ n.stage
    rw [hidle]
    trivial
  | adjust _ _ hf =>
    obtain ⟨hpos, rfl, hnew⟩ := newFilters_returns.mp hf
    exact ⟨hpos, rfl, hnew⟩
  | lookForFiles hstage =>
    rw [hstage] at h
    exact ⟨⟨h.interval_pos, h.filtersNum_eq, h.new⟩,
      fun name hn => (mem_lookForHourFiles.mp hn).2⟩
  | deleteFiles hstage =>
    rw [hstage] at h
    refine ⟨⟨h.1.interval_pos, h.1.filtersNum_eq, h.1.new⟩, ?_⟩
    intro name hn
    change (deleteOthers _ n.logDir name).isSome
    rw [deleteOthers_of_mem hn]
    exact h.2 name hn
  | loadFiles hstage hi =>
    rename_i filters filters' foundFiles
    rw [hstage] at h
    intro token expTime hrec hlive
    obtain ⟨hpending, hfile⟩ : n.ReadsLive utcOffset foundFiles :=
      hc foundFiles (by rw [hstage]; rfl)
    -- A live record is neither on its way nor in a file that was not found.
    have hl := hheld.resolve_left fun hp => hpending line hp hlive
    have hfound := hfile.resolve_right fun hnone => hnone line hl hlive
    have hm : (token, expTime) ∈ recordsOf n.logDir _ :=
      List.mem_flatMap.mpr ⟨_, hfound, List.mem_filterMap.mpr ⟨line, hl, hrec⟩⟩
    have ha : 0 < expTime - n.clock ∧ expTime - n.clock ≤ n.engine.maxJwtLifeTime := by
      change n.Live line at hlive
      rwa [Live, hrec] at hlive
    exact contains_imported h.1 h.2 hi hm ha
  | swapFilters => trivial
  | takeRecord => exact h.frame rfl rfl fun _ hn => hn
  | appendRecord => exact h.frame rfl rfl fun _ hn => writeLog_isSome hn utcOffset n.clock _
  | rotate he =>
    obtain ⟨-, filter, -, rfl⟩ := rotateFilters_eq_ok he
    exact h.frame rfl rfl fun _ hn => hn

/-- The invariant of the record `line` within the hour that starts at `hour`. -/
structure Keeps (hash : HashCalls) (utcOffset hour : ℤ) (line : Str) (n : Node) : Prop where
  hour_eq : hourlyTimestamp utcOffset n.clock = hour
  endsLine : ∀ name, EndsLine ((n.logDir name).getD [])
  held : Held utcOffset line n
  stageHolds : StageHolds hash line n n.stage

lemma Keeps.steps {hour : ℤ} (h : Keeps hash utcOffset hour line n) (hline : '\n' ∉ line)
    (hc : n.Careful utcOffset a) (hs : Steps hash utcOffset n a n')
    (hhour : hourlyTimestamp utcOffset n'.clock = hour) : Keeps hash utcOffset hour line n' := by
  have hfile : n'.hourFile utcOffset = n.hourFile utcOffset := by
    rw [hourFile, hourFile, hhour, h.hour_eq]
  exact ⟨hhour, endsLine_steps h.endsLine hs, held_steps h.endsLine hc hs hfile hline h.held,
    stageHolds_steps h.held hc hs h.stageHolds⟩

lemma clock_le_of_step (h : n.step hash utcOffset a = some n') : n.clock ≤ n'.clock :=
  clock_le_of_steps (steps_of_step h)

lemma hour_eq_of_between {s t u : ℤ} (hst : s ≤ t) (htu : t ≤ u)
    (h : hourlyTimestamp utcOffset u = hourlyTimestamp utcOffset s) :
    hourlyTimestamp utcOffset t = hourlyTimestamp utcOffset s :=
  le_antisymm ((hourlyTimestamp_mono utcOffset htu).trans h.le)
    (hourlyTimestamp_mono utcOffset hst)

/-- The invariant holds at the end of a careful run that ends in the hour. -/
theorem Keeps.run {hour : ℤ} {actions : List Action} (h : Keeps hash utcOffset hour line n)
    (hline : '\n' ∉ line) (hrun : StepRuns.run (step hash utcOffset) n actions = some n')
    (hc : AllSteps (step hash utcOffset) (Careful utcOffset) n actions)
    (hhour : hourlyTimestamp utcOffset n'.clock = hour) : Keeps hash utcOffset hour line n' := by
  have hmono : ∀ s a s', step hash utcOffset s a = some s' → s.clock ≤ s'.clock :=
    fun _ _ _ => clock_le_of_step
  refine inv_run_until hmono (fun s a s' hk ha hstep ht => ?_) h hc hrun (le_refl n'.clock)
  refine hk.steps hline ha (steps_of_step hstep) ?_
  rw [← hk.hour_eq]
  exact hour_eq_of_between (hmono _ _ _ hstep) ht (hhour.trans hk.hour_eq.symm)

/-- A rebuild that no other thread interrupts is a call of `adjustFiltersParam`. -/
theorem adjustFiltersParam_of_run {data : Data}
    (hrun : StepRuns.run (step hash utcOffset) n
      [.adjust data, .lookForFiles, .deleteFiles, .loadFiles, .swapFilters] = some n') :
    ∃ p, Scheduler.filterParams data = .ok p ∧
      Returns (adjustFiltersParam hash utcOffset n.clock p) ⟨n.engine, n.logDir⟩ ()
        ⟨n'.engine, n'.logDir⟩ := by
  obtain ⟨n₁, h₁, hrun⟩ := run_cons_eq_some.mp hrun
  obtain ⟨n₂, h₂, hrun⟩ := run_cons_eq_some.mp hrun
  obtain ⟨n₃, h₃, hrun⟩ := run_cons_eq_some.mp hrun
  obtain ⟨n₄, h₄, hrun⟩ := run_cons_eq_some.mp hrun
  obtain ⟨n₅, h₅, hrun⟩ := run_cons_eq_some.mp hrun
  cases hrun
  cases steps_of_step h₁ with
  | @adjust _ role p filters w _ hp hf =>
    obtain ⟨hpos, rfl, hnew⟩ := newFilters_returns.mp hf
    cases steps_of_step h₂ with
    | lookForFiles hs₂ =>
      cases hs₂
      cases steps_of_step h₃ with
      | deleteFiles hs₃ =>
        cases hs₃
        cases steps_of_step h₄ with
        | loadFiles hs₄ hi =>
          cases hs₄
          cases steps_of_step h₅ with
          | swapFilters hs₅ =>
            cases hs₅
            exact ⟨p, hp, adjustFiltersParam_returns.mpr ⟨hpos, rfl, rfl, filters, hnew, hi⟩⟩

lemma held_of_revokeJwt {data : Data}
    (h : n.step hash utcOffset (.revokeJwt data) = some n') :
    Held utcOffset (logRecord (Scheduler.revokeRequest data).1 (Scheduler.revokeRequest data).2)
      n' ∧ n'.stage = .idle := by
  cases steps_of_step h with
  | revokeJwt hidle _ =>
    exact ⟨.inl (List.mem_append_right _ (List.mem_append_right _ List.mem_cons_self)), hidle⟩

lemma endsLine_run {actions : List Action} (hd : ∀ name, EndsLine ((n.logDir name).getD []))
    (hrun : StepRuns.run (step hash utcOffset) n actions = some n')
    (hc : AllSteps (step hash utcOffset) (Careful utcOffset) n actions) :
    ∀ name, EndsLine ((n'.logDir name).getD []) :=
  inv_run (fun _ _ _ hd _ hs => endsLine_steps hd (steps_of_step hs)) hd hc hrun

lemma mem_linesOf_run {actions : List Action}
    (hd : ∀ name, EndsLine ((n.logDir name).getD []))
    (hl : line ∈ linesOf n.logDir (n.hourFile utcOffset))
    (hrun : StepRuns.run (step hash utcOffset) n actions = some n')
    (hc : AllSteps (step hash utcOffset) (Careful utcOffset) n actions)
    (hhour : hourlyTimestamp utcOffset n'.clock = hourlyTimestamp utcOffset n.clock) :
    line ∈ linesOf n'.logDir (n'.hourFile utcOffset) := by
  let Inv (m : Node) : Prop := (∀ name, EndsLine ((m.logDir name).getD [])) ∧
    hourlyTimestamp utcOffset m.clock = hourlyTimestamp utcOffset n.clock ∧
    line ∈ linesOf m.logDir (n.hourFile utcOffset)
  have hmono : ∀ s a s', step hash utcOffset s a = some s' → s.clock ≤ s'.clock :=
    fun _ _ _ => clock_le_of_step
  have hinv : Inv n' := by
    refine inv_run_until hmono (fun s a s' hk ha hstep ht => ?_) ⟨hd, rfl, hl⟩ hc hrun
      (le_refl n'.clock)
    obtain ⟨hends, hh, hmem⟩ := hk
    have hs := steps_of_step hstep
    have hfile : s.hourFile utcOffset = n.hourFile utcOffset := congrArg logFileName hh
    refine ⟨endsLine_steps hends hs, ?_, ?_⟩
    · rw [← hh]
      exact hour_eq_of_between (hmono _ _ _ hstep) ht (hhour.trans hh.symm)
    · rw [← hfile] at hmem ⊢
      exact mem_linesOf_steps hends ha hs hmem
  have hfile : n'.hourFile utcOffset = n.hourFile utcOffset := congrArg logFileName hhour
  rw [hfile]
  exact hinv.2.2

lemma contains_after_swap {data : Data} {after : List Action} {token : Str} {expTime : ℤ}
    (hd : ∀ name, EndsLine ((n.logDir name).getD []))
    (hrun : StepRuns.run (step hash utcOffset) n (.revokeJwt data :: (after ++ [.swapFilters])) =
      some n')
    (hc : AllSteps (step hash utcOffset) (Careful utcOffset) n
      (.revokeJwt data :: (after ++ [.swapFilters])))
    (hhour : hourlyTimestamp utcOffset n'.clock = hourlyTimestamp utcOffset n.clock)
    (hdata : Scheduler.revokeRequest data = (token, expTime)) (hcomma : ',' ∉ token)
    (hnewline : '\n' ∉ token)
    (hlive : 0 < expTime - n'.clock ∧ expTime - n'.clock ≤ n'.engine.maxJwtLifeTime) :
    ∀ f ∈ n'.engine.filters.take ((expTime - n'.clock).toNat / n'.engine.rotationInterval),
      f.contains hash token = true := by
  have hlong : InLong expTime := Scheduler.inLong_of_revokeRequest hdata
  have hmono : ∀ s a s', step hash utcOffset s a = some s' → s.clock ≤ s'.clock :=
    fun _ _ _ => clock_le_of_step
  obtain ⟨n₁, h₁, hrun⟩ := run_cons_eq_some.mp hrun
  obtain ⟨hc₀, hc⟩ := (allSteps_cons h₁).mp hc
  obtain ⟨n₂, h₂, hrun⟩ := run_append_eq_some.mp hrun
  obtain ⟨n₃, h₃, hrun⟩ := run_cons_eq_some.mp hrun
  cases hrun
  have hle₂ : n₂.clock ≤ n'.clock := hmono _ _ _ h₃
  have hle₁ : n₁.clock ≤ n₂.clock := time_le_of_run hmono h₂
  have hhour₁ := hour_eq_of_between (hmono _ _ _ h₁) (hle₁.trans hle₂) hhour
  have hhour₂ := hour_eq_of_between hle₁ hle₂ (hhour.trans hhour₁.symm)
  obtain ⟨hheld, hidle⟩ := held_of_revokeJwt h₁
  rw [hdata] at hheld
  have hk₁ : Keeps hash utcOffset (hourlyTimestamp utcOffset n₁.clock) (logRecord token expTime)
      n₁ := by
    refine ⟨rfl, endsLine_steps hd (steps_of_step h₁), hheld, ?_⟩
    rw [hidle]
    trivial
  have hk₂ := hk₁.run (newline_notMem_logRecord hnewline expTime) h₂
    (allSteps_left hc) hhour₂
  have hrec := recordOfLine_logRecord hcomma hlong
  cases steps_of_step h₃ with
  | swapFilters hstage =>
    have hload := hk₂.stageHolds
    rw [hstage] at hload
    refine hload token expTime hrec ?_
    rw [Live, hrec]
    exact hlive

/-- In every run within an hour whose rebuilds are careful, a token revoked before
the last swap is in the new filters for the rest of its lifetime, and what is in
the file of the hour stays in it. -/
theorem rebuild_keeps_revocations {actions : List Action}
    (hd : ∀ name, EndsLine ((n.logDir name).getD []))
    (hrun : StepRuns.run (step hash utcOffset) n actions = some n')
    (hc : AllSteps (step hash utcOffset) (Careful utcOffset) n actions)
    (hhour : hourlyTimestamp utcOffset n'.clock = hourlyTimestamp utcOffset n.clock) :
    (∀ before data after token expTime,
      actions = before ++ .revokeJwt data :: (after ++ [.swapFilters]) →
      Scheduler.revokeRequest data = (token, expTime) → ',' ∉ token → '\n' ∉ token →
      0 < expTime - n'.clock → expTime - n'.clock ≤ n'.engine.maxJwtLifeTime →
      ∀ f ∈ n'.engine.filters.take ((expTime - n'.clock).toNat / n'.engine.rotationInterval),
        f.contains hash token = true) ∧
    (∀ before after n₁, actions = before ++ after →
      StepRuns.run (step hash utcOffset) n before = some n₁ →
      ∀ line ∈ linesOf n₁.logDir (n₁.hourFile utcOffset),
        line ∈ linesOf n'.logDir (n'.hourFile utcOffset)) := by
  have hmono : ∀ s a s', step hash utcOffset s a = some s' → s.clock ≤ s'.clock :=
    fun _ _ _ => clock_le_of_step
  constructor
  · rintro before data after token expTime rfl hdata hcomma hnewline hpos hmax
    obtain ⟨n₁, h₁, hrun⟩ := run_append_eq_some.mp hrun
    have hhour₁ := hour_eq_of_between (time_le_of_run hmono h₁) (time_le_of_run hmono hrun) hhour
    exact contains_after_swap (endsLine_run hd h₁ (allSteps_left hc)) hrun
      ((allSteps_append h₁).mp hc).2 (hhour.trans hhour₁.symm) hdata hcomma hnewline ⟨hpos, hmax⟩
  · rintro before after n₁ rfl h₁ line hl
    obtain ⟨n₁', h₁', hrun⟩ := run_append_eq_some.mp hrun
    obtain rfl := Option.some.inj (h₁.symm.trans h₁')
    have hhour₁ := hour_eq_of_between (time_le_of_run hmono h₁) (time_le_of_run hmono hrun) hhour
    exact mem_linesOf_run (endsLine_run hd h₁ (allSteps_left hc)) hl hrun
      ((allSteps_append h₁).mp hc).2 (hhour.trans hhour₁.symm)

def sampleRevocation : Data :=
  (AList.insert ("token" : Str) ("a" : Str) ∅).insert ("exp_time" : Str) "25"

def sampleAdjustment : Data :=
  ((((AList.insert ("node_role" : Str) ("single_node" : Str) ∅).insert
    ("max_jwt_life_time" : Str) "30").insert ("rotation_interval" : Str) "10").insert
    ("bloom_filter_size" : Str) "8").insert ("hash_function_num" : Str) "1"

/-- A node just started on an empty log directory. -/
def sampleNode : Node where
  engine := (init (fun _ key => key.length) 0 0 ⟨30, 10, 8, 1⟩ ⟨{}, fun _ => none⟩).2.engine
  logDir := fun _ => none
  clock := 0

theorem rebuild_keeps_revocations_written_before :
    ∃ n', StepRuns.run (step (fun _ key => key.length) 0) sampleNode
        (.revokeJwt sampleRevocation :: ([.takeRecord, .appendRecord,
          .adjust sampleAdjustment, .lookForFiles, .deleteFiles, .loadFiles] ++ [.swapFilters])) =
        some n' ∧
      ∀ f ∈ n'.engine.filters.take (((25 : ℤ) - n'.clock).toNat / n'.engine.rotationInterval),
        f.contains (fun _ key => key.length) "a" = true := by
  have hc : AllSteps (step (fun _ key => key.length) 0) (Careful 0) sampleNode
      (.revokeJwt sampleRevocation :: ([.takeRecord, .appendRecord,
        .adjust sampleAdjustment, .lookForFiles, .deleteFiles, .loadFiles] ++ [.swapFilters])) := by
    decide +kernel
  have hdata : Scheduler.revokeRequest sampleRevocation = ("a".toList, 25) := by decide +kernel
  have hrun : StepRuns.run (step (fun _ key => key.length) 0) sampleNode
      (.revokeJwt sampleRevocation :: ([.takeRecord, .appendRecord,
        .adjust sampleAdjustment, .lookForFiles, .deleteFiles, .loadFiles] ++ [.swapFilters])) =
      some _ := rfl
  exact ⟨_, hrun, (rebuild_keeps_revocations (fun _ => .inl rfl) hrun hc rfl).1 []
    sampleRevocation _ "a" 25 rfl hdata (by decide) (by decide) (by decide) (by decide)⟩

/-- The record is written between the look-up and the deletion: its file is deleted
and the new filters do not have the token. -/
theorem record_written_during_rebuild_lost :
    ∃ n₁ n', StepRuns.run (step (fun _ key => key.length) 0) sampleNode
        [.revokeJwt sampleRevocation, .adjust sampleAdjustment, .lookForFiles, .takeRecord,
          .appendRecord] = some n₁ ∧
      StepRuns.run (step (fun _ key => key.length) 0) n₁ [.deleteFiles, .loadFiles, .swapFilters] =
        some n' ∧
      Scheduler.revokeRequest sampleRevocation = ("a".toList, 25) ∧ n'.clock = 0 ∧
      linesOf n₁.logDir (n₁.hourFile 0) = [("a,25" : Str)] ∧
      linesOf n'.logDir (n'.hourFile 0) = [] ∧
      ∀ f ∈ n'.engine.filters.take ((25 - 0) / 10),
        f.contains (fun _ key => key.length) "a" = false := by
  refine ⟨_, _, rfl, rfl, ?_, rfl, ?_, ?_, ?_⟩
  · decide +kernel
  · decide +kernel
  · decide +kernel
  · decide +kernel

end Node

end JwtRevoker
