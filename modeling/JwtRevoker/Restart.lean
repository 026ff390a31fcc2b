import JwtRevoker.LogRoundTrip
import JwtRevoker.RebuildRuns
import JwtRevoker.Startup

/-!
# Restarts

A record that `logWorker` has appended outlives the process, wherever it stops. No later
rebuild deletes the file of a visited hour, and the next process has the record in force
before it serves.
-/
namespace JwtRevoker.Restart

open Engine EngineM StepRuns

variable {hash hash' : HashCalls} {utcOffset hour now : ℤ} {line : Str} {n n' : Node}
  {a : Action} {actions : List Action}

/-- As long as the hour is visited, the line is in its file, and a rebuild that has looked
for the files has found it. -/
structure Saved (utcOffset hour : ℤ) (line : Str) (n : Node) : Prop where
  endsLine : ∀ name, EndsLine ((n.logDir name).getD [])
  started : ∃ s ≤ n.clock, hourlyTimestamp utcOffset s = hour
  line : hourlyTimestamp utcOffset n.clock - hour ≤ 23 * 3600 →
    line ∈ linesOf n.logDir (logFileName hour)
  found : hourlyTimestamp utcOffset n.clock - hour ≤ 23 * 3600 →
    ∀ foundFiles ∈ n.stage.lookedFiles, logFileName hour ∈ foundFiles

lemma isSome_of_mem_linesOf {dir : LogDir} {name : Str} (h : line ∈ linesOf dir name) :
    (dir name).isSome := by
  cases hfile : dir name with
  | none =>
    rw [linesOf, hfile] at h
    cases h
  | some content => rfl

/-- A look at the directory finds the file of a visited hour that has a line. -/
lemma mem_lookForHourFiles_of_line {dir : LogDir}
    (hs : ∃ s ≤ now, hourlyTimestamp utcOffset s = hour)
    (hvisited : hourlyTimestamp utcOffset now - hour ≤ 23 * 3600)
    (hline : line ∈ linesOf dir (logFileName hour)) :
    logFileName hour ∈ lookForHourFiles utcOffset now dir := by
  obtain ⟨s, hle, rfl⟩ := hs
  exact mem_lookForHourFiles.mpr
    ⟨(logFileName_mem_hourFiles hle).mpr hvisited, isSome_of_mem_linesOf hline⟩

lemma Saved.step (h : Saved utcOffset hour line n) (hs : n.step hash utcOffset a = some n') :
    Saved utcOffset hour line n' := by
  have hsteps := Node.steps_of_step hs
  have hends := Node.endsLine_steps h.endsLine hsteps
  -- outside of a rebuild no file has been looked for
  have hnone : ∀ foundFiles ∈ (none : Option (List Str)), logFileName hour ∈ foundFiles :=
    fun foundFiles hfiles => (Option.not_mem_none foundFiles hfiles).elim
  cases hsteps with
  | @tick seconds hidle =>
    have hle : n.clock ≤ n.clock + seconds := by omega
    have hmono := hourlyTimestamp_mono utcOffset hle
    obtain ⟨s, hs, hour_eq⟩ := h.started
    refine ⟨hends, ⟨s, hs.trans hle, hour_eq⟩, fun hv => h.line ?_, fun hv => h.found ?_⟩
    · dsimp only at hv
      omega
    · dsimp only at hv
      omega
  | revokeJwt hidle => exact ⟨hends, h.started, h.line, h.found⟩
  | adjust _ _ hf =>
    obtain ⟨-, rfl, -⟩ := Node.newFilters_returns.mp hf
    exact ⟨hends, h.started, h.line, fun _ => hnone⟩
  | lookForFiles =>
    refine ⟨hends, h.started, h.line, fun hv foundFiles hfiles => ?_⟩
    cases hfiles
    exact mem_lookForHourFiles_of_line h.started hv (h.line hv)
  | @deleteFiles filters foundFiles hstage =>
    refine ⟨hends, h.started, fun hv => ?_, fun _ => hnone⟩
    have hfound := h.found hv foundFiles (by rw [hstage]; rfl)
    change line ∈ linesOf (deleteOthers foundFiles n.logDir) _
    rw [linesOf, deleteOthers_of_mem hfound]
    exact h.line hv
  | loadFiles => exact ⟨hends, h.started, h.line, fun _ => hnone⟩
  | swapFilters => exact ⟨hends, h.started, h.line, fun _ => hnone⟩
  | takeRecord => exact ⟨hends, h.started, h.line, h.found⟩
  | appendRecord =>
    refine ⟨hends, h.started, fun hv => ?_, h.found⟩
    change line ∈ linesOf (writeLog utcOffset n.clock n.logDir _) _
    rw [linesOf_writeLog h.endsLine]
    exact List.mem_append_left _ (h.line hv)
  | rotate => exact ⟨hends, h.started, h.line, h.found⟩

lemma Saved.run (h : Saved utcOffset hour line n)
    (hrun : StepRuns.run (Node.step hash utcOffset) n actions = some n') :
    Saved utcOffset hour line n' :=
  inv_of_run (fun _ _ _ hn => hn.step) h hrun

/-- The append saves the record, unless a rebuild that has missed the file is under way. -/
lemma saved_of_append (hends : ∀ name, EndsLine ((n.logDir name).getD []))
    (hhand : n.hand = some line) (hline : '\n' ∉ line)
    (hstage : ∀ foundFiles ∈ n.stage.lookedFiles, n.hourFile utcOffset ∈ foundFiles)
    (hs : n.step hash utcOffset .appendRecord = some n') :
    Saved utcOffset (hourlyTimestamp utcOffset n.clock) line n' ∧ n'.clock = n.clock := by
  have hsteps := Node.steps_of_step hs
  have hends' := Node.endsLine_steps hends hsteps
  cases hsteps with
  | appendRecord hhand' =>
    rw [hhand] at hhand'
    cases hhand'
    refine ⟨⟨hends', ⟨n.clock, le_rfl, rfl⟩, fun _ => ?_, fun _ => hstage⟩, rfl⟩
    change line ∈ linesOf (writeLog utcOffset n.clock n.logDir line) _
    rw [linesOf_writeLog hends, if_pos rfl, getlines_record hline]
    exact List.mem_append_right _ List.mem_cons_self

variable {J : JsonLib} {host : Startup.Host} {args : List Str} {process : Startup.Process}
  {clientUid token : Str} {resolve : Str → ℕ → Except Fault Unit}
  {write : Str → Except Fault Unit} {expTime : ℤ} {later : List NodeService.Action}
  {m : NodeService.Service}

/-- A process that finds the saved record starts with its token in the slots of its lifetime. -/
lemma Saved.inFirst_of_main (h : Saved utcOffset hour (logRecord token expTime) n)
    (hclean : LogRoundTrip.Clean token) (hlong : InLong expTime) (hnow : n.clock ≤ now)
    (hvisited : hourlyTimestamp utcOffset now - hour ≤ 23 * 3600)
    (hdirs : ∀ path dir, host.logDirs path = .ok dir → dir = n.logDir)
    (hmain : Startup.main J hash utcOffset now host args = .ok process)
    (ha : process.service.engine.Accepts (expTime - now)) :
    process.service.engine.InFirst hash token (process.service.engine.slots (expTime - now)) := by
  obtain ⟨-, config, dir, p, transport, world, -, -, hprovides, hbuilt, -, rfl⟩ :=
    Startup.provides_of_main hmain
  obtain ⟨-, -, -, hshaped, -⟩ := hbuilt.run
  have hdir := hdirs _ _ hprovides.logDir
  subst hdir
  obtain ⟨s, hs, hhour⟩ := h.started
  have hmono := hourlyTimestamp_mono utcOffset hnow
  have hline := h.line (by omega)
  have hmem : (token, expTime) ∈ recordsOf n.logDir
      (lookForHourFiles utcOffset now n.logDir) := by
    refine List.mem_flatMap.mpr ⟨_, mem_lookForHourFiles_of_line ⟨s, hs.trans hnow, hhour⟩ hvisited
      hline, List.mem_filterMap.mpr ⟨_, hline, recordOfLine_logRecord hclean.1 hlong⟩⟩
  have hparams := hbuilt.hasParams
  have hload := hbuilt.contains_loaded hmem (hparams.maxJwtLifeTime ▸ ha)
  rw [← hparams.rotationInterval] at hload
  exact RotatingWindow.holds_of_take hload (slots_le hshaped ha)

/-- Once a record is appended, outside of a rebuild that has missed its file, whatever the
threads do from then on and wherever they stop: a process started while the hour of the
append is visited reports the token revoked, and goes on to do so as long as the rotations
do not outnumber the slots that the lapse of time has freed. -/
theorem record_survives_restart (hends : ∀ name, EndsLine ((n.logDir name).getD []))
    (hhand : n.hand = some (logRecord token expTime)) (hclean : LogRoundTrip.Clean token)
    (hlong : InLong expTime)
    (hstage : ∀ foundFiles ∈ n.stage.lookedFiles, n.hourFile utcOffset ∈ foundFiles)
    (hrun : run (Node.step hash' utcOffset) n (.appendRecord :: actions) = some n')
    (hnow : n'.clock ≤ now)
    (hvisited : hourlyTimestamp utcOffset now - hourlyTimestamp utcOffset n.clock ≤ 23 * 3600)
    (hdirs : ∀ path dir, host.logDirs path = .ok dir → dir = n'.logDir)
    (hmain : Startup.main J hash utcOffset now host args = .ok process)
    (ha : process.service.engine.Accepts (expTime - now))
    (hno : NodeService.NoOrders J later)
    (hlater : run (NodeService.step J hash utcOffset clientUid resolve write) process.service
      later = some m)
    (hrunning : m.running = true) (hexp : m.clock < expTime)
    (hrot : process.service.engine.slots (expTime - m.clock) +
        later.countP NodeService.Action.isRotate ≤
      process.service.engine.slots (expTime - now)) :
    m.engine.isRevoked hash m.clock token expTime = .ok true := by
  obtain ⟨n₁, happend, hrun⟩ := run_cons_eq_some.mp hrun
  obtain ⟨hsaved, -⟩ := saved_of_append hends hhand
    (newline_notMem_logRecord hclean.2 expTime) hstage happend
  have hin := (hsaved.run hrun).inFirst_of_main hclean hlong hnow hvisited hdirs hmain ha
  obtain ⟨hwork, hplace, hclock⟩ := Startup.atWork_of_main hmain
  have hle := NodeService.clock_le_of_run hlater
  have hmax := ha.2
  exact hwork.isRevoked_of_run hplace hin hno hlater hrunning (by omega) hexp hrot

/-- A record in the hand of `logWorker`, 35 seconds before its expiry. -/
def sampleNode : Node where
  engine := {}
  logDir := fun _ => none
  hand := some (logRecord "a" 3725)
  clock := 3690

theorem record_survives_restart_sample :
    ∃ n' process m, run (Node.step (fun _ key => key.length) 0) sampleNode
        [.appendRecord, .tick 5] = some n' ∧
      Startup.main JsonText.jsonText (fun _ key => key.length) 0 3700
        (Startup.sampleHost n'.logDir) ["-c", "node.txt"] = .ok process ∧
      run (NodeService.step JsonText.jsonText (fun _ key => key.length) 0 "node_0001"
        (fun _ _ => .ok ()) fun _ => .ok ()) process.service [.tick 6] = some m ∧
      m.engine.isRevoked (fun _ key => key.length) 3706 "a" 3725 = .ok true := by
  have hclean : ∀ r ∈ [(⟨3690, "a", 3725⟩ : LogEntry)], r.Clean := by
    intro r hr
    rw [List.mem_singleton.mp hr]
    exact ⟨by decide, by decide, by decide⟩
  obtain ⟨config, hread, hprovides⟩ :=
    Startup.provides_sampleHost (visitedParse_writeAll hclean 0 3700)
  have hpath : Startup.configFilePath ["-c", "node.txt"] = .ok "node.txt" := rfl
  obtain ⟨transport, world, hmain, hbuilt⟩ :=
    @Startup.main_of_provides JsonText.jsonText (fun _ key => key.length) _ _ _ _ _ _ _ _ hpath
      hread hprovides
  have hparams := hbuilt.hasParams
  have hslots (t : ℤ) : world.engine.slots t = t.toNat / 10 := by
    rw [slots, hparams.rotationInterval]
    rfl
  have ha : world.engine.Accepts (3725 - 3700) := by
    rw [Accepts, hparams.maxJwtLifeTime]
    decide
  have hends : ∀ name, EndsLine ((sampleNode.logDir name).getD []) := fun _ => .inl rfl
  have hno : NodeService.NoOrders JsonText.jsonText [.tick 6] := by
    intro msg hmem
    simp at hmem
  have hrun : run (Node.step (fun _ key => key.length) 0) sampleNode [.appendRecord, .tick 5] =
      some _ := rfl
  have hdirs : ∀ path dir, (Startup.sampleHost (writeAll 0 [⟨3690, "a", 3725⟩])).logDirs path =
      .ok dir → dir = writeAll 0 [⟨3690, "a", 3725⟩] :=
    fun _ _ hdir => (Except.ok.inj hdir).symm
  have hlater : run (NodeService.step JsonText.jsonText (fun _ key => key.length) 0 "node_0001"
      (fun _ _ => .ok ()) fun _ => .ok ())
      (Startup.started JsonText.jsonText 3700 config transport world).service [.tick 6] =
        some _ := rfl
  have hexp : (3706 : ℤ) < 3725 := by decide
  have hrot : world.engine.slots (3725 - 3706) + 0 ≤ world.engine.slots (3725 - 3700) := by
    rw [hslots, hslots]
    decide
  have hstage : ∀ foundFiles ∈ sampleNode.stage.lookedFiles,
      sampleNode.hourFile 0 ∈ foundFiles :=
    fun foundFiles hfiles => (Option.not_mem_none foundFiles hfiles).elim
  exact ⟨_, _, _, hrun, hmain, hlater, record_survives_restart hends rfl
    ⟨by decide, by decide⟩ (by decide) hstage hrun (by decide) (by decide) hdirs hmain ha hno
    hlater rfl hexp hrot⟩

end JwtRevoker.Restart
