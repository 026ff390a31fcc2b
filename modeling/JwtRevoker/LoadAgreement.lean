import JwtRevoker.Recovery
import JwtRevoker.RoleChange

/-!
# Three ways to load a log

`recoverFromLog`, `revokeJwt` called for each record, and a proxy that handles the
frames of `sendLogToProxyNode` are three copies of one loop. At one clock reading
they leave the same filters, and the order of the records does not matter.
-/
namespace JwtRevoker

open EngineM Engine JsonText NodeMessageSender

/-- The messages of a server in order, without the responses. -/
def Server.processTasks (J : JsonLib) (hash : HashCalls) (now : ℤ) (nodeRole : NodeRole)
    (proxyQuery : Str → ℤ → Except Fault Bool) (e : Engine) (messages : List Str) :
    Except Fault Engine :=
  messages.foldlM (fun e message => do
    let (e, _) ← Server.processTask J hash now nodeRole proxyQuery e message
    return e) e

/-- What a record does to a window of the parameters of `e` when it is loaded at `now`. -/
def Engine.loadRecord (hash : HashCalls) (now : ℤ) (e : Engine) (filters : List BaseBloomFilter)
    (record : Str × ℤ) : List BaseBloomFilter :=
  if e.Accepts (record.2 - now) then
    RotatingWindow.putPrefix (BaseBloomFilter.add hash) (e.slots (record.2 - now)) record.1 filters
  else filters

variable {J : JsonLib} {hash : HashCalls} {utcOffset now : ℤ} {e : Engine}
  {records records' : List (Str × ℤ)} {dir : LogDir} {lines : List Str}

lemma Engine.Shaped.withFilters (h : e.Shaped) {filters : List BaseBloomFilter}
    (hlen : filters.length = e.filters.length) : Shaped { e with filters := filters } :=
  ⟨h.interval_pos, h.filtersNum_eq, hlen.trans h.length_filters⟩

lemma revokeJwt_eq_loadRecord (h : e.Shaped) (hash : HashCalls) (now : ℤ) (token : Str)
    (expTime : ℤ) :
    e.revokeJwt hash now token expTime =
        .ok { e with filters := loadRecord hash now e e.filters (token, expTime) } ∧
      Shaped { e with filters := loadRecord hash now e e.filters (token, expTime) } := by
  rw [revokeJwt_eq h, loadRecord]
  split_ifs
  · exact ⟨rfl, h.withFilters (RotatingWindow.length_putPrefix ..)⟩
  · exact ⟨rfl, h⟩

/-- A run of revocations at one clock reading is a fold over their records. -/
theorem run_loadOps (h : e.Shaped) (records : List (Str × ℤ)) :
    e.run hash (loadOps now records) =
      .ok { e with filters := records.foldl (loadRecord hash now e) e.filters } := by
  induction records generalizing e with
  | nil => rfl
  | cons record records ih =>
    obtain ⟨hs, hshape⟩ := revokeJwt_eq_loadRecord h hash now record.1 record.2
    rw [loadOps, List.map_cons, Engine.run, List.foldlM_cons, Engine.step, hs]
    exact ih hshape

/-- The order in which records are loaded does not matter. -/
theorem foldl_loadRecord_perm (h : records.Perm records') (hash : HashCalls) (now : ℤ)
    (e : Engine) (filters : List BaseBloomFilter) :
    records.foldl (loadRecord hash now e) filters =
      records'.foldl (loadRecord hash now e) filters := by
  refine h.foldl_eq' (fun r _ r' _ filters => ?_) filters
  unfold loadRecord
  split_ifs
  · exact RotatingWindow.putPrefix_right_comm _ (BaseBloomFilter.add_right_comm hash) ..
  · rfl
  · rfl
  · rfl

/-- A record that has expired is not loaded, so that it may as well not be sent. -/
lemma loadRecord_of_expired {token : Str} {expTime : ℤ} (hexp : expTime < now)
    (filters : List BaseBloomFilter) :
    loadRecord hash now e filters (token, expTime) = filters := by
  have hn : ¬ e.Accepts (expTime - now) := fun ha => by
    have := ha.1
    omega
  rw [loadRecord, if_neg hn]

/-- A line that parses is sent as the frame of its record, or not at all when loading
it changes nothing. -/
lemma frameOfLine_of_parses (J : JsonLib) (hash : HashCalls) (now : ℤ) {line : Str}
    (h : Parses line) :
    (frameOfLine J now line = .ok none ∧ ∀ (e : Engine) (filters : List BaseBloomFilter),
      (recordOfLine line).toList.foldl (loadRecord hash now e) filters = filters) ∨
    ∃ token expTimeStr expTime, stol expTimeStr = .ok expTime ∧
      recordOfLine line = some (token, expTime) ∧
      frameOfLine J now line = .ok (some (revokeFrame J token expTimeStr)) := by
  rcases h with hnone | ⟨⟨token, expTime⟩, hrec⟩
  · refine .inl ⟨by rw [frameOfLine, hnone], fun e filters => ?_⟩
    rw [recordOfLine, hnone]
    rfl
  · obtain ⟨expTimeStr, hsplit, hstol⟩ := recordOfLine_eq_some hrec
    by_cases hexp : expTime < now
    · refine .inl ⟨?_, fun e filters => ?_⟩
      · rw [frameOfLine, hsplit]
        dsimp only
        rw [hstol, ok_bind, if_pos hexp]
        rfl
      · rw [hrec]
        exact loadRecord_of_expired hexp filters
    · exact .inr ⟨token, expTimeStr, expTime, hstol, hrec,
        frameOfLine_of_record hsplit hstol (not_lt.mp hexp)⟩

/-- A proxy that handles the frames sent for some lines loads the records of the lines. -/
theorem processTasks_frames (hJ : J.RoundTrips) (hash : HashCalls) (now : ℤ)
    (proxyQuery : Str → ℤ → Except Fault Bool) (hlines : ∀ line ∈ lines, Parses line) :
    ∃ frames : List Str,
      (∀ write : Str → Except Fault Unit, (lines.forM fun line => do
        match ← frameOfLine J now line with
        | none => return ()
        | some frame => write frame) = frames.forM write) ∧
      ∀ e : Engine, e.Shaped → Server.processTasks J hash now .proxyNode proxyQuery e frames =
        .ok { e with
          filters := (lines.filterMap recordOfLine).foldl (loadRecord hash now e) e.filters } := by
  induction lines with
  | nil => exact ⟨[], fun _ => rfl, fun _ _ => rfl⟩
  | cons line lines ih =>
    obtain ⟨frames, hsent, hloaded⟩ := ih fun line' h => hlines line' (List.mem_cons_of_mem _ h)
    have hfold (e : Engine) (filters : List BaseBloomFilter) :
        ((line :: lines).filterMap recordOfLine).foldl (loadRecord hash now e) filters =
          (lines.filterMap recordOfLine).foldl (loadRecord hash now e)
            ((recordOfLine line).toList.foldl (loadRecord hash now e) filters) := by
      cases hrec : recordOfLine line <;> simp [hrec]
    rcases frameOfLine_of_parses J hash now (hlines line List.mem_cons_self) with
      ⟨hframe, hnothing⟩ | ⟨token, expTimeStr, expTime, hstol, hrec, hframe⟩
    · refine ⟨frames, ?_, ?_⟩
      · intro write
        rw [List.forM, hframe, ok_bind]
        exact hsent write
      · intro e he
        rw [hloaded e he, hfold, hnothing]
    · refine ⟨revokeFrame J token expTimeStr :: frames, ?_, ?_⟩
      · intro write
        rw [List.forM, List.forM, hframe, ok_bind, hsent]
      · intro e he
        obtain ⟨hs, hshape⟩ := revokeJwt_eq_loadRecord he hash now token expTime
        have hprocess := @processTask_revokeFrame J hash hJ token _ _ hstol now proxyQuery e
        rw [hs] at hprocess
        rw [Server.processTasks, List.foldlM_cons, hprocess, hfold, hrec]
        exact hloaded _ hshape

lemma filterMap_linesToSend (utcOffset now : ℤ) (dir : LogDir) :
    (linesToSend utcOffset now dir).filterMap recordOfLine =
      recordsOf dir (lookForHourFiles utcOffset now dir) :=
  List.filterMap_flatMap ..

/-- Whichever way the visited files are loaded at one clock reading, and in whichever
order the records come, the filters are the same. -/
theorem loads_agree (hJ : J.RoundTrips) {p : Params} {fresh : List BaseBloomFilter}
    (hR : 0 < p.rotationInterval.toNat)
    (hnew : getNewFilters (p.maxJwtLifeTime.toNat / p.rotationInterval.toNat)
      p.bloomFilterSize.toNat p.hashFunctionNum.toNat = .ok fresh)
    (hparses : VisitedParse utcOffset now dir)
    (proxyQuery : Str → ℤ → Except Fault Bool) (e caller proxy : Engine) :
    ∃ filters w', Returns (recoverFromLog hash utcOffset now fresh) ⟨e.withParams p, dir⟩
        filters w' ∧
      (∀ records : List (Str × ℤ),
        records.Perm (recordsOf dir (lookForHourFiles utcOffset now dir)) →
        run hash { caller.withParams p with filters := fresh }
            (records.map fun r => .revokeJwt r.1 r.2 now) =
          .ok { caller.withParams p with filters := filters }) ∧
      ∃ frames : List Str,
        (∀ write, sendLogToProxyNode J write utcOffset now dir = frames.forM write) ∧
        Server.processTasks J hash now .proxyNode proxyQuery
            { proxy.withParams p with filters := fresh } frames =
          .ok { proxy.withParams p with filters := filters } := by
  have hshape (e : Engine) : Shaped { e.withParams p with filters := fresh } :=
    ⟨hR, rfl, (getNewFilters_eq_ok hnew).1⟩
  have hsome := isSome_deleteOthers utcOffset now dir
  obtain ⟨filters, hi⟩ := (importFound_isOk_iff (hshape e) hash utcOffset now dir).mpr hparses
  have hfold : filters = (recordsOf dir (lookForHourFiles utcOffset now dir)).foldl
      (loadRecord hash now (e.withParams p)) fresh := by
    obtain ⟨-, hr⟩ := importFiles_run (hshape e) hsome hi
    rw [recordsOf_deleteOthers, run_loadOps (hshape e)] at hr
    exact (congrArg Engine.filters (Except.ok.inj hr)).symm
  rw [importFiles_withFilters] at hi
  refine ⟨filters, _, recoverFromLog_returns.mpr ⟨rfl, hi⟩, ?_, ?_⟩
  · intro records hperm
    have hrun := @run_loadOps hash now _ (hshape caller) records
    rw [foldl_loadRecord_perm hperm] at hrun
    rw [hfold]
    exact hrun
  · have hlines : ∀ line ∈ linesToSend utcOffset now dir, Parses line := by
      intro line hm
      obtain ⟨name, hn, hm⟩ := List.mem_flatMap.mp hm
      exact hparses name hn line hm
    obtain ⟨frames, hsent, hloaded⟩ := processTasks_frames hJ hash now proxyQuery hlines
    refine ⟨frames, hsent, ?_⟩
    rw [hloaded _ (hshape proxy), filterMap_linesToSend, hfold]
    rfl

/-- Three records in the files of two hours. -/
def sampleLog : LogDir :=
  writeAll 0 [⟨3590, "a", 3725⟩, ⟨3690, "bb", 3712⟩, ⟨3695, "a", 3704⟩]

/-- The records of `sampleLog` the other way round leave the filters of the recovery. -/
theorem loads_agree_two_hours :
    jsonText.RoundTrips ∧ ∃ fresh filters w', getNewFilters 3 8 1 = .ok fresh ∧
      Returns (recoverFromLog (fun _ key => key.length) 0 3700 fresh)
        ⟨({} : Engine).withParams ⟨30, 10, 8, 1⟩, sampleLog⟩ filters w' ∧
      run (fun _ key => key.length)
          { ({} : Engine).withParams ⟨30, 10, 8, 1⟩ with filters := fresh }
          [.revokeJwt "a" 3725 3700, .revokeJwt "a" 3704 3700, .revokeJwt "bb" 3712 3700] =
        .ok { ({} : Engine).withParams ⟨30, 10, 8, 1⟩ with filters := filters } ∧
      ∃ frames : List Str,
        (∀ write, sendLogToProxyNode jsonText write 0 3700 sampleLog = frames.forM write) ∧
        Server.processTasks jsonText (fun _ key => key.length) 3700 .proxyNode
            (fun _ _ => .ok false)
            { ({} : Engine).withParams ⟨30, 10, 8, 1⟩ with filters := fresh } frames =
          .ok { ({} : Engine).withParams ⟨30, 10, 8, 1⟩ with filters := filters } := by
  have hclean : ∀ r ∈ [(⟨3590, "a", 3725⟩ : LogEntry), ⟨3690, "bb", 3712⟩, ⟨3695, "a", 3704⟩],
      r.Clean := by
    simp only [List.forall_mem_cons]
    exact ⟨⟨by decide, by decide, by decide⟩, ⟨by decide, by decide, by decide⟩,
      ⟨by decide, by decide, by decide⟩, by simp⟩
  have hrecords : recordsOf sampleLog (lookForHourFiles 0 3700 sampleLog) =
      [(("bb" : Str), 3712), (("a" : Str), 3704), (("a" : Str), 3725)] := by decide +kernel
  have hparses : VisitedParse 0 3700 sampleLog := visitedParse_writeAll hclean 0 3700
  obtain ⟨filters, w', hloads, hperm, hframes⟩ := @loads_agree jsonText (fun _ key => key.length)
    0 3700 _ roundTrips_jsonText ⟨30, 10, 8, 1⟩ _ (by decide) rfl hparses
    (fun _ _ => .ok false) {} {} {}
  refine ⟨roundTrips_jsonText, _, filters, w', rfl, hloads, ?_, hframes⟩
  have hrun := hperm _ (List.reverse_perm _)
  rwa [hrecords] at hrun

end JwtRevoker
