import JwtRevoker.ProxyQuery
import JwtRevoker.RebuildRuns

/-!
# Revocations of a proxy node and its log

A proxy node revokes for the master and for its slaves. The message thread writes
the revocations of the master to the log, the server thread does not write those
of the slaves, so that a rebuild brings back what the log covers and nothing else.
-/
namespace JwtRevoker.ProxyHistory

open EngineM Engine JsonText StepRuns

/-- A message arrives, or one of the steps of the node's other threads. -/
inductive Action
  | master (data : Data)
  | slave (message : Str)
  | tick (seconds : ℕ)
  | takeRecord
  | appendRecord
  | rotate

section Step

variable (J : JsonLib) (hash : HashCalls) (utcOffset : ℤ)
  (proxyQuery : Str → ℤ → Except Fault Bool)

def step (n : Node) : Action → Option Node
  | .master data => n.step hash utcOffset (.revokeJwt data)
  | .slave message =>
      match Server.processTask J hash n.clock n.nodeRole proxyQuery n.engine message with
      | .ok (e, _) => some { n with engine := e }
      | .error _ => none
  | .tick seconds => n.step hash utcOffset (.tick seconds)
  | .takeRecord => n.step hash utcOffset .takeRecord
  | .appendRecord => n.step hash utcOffset .appendRecord
  | .rotate => n.step hash utcOffset .rotate

/-- The tokens of the `revoke_jwt` messages, whichever way they came. -/
def history (actions : List Action) : List (Str × ℤ) :=
  actions.filterMap fun a =>
    match a with
    | .master data => some (Scheduler.revokeRequest data)
    | .slave message =>
        match J.msgParse message [] ∅ with
        | .ok (event, data) =>
            if event = "revoke_jwt" then some (Scheduler.revokeRequest data) else none
        | .error _ => none
    | _ => none

end Step

/-- The records `logRevoke` is called for. -/
def masterRecords (actions : List Action) : List Str :=
  actions.filterMap fun a =>
    match a with
    | .master data =>
        some (logRecord (Scheduler.revokeRequest data).1 (Scheduler.revokeRequest data).2)
    | _ => none

/-- Records are appended in the hour of `now`. -/
def InHour (utcOffset now : ℤ) (n : Node) : Action → Prop
  | .appendRecord => hourlyTimestamp utcOffset n.clock = hourlyTimestamp utcOffset now
  | _ => True

def writeRecords (utcOffset now : ℤ) (dir : LogDir) (records : List Str) : LogDir :=
  records.foldl (writeLog utcOffset now) dir

/-- The log directory after the pending records and those of the master's messages
have been written. -/
def drainedLog (utcOffset now : ℤ) (n : Node) (actions : List Action) : LogDir :=
  writeRecords utcOffset now n.logDir (n.pending ++ masterRecords actions)

def loadedRecords (utcOffset now : ℤ) (dir : LogDir) : List (Str × ℤ) :=
  recordsOf dir (lookForHourFiles utcOffset now dir)

/-- A query at `now` consults no filter, or every bit of the token is one of a live
record with at least as many rotation intervals left. -/
def Recorded (hash : HashCalls) (p : Params) (now : ℤ) (records : List (Str × ℤ)) (token : Str)
    (expTime : ℤ) : Prop :=
  (expTime - now).toNat / p.rotationInterval.toNat = 0 ∨
    ∀ b ∈ indexBits hash (toUnsignedInt p.bloomFilterSize.toNat) p.hashFunctionNum.toNat token,
      ∃ r ∈ records, (0 < r.2 - now ∧ r.2 - now ≤ p.maxJwtLifeTime.toNat) ∧
        (expTime - now).toNat / p.rotationInterval.toNat ≤
          (r.2 - now).toNat / p.rotationInterval.toNat ∧
        b ∈ indexBits hash (toUnsignedInt p.bloomFilterSize.toNat) p.hashFunctionNum.toNat r.1

variable {J : JsonLib} {hash : HashCalls} {utcOffset now : ℤ}
  {proxyQuery : Str → ℤ → Except Fault Bool} {n n' : Node} {a : Action} {actions : List Action}
  {p : Params} {w w' : World} {token : Str} {expTime : ℤ}

/-- Neither thread's revocations change anything but the filters. -/
lemma processTask_frame {nodeRole : NodeRole} {e e' : Engine} {message : Str} {resp : Option Str}
    (h : Server.processTask J hash now nodeRole proxyQuery e message = .ok (e', resp)) :
    e' = { e with filters := e'.filters } := by
  rcases Server.processTask_engine h with rfl | ⟨data, hr⟩
  · rfl
  · exact revokeJwt_frame hr

lemma writeLog_of_hour {t : ℤ} (ht : hourlyTimestamp utcOffset t = hourlyTimestamp utcOffset now)
    (dir : LogDir) (msg : Str) : writeLog utcOffset t dir msg = writeLog utcOffset now dir msg := by
  rw [writeLog, ht, writeLog]

/-- What a step does to the log once everything pending is written: a message of the
master adds its record, and no other step adds any. -/
lemma drainedLog_step (hc : InHour utcOffset now n a)
    (h : step J hash utcOffset proxyQuery n a = some n') (later : List Action) :
    drainedLog utcOffset now n' later = drainedLog utcOffset now n (a :: later) := by
  unfold drainedLog writeRecords
  cases a with
  | master data =>
    have hs : Node.Steps hash utcOffset n (.revokeJwt data) n' := Node.steps_of_step h
    cases hs with
    | revokeJwt hidle hr =>
      rename_i e
      have hq : e.logQueue = n.engine.logQueue := by rw [revokeJwt_frame hr]
      simp [Node.pending, masterRecords, logRevoke, hq]
  | slave message =>
    simp only [step] at h
    split at h
    · rename_i e resp hp
      cases h
      have hq : e.logQueue = n.engine.logQueue := by rw [processTask_frame hp]
      simp [Node.pending, masterRecords, hq]
    · cases h
  | tick seconds =>
    have hs : Node.Steps hash utcOffset n (.tick seconds) n' := Node.steps_of_step h
    cases hs with
    | tick => simp [Node.pending, masterRecords]
  | takeRecord =>
    have hs : Node.Steps hash utcOffset n .takeRecord n' := Node.steps_of_step h
    cases hs with
    | takeRecord hhand hqueue => simp [Node.pending, masterRecords, hhand, hqueue]
  | appendRecord =>
    have hs : Node.Steps hash utcOffset n .appendRecord n' := Node.steps_of_step h
    cases hs with
    | appendRecord hhand =>
      simp [Node.pending, masterRecords, hhand, writeLog_of_hour hc]
  | rotate =>
    have hs : Node.Steps hash utcOffset n .rotate n' := Node.steps_of_step h
    cases hs with
    | rotate he =>
      obtain ⟨-, filter, -, rfl⟩ := rotateFilters_eq_ok he
      simp [Node.pending, masterRecords]

lemma drainedLog_run (hrun : run (step J hash utcOffset proxyQuery) n actions = some n')
    (hall : AllSteps (step J hash utcOffset proxyQuery) (InHour utcOffset now) n actions) :
    drainedLog utcOffset now n' [] = drainedLog utcOffset now n actions := by
  induction actions generalizing n with
  | nil =>
    cases hrun
    rfl
  | cons a actions ih =>
    obtain ⟨n₁, h₁, hrun⟩ := run_cons_eq_some.mp hrun
    obtain ⟨ha, hall⟩ := (allSteps_cons h₁).mp hall
    rw [ih hrun hall, drainedLog_step ha h₁]

/-- A drained node has exactly this log. -/
lemma logDir_of_drained (hrun : run (step J hash utcOffset proxyQuery) n actions = some n')
    (hall : AllSteps (step J hash utcOffset proxyQuery) (InHour utcOffset now) n actions)
    (hdrained : n'.pending = []) : n'.logDir = drainedLog utcOffset now n actions := by
  rw [← drainedLog_run hrun hall, drainedLog, hdrained]
  rfl

lemma mem_survivors_loadOps {m r slot : ℕ} {records : List (Str × ℤ)} :
    token ∈ survivors m r slot (loadOps now records) ↔
      ∃ record ∈ records, (0 < record.2 - now ∧ record.2 - now ≤ m) ∧
        slot < (record.2 - now).toNat / r ∧ record.1 = token := by
  induction records with
  | nil => simp [loadOps, survivors]
  | cons record records ih =>
    have hrot := rotations_loadOps now records
    rw [loadOps] at hrot ih
    rw [loadOps, List.map_cons, survivors, hrot, Nat.add_zero]
    by_cases ha : 0 < record.2 - now ∧ record.2 - now ≤ m
    · simp only [natCast_lt_ediv_iff ha.1, ha, and_self, true_and, List.exists_mem_cons_iff]
      split_ifs with hs
      · rw [List.mem_cons, ih]
        simp [hs, eq_comm]
      · rw [ih]
        simp [hs]
    · simp only [ha, false_and, if_false, List.exists_mem_cons_iff, false_or]
      exact ih

/-- What a query answers right after a build at the same time. -/
theorem reports_iff_recorded (h : Built hash utcOffset now p w w')
    (ha : 0 < expTime - now ∧ expTime - now ≤ p.maxJwtLifeTime.toNat) :
    w'.engine.Reports hash now token expTime ↔
      Recorded hash p now (loadedRecords utcOffset now w.logDir) token expTime := by
  obtain ⟨hM, hR, hS, hK, -⟩ := h.hasParams
  have hacc : w'.engine.Accepts (expTime - now) := by rwa [Accepts, hM]
  have hslots : w'.engine.slots (expTime - now) =
      (expTime - now).toNat / p.rotationInterval.toNat := by rw [slots, hR]
  rcases Nat.eq_zero_or_pos ((expTime - now).toNat / p.rotationInterval.toNat) with hz | hpos
  · refine iff_of_true ⟨hacc, ?_⟩ (.inl hz)
    rw [hslots, hz, List.take_zero]
    exact fun f hf => absurd hf List.not_mem_nil
  · have hle : p.rotationInterval.toNat ≤ p.maxJwtLifeTime.toNat :=
      (Nat.div_pos_iff.mp hpos).2.trans (by omega)
    obtain ⟨blank, hist⟩ := h.hasHistory hle
    rw [hist.reports_iff hacc, hslots, Recorded, hM, hR, hS, hK]
    refine or_congr_right (forall₂_congr fun b _ => ?_)
    rw [loadedOps]
    constructor
    · rintro ⟨token', hm, hb⟩
      obtain ⟨r, hr, hlive, hslot, rfl⟩ := mem_survivors_loadOps.mp hm
      exact ⟨r, hr, hlive, by omega, hb⟩
    · rintro ⟨r, hr, hlive, hslot, hb⟩
      exact ⟨r.1, mem_survivors_loadOps.mpr ⟨r, hr, hlive, by omega, rfl⟩, hb⟩

/-- After every history of a node whose log is drained in the hour of the rebuild:
the rebuild keeps what was reported revoked exactly when each such token of the
history is recorded in the log, that is by what was in it before and by the
messages of the master. -/
theorem survives_rebuild_iff (hrun : run (step J hash utcOffset proxyQuery) n actions = some n')
    (hall : AllSteps (step J hash utcOffset proxyQuery) (InHour utcOffset n'.clock) n actions)
    (hdrained : n'.pending = [])
    (hbuilt : Returns (Engine.init hash utcOffset n'.clock p) ⟨{}, n'.logDir⟩ () w' ∨
      Returns (adjustFiltersParam hash utcOffset n'.clock p) ⟨n'.engine, n'.logDir⟩ () w') :
    (∀ token expTime, (token, expTime) ∈ history J actions →
      0 < expTime - n'.clock ∧ expTime - n'.clock ≤ p.maxJwtLifeTime.toNat →
      n'.engine.Reports hash n'.clock token expTime →
      w'.engine.Reports hash n'.clock token expTime) ↔
    ∀ token expTime, (token, expTime) ∈ history J actions →
      0 < expTime - n'.clock ∧ expTime - n'.clock ≤ p.maxJwtLifeTime.toNat →
      n'.engine.Reports hash n'.clock token expTime →
      Recorded hash p n'.clock
        (loadedRecords utcOffset n'.clock (drainedLog utcOffset n'.clock n actions))
        token expTime := by
  have hlog := logDir_of_drained hrun hall hdrained
  have hiff (token : Str) (expTime : ℤ)
      (ha : 0 < expTime - n'.clock ∧ expTime - n'.clock ≤ p.maxJwtLifeTime.toNat) :
      w'.engine.Reports hash n'.clock token expTime ↔ Recorded hash p n'.clock
        (loadedRecords utcOffset n'.clock (drainedLog utcOffset n'.clock n actions))
        token expTime := by
    rw [← hlog]
    rcases hbuilt with hi | hadj
    · exact reports_iff_recorded (init_returns.mp hi).2 ha
    · exact reports_iff_recorded (adjustFiltersParam_returns.mp hadj) ha
  constructor
  · intro h token expTime hm ha hrep
    exact (hiff token expTime ha).mp (h token expTime hm ha hrep)
  · intro h token expTime hm ha hrep
    exact (hiff token expTime ha).mpr (h token expTime hm ha hrep)

lemma writeRecords_append (dir : LogDir) (records : List Str) (record : Str) :
    writeRecords utcOffset now dir (records ++ [record]) =
      writeLog utcOffset now (writeRecords utcOffset now dir records) record := by
  rw [writeRecords, List.foldl_append]
  rfl

lemma endsLine_writeRecords {dir : LogDir} (hd : ∀ name, EndsLine ((dir name).getD []))
    (records : List Str) (name : Str) :
    EndsLine ((writeRecords utcOffset now dir records name).getD []) := by
  induction records using List.reverseRecOn generalizing name with
  | nil => exact hd name
  | append_singleton records record ih =>
    rw [writeRecords_append]
    exact endsLine_writeLog ih utcOffset now record name

lemma mem_linesOf_writeRecords {dir : LogDir} (hd : ∀ name, EndsLine ((dir name).getD []))
    {records : List Str} {line : Str} (hline : '\n' ∉ line) (hm : line ∈ records) :
    line ∈ linesOf (writeRecords utcOffset now dir records)
      (logFileName (hourlyTimestamp utcOffset now)) := by
  induction records using List.reverseRecOn with
  | nil => cases hm
  | append_singleton records record ih =>
    rw [writeRecords_append, linesOf_writeLog (endsLine_writeRecords hd records), if_pos rfl]
    rcases List.mem_append.mp hm with hm | hm
    · exact List.mem_append_left _ (ih hm)
    · obtain rfl := List.mem_singleton.mp hm
      rw [getlines_record hline]
      exact List.mem_append_right _ List.mem_cons_self

/-- A line of the file of the current hour is loaded. -/
lemma mem_loadedRecords {dir : LogDir} {line : Str} {record : Str × ℤ}
    (hl : line ∈ linesOf dir (logFileName (hourlyTimestamp utcOffset now)))
    (hrec : recordOfLine line = some record) : record ∈ loadedRecords utcOffset now dir := by
  refine List.mem_flatMap.mpr ⟨_, mem_lookForHourFiles.mpr ⟨?_, ?_⟩,
    List.mem_filterMap.mpr ⟨line, hl, hrec⟩⟩
  · exact (logFileName_mem_hourFiles le_rfl).mpr (by omega)
  · rw [Option.isSome_iff_ne_none]
    intro hnone
    rw [linesOf, hnone] at hl
    exact absurd hl List.not_mem_nil

/-- A revocation of the master is recorded, whatever arrives besides it. -/
theorem recorded_of_master (hd : ∀ name, EndsLine ((n.logDir name).getD [])) {data : Data}
    (hm : .master data ∈ actions) (hdata : Scheduler.revokeRequest data = (token, expTime))
    (hcomma : ',' ∉ token) (hnewline : '\n' ∉ token)
    (ha : 0 < expTime - now ∧ expTime - now ≤ p.maxJwtLifeTime.toNat) :
    Recorded hash p now (loadedRecords utcOffset now (drainedLog utcOffset now n actions))
      token expTime := by
  have hlong : InLong expTime := Scheduler.inLong_of_revokeRequest hdata
  have hrecord : logRecord token expTime ∈ n.pending ++ masterRecords actions := by
    refine List.mem_append_right _ (List.mem_filterMap.mpr ⟨.master data, hm, ?_⟩)
    simp only [hdata]
  have hline : logRecord token expTime ∈ linesOf (drainedLog utcOffset now n actions)
      (logFileName (hourlyTimestamp utcOffset now)) :=
    mem_linesOf_writeRecords hd (newline_notMem_logRecord hnewline expTime) hrecord
  exact .inr fun b hb => ⟨(token, expTime),
    mem_loadedRecords hline (recordOfLine_logRecord hcomma hlong), ha, le_rfl, hb⟩

lemma history_slave (hJ : J.RoundTrips) (data : Data) :
    history J [.slave (J.msgAssembly "revoke_jwt" data)] = [Scheduler.revokeRequest data] := by
  obtain ⟨data', hparse, hdata⟩ := JsonLib.msgParse_msgAssembly hJ "revoke_jwt" data
  simp only [history, List.filterMap_cons, List.filterMap_nil, hparse, if_true,
    Scheduler.revokeRequest, Data.get_congr (hdata _)]

/-- A proxy node just started on an empty log directory. -/
def sampleProxy : Node := { Node.sampleNode with nodeRole := .proxyNode }

theorem survives_rebuild_iff_master :
    ∃ (n' : Node) (w' : World),
      run (step jsonText (fun _ key => key.length) 0 fun _ _ => .ok false) sampleProxy
        [.master Node.sampleRevocation, .takeRecord, .appendRecord] = some n' ∧
      ((∀ token expTime, (token, expTime) ∈ history jsonText
          [.master Node.sampleRevocation, .takeRecord, .appendRecord] →
        0 < expTime - n'.clock ∧ expTime - n'.clock ≤ 30 →
        n'.engine.Reports (fun _ key => key.length) n'.clock token expTime →
        w'.engine.Reports (fun _ key => key.length) n'.clock token expTime) ↔
      ∀ token expTime, (token, expTime) ∈ history jsonText
          [.master Node.sampleRevocation, .takeRecord, .appendRecord] →
        0 < expTime - n'.clock ∧ expTime - n'.clock ≤ 30 →
        n'.engine.Reports (fun _ key => key.length) n'.clock token expTime →
        Recorded (fun _ key => key.length) ⟨30, 10, 8, 1⟩ n'.clock
          (loadedRecords 0 n'.clock (drainedLog 0 n'.clock sampleProxy
            [.master Node.sampleRevocation, .takeRecord, .appendRecord])) token expTime) := by
  have hrun : run (step jsonText (fun _ key => key.length) 0 fun _ _ => .ok false) sampleProxy
      [.master Node.sampleRevocation, .takeRecord, .appendRecord] = some _ := rfl
  exact ⟨_, _, hrun, survives_rebuild_iff (p := ⟨30, 10, 8, 1⟩) hrun
    ⟨trivial, trivial, rfl, trivial⟩ rfl (.inl (returns_of_ok rfl))⟩

/-- The proxy node after a slave has revoked the token of the sample. -/
def sampleProxyRevoked : Node := { sampleProxy with
  engine := { sampleProxy.engine with
    filters := RotatingWindow.putPrefix (BaseBloomFilter.add fun _ key => key.length) 2 "a"
      sampleProxy.engine.filters } }

/-- A slave revokes a token at the proxy; after a restart it is not reported revoked. -/
theorem slave_revocation_lost :
    jsonText.RoundTrips ∧ ∃ (n' : Node) (w' : World),
      run (step jsonText (fun _ key => key.length) 0 fun _ _ => .ok false) sampleProxy
        [.slave (jsonText.msgAssembly "revoke_jwt" Node.sampleRevocation)] = some n' ∧
      history jsonText [.slave (jsonText.msgAssembly "revoke_jwt" Node.sampleRevocation)] =
        [("a".toList, 25)] ∧
      n'.pending = [] ∧
      Returns (Engine.init (fun _ key => key.length) 0 n'.clock ⟨30, 10, 8, 1⟩)
        ⟨{}, n'.logDir⟩ () w' ∧
      n'.engine.isRevoked (fun _ key => key.length) n'.clock "a" 25 = .ok true ∧
      w'.engine.isRevoked (fun _ key => key.length) n'.clock "a" 25 = .ok false := by
  have hprocess : Server.processTask jsonText (fun _ key => key.length) 0 .proxyNode
      (fun _ _ => .ok false) sampleProxy.engine
      (jsonText.msgAssembly "revoke_jwt" Node.sampleRevocation) =
        .ok (sampleProxyRevoked.engine, none) :=
    (Server.processTask_revoke roundTrips_jsonText 0 _ sampleProxy.engine
      Node.sampleRevocation).trans rfl
  have hstep : step jsonText (fun _ key => key.length) 0 (fun _ _ => .ok false) sampleProxy
      (.slave (jsonText.msgAssembly "revoke_jwt" Node.sampleRevocation)) =
        some sampleProxyRevoked := by
    unfold step
    dsimp only
    change (match Server.processTask jsonText _ 0 .proxyNode _ sampleProxy.engine _ with
      | .ok (e, _) => some { sampleProxy with engine := e }
      | .error _ => none) = _
    rw [hprocess]
    rfl
  exact ⟨roundTrips_jsonText, sampleProxyRevoked, _,
    run_cons_eq_some.mpr ⟨_, hstep, rfl⟩,
    (history_slave roundTrips_jsonText _).trans (by decide +kernel), rfl, returns_of_ok rfl,
    by decide +kernel, by decide +kernel⟩

end JwtRevoker.ProxyHistory
