import JwtRevoker.Recovery
import JwtRevoker.Scheduler
import JwtRevoker.ThreadSafeQueue

/-!
# Rebuilding while the log is written

The message thread and `logWorker` as one step relation. A rebuild is four steps
of the message thread after the new parameters are stored: look for the hour
files, delete the other files, read the found ones, swap the filters. Between
any two of them `logWorker` may take a record from the queue or append the one
it holds. The clock advances between messages.
-/
namespace JwtRevoker

open EngineM Engine StepRuns
open ThreadSafeQueue (queueDefaultMaxSize)

def Engine.logRevoke (e : Engine) (token : Str) (expTime : ℤ) : Engine :=
  { e with logQueue := e.logQueue ++ [logRecord token expTime] }

/-- How far the message thread is with an adjustment: the filters it is building
and the files it has found. -/
inductive Stage
  | idle
  | built (filters : List BaseBloomFilter)
  | looked (filters : List BaseBloomFilter) (foundFiles : List Str)
  | deleted (filters : List BaseBloomFilter) (foundFiles : List Str)
  | loaded (filters : List BaseBloomFilter)

/-- The found files between the look-up and the deletion. -/
def Stage.lookedFiles : Stage → Option (List Str)
  | .looked _ foundFiles => some foundFiles
  | _ => none

def Stage.deletedFiles : Stage → Option (List Str)
  | .deleted _ foundFiles => some foundFiles
  | _ => none

/-- A node in the role `single_node` or `proxy_node`. `hand` is the record
`logWorker` has taken from the queue and not yet appended. -/
structure Node where
  nodeRole : NodeRole := .singleNode
  engine : Engine
  logDir : LogDir
  hand : Option Str := none
  stage : Stage := .idle
  clock : ℤ

inductive Action
  | tick (seconds : ℕ)
  | revokeJwt (data : Data)
  | adjust (data : Data)
  | lookForFiles
  | deleteFiles
  | loadFiles
  | swapFilters
  | takeRecord
  | appendRecord
  | rotate

namespace Node

/-- The roles of the adjustments considered here; an order to become a slave is not
one of them. -/
def adjustedRole (data : Data) : Option NodeRole :=
  match data.atKey "node_role" with
  | .ok role =>
      if role = "single_node" then some .singleNode
      else if role = "proxy_node" then some .proxyNode
      else none
  | .error _ => none

/-- The first part of `adjustFiltersParam`, before the log is read. -/
def newFilters (p : Params) : EngineM (List BaseBloomFilter) := do
  storeParams p
  let w ← world
  lift (getNewFilters w.engine.filtersNum w.engine.bloomFilterSize w.engine.hashFunctionNum)

/-- One step; there is none when the action is not enabled or throws. -/
def step (hash : HashCalls) (utcOffset : ℤ) (n : Node) : Action → Option Node
  | .tick seconds =>
      match n.stage with
      | .idle => some { n with clock := n.clock + seconds }
      | _ => none
  | .revokeJwt data =>
      match n.stage, n.nodeRole with
      -- A slave sends the revocation on instead of writing it.
      | .idle, .slaveNode => none
      | .idle, _ =>
          let (token, expTime) := Scheduler.revokeRequest data
          match n.engine.revokeJwt hash n.clock token expTime with
          | .ok e =>
              -- `enqueue` waits while the queue is full.
              if e.logQueue.length < queueDefaultMaxSize then
                some { n with engine := e.logRevoke token expTime }
              else none
          | .error _ => none
      | _, _ => none
  | .adjust data =>
      match n.stage, adjustedRole data, Scheduler.filterParams data with
      | .idle, some role, .ok p =>
          match newFilters p ⟨n.engine, n.logDir⟩ with
          | (.ok filters, w) =>
              some { n with nodeRole := role, engine := w.engine, stage := .built filters }
          | (.error _, _) => none
      | _, _, _ => none
  | .lookForFiles =>
      match n.stage with
      | .built filters =>
          some { n with stage := .looked filters (lookForHourFiles utcOffset n.clock n.logDir) }
      | _ => none
  | .deleteFiles =>
      match n.stage with
      | .looked filters foundFiles =>
          some { n with
            logDir := deleteOthers foundFiles n.logDir
            stage := .deleted filters foundFiles }
      | _ => none
  | .loadFiles =>
      match n.stage with
      | .deleted filters foundFiles =>
          match importFiles hash n.clock n.engine n.logDir foundFiles filters with
          | .ok filters => some { n with stage := .loaded filters }
          | .error _ => none
      | _ => none
  | .swapFilters =>
      match n.stage with
      | .loaded filters =>
          some { n with engine := { n.engine with filters := filters }, stage := .idle }
      | _ => none
  | .takeRecord =>
      match n.hand, n.engine.logQueue with
      | none, msg :: rest =>
          some { n with engine := { n.engine with logQueue := rest }, hand := some msg }
      | _, _ => none
  | .appendRecord =>
      match n.hand with
      | some msg =>
          some { n with logDir := writeLog utcOffset n.clock n.logDir msg, hand := none }
      | none => none
  | .rotate =>
      match n.engine.rotateFilters with
      | .ok e => some { n with engine := e }
      | .error _ => none

/-- Records that were logged and are in no file yet. -/
def pending (n : Node) : List Str := n.hand.toList ++ n.engine.logQueue

def hourFile (utcOffset : ℤ) (n : Node) : Str := logFileName (hourlyTimestamp utcOffset n.clock)

/-- A line with a record that a rebuild under the stored parameters has to load. -/
def Live (n : Node) (line : Str) : Prop :=
  match recordOfLine line with
  | some (_, expTime) => 0 < expTime - n.clock ∧ expTime - n.clock ≤ n.engine.maxJwtLifeTime
  | none => False

instance (n : Node) (line : Str) : Decidable (n.Live line) := by
  unfold Live
  split <;> infer_instance

/-- The deletion spares the file of the current hour. -/
def SparesHourFile (utcOffset : ℤ) (n : Node) (foundFiles : List Str) : Prop :=
  n.hourFile utcOffset ∈ foundFiles ∨ n.logDir (n.hourFile utcOffset) = none

/-- The reading misses no live record of the current hour. -/
def ReadsLive (utcOffset : ℤ) (n : Node) (foundFiles : List Str) : Prop :=
  (∀ line ∈ n.pending, ¬ n.Live line) ∧
    (n.hourFile utcOffset ∈ foundFiles ∨
      ∀ line ∈ linesOf n.logDir (n.hourFile utcOffset), ¬ n.Live line)

/-- The steps of a rebuild that lose nothing. -/
def Careful (utcOffset : ℤ) (n : Node) : Action → Prop
  | .deleteFiles => ∀ foundFiles ∈ n.stage.lookedFiles, n.SparesHourFile utcOffset foundFiles
  | .loadFiles => ∀ foundFiles ∈ n.stage.deletedFiles, n.ReadsLive utcOffset foundFiles
  | _ => True

instance (utcOffset : ℤ) (n : Node) (foundFiles : List Str) :
    Decidable (n.SparesHourFile utcOffset foundFiles) := by
  unfold SparesHourFile
  infer_instance

instance (utcOffset : ℤ) (n : Node) (foundFiles : List Str) :
    Decidable (n.ReadsLive utcOffset foundFiles) := by
  unfold ReadsLive
  infer_instance

instance (utcOffset : ℤ) (n : Node) : ∀ a, Decidable (n.Careful utcOffset a)
  | .deleteFiles => inferInstanceAs
      (Decidable (∀ foundFiles ∈ n.stage.lookedFiles, n.SparesHourFile utcOffset foundFiles))
  | .loadFiles => inferInstanceAs
      (Decidable (∀ foundFiles ∈ n.stage.deletedFiles, n.ReadsLive utcOffset foundFiles))
  | .tick _ | .revokeJwt _ | .adjust _ | .lookForFiles | .swapFilters | .takeRecord
  | .appendRecord | .rotate => isTrue trivial

/-- The steps as a relation: what each of them needs and what it changes. -/
inductive Steps (hash : HashCalls) (utcOffset : ℤ) (n : Node) : Action → Node → Prop
  | tick {seconds : ℕ} : n.stage = .idle →
      Steps hash utcOffset n (.tick seconds) { n with clock := n.clock + seconds }
  | revokeJwt {data : Data} {e : Engine} : n.stage = .idle →
      n.engine.revokeJwt hash n.clock (Scheduler.revokeRequest data).1
        (Scheduler.revokeRequest data).2 = .ok e →
      Steps hash utcOffset n (.revokeJwt data) { n with
        engine := e.logRevoke (Scheduler.revokeRequest data).1 (Scheduler.revokeRequest data).2 }
  | adjust {data : Data} {role : NodeRole} {p : Params} {filters : List BaseBloomFilter}
      {w : World} : n.stage = .idle → Scheduler.filterParams data = .ok p →
      Returns (newFilters p) ⟨n.engine, n.logDir⟩ filters w →
      Steps hash utcOffset n (.adjust data)
        { n with nodeRole := role, engine := w.engine, stage := .built filters }
  | lookForFiles {filters : List BaseBloomFilter} : n.stage = .built filters →
      Steps hash utcOffset n .lookForFiles
        { n with stage := .looked filters (lookForHourFiles utcOffset n.clock n.logDir) }
  | deleteFiles {filters : List BaseBloomFilter} {foundFiles : List Str} :
      n.stage = .looked filters foundFiles →
      Steps hash utcOffset n .deleteFiles { n with
        logDir := deleteOthers foundFiles n.logDir
        stage := .deleted filters foundFiles }
  | loadFiles {filters filters' : List BaseBloomFilter} {foundFiles : List Str} :
      n.stage = .deleted filters foundFiles →
      importFiles hash n.clock n.engine n.logDir foundFiles filters = .ok filters' →
      Steps hash utcOffset n .loadFiles { n with stage := .loaded filters' }
  | swapFilters {filters : List BaseBloomFilter} : n.stage = .loaded filters →
      Steps hash utcOffset n .swapFilters
        { n with engine := { n.engine with filters := filters }, stage := .idle }
  | takeRecord {msg : Str} {rest : List Str} : n.hand = none → n.engine.logQueue = msg :: rest →
      Steps hash utcOffset n .takeRecord
        { n with engine := { n.engine with logQueue := rest }, hand := some msg }
  | appendRecord {msg : Str} : n.hand = some msg →
      Steps hash utcOffset n .appendRecord
        { n with logDir := writeLog utcOffset n.clock n.logDir msg, hand := none }
  | rotate {e : Engine} : n.engine.rotateFilters = .ok e →
      Steps hash utcOffset n .rotate { n with engine := e }

variable {hash : HashCalls} {utcOffset : ℤ} {n n' : Node} {a : Action}

lemma steps_of_step (h : n.step hash utcOffset a = some n') : Steps hash utcOffset n a n' := by
  cases a with
  | tick seconds =>
    simp only [step] at h
    split at h
    · cases h
      exact .tick ‹_›
    · cases h
  | revokeJwt data =>
    simp only [step] at h
    split at h
    · cases h
    · split at h
      · split_ifs at h
        cases h
        exact .revokeJwt ‹_› ‹_›
      · cases h
    · cases h
  | adjust data =>
    simp only [step] at h
    split at h
    · split at h
      · cases h
        exact .adjust ‹_› ‹_› ‹_›
      · cases h
    · cases h
  | lookForFiles =>
    simp only [step] at h
    split at h
    · cases h
      exact .lookForFiles ‹_›
    · cases h
  | deleteFiles =>
    simp only [step] at h
    split at h
    · cases h
      exact .deleteFiles ‹_›
    · cases h
  | loadFiles =>
    simp only [step] at h
    split at h
    · split at h
      · cases h
        exact .loadFiles ‹_› ‹_›
      · cases h
    · cases h
  | swapFilters =>
    simp only [step] at h
    split at h
    · cases h
      exact .swapFilters ‹_›
    · cases h
  | takeRecord =>
    simp only [step] at h
    split at h
    · cases h
      exact .takeRecord ‹_› ‹_›
    · cases h
  | appendRecord =>
    simp only [step] at h
    split at h
    · cases h
      exact .appendRecord ‹_›
    · cases h
  | rotate =>
    simp only [step] at h
    split at h
    · cases h
      exact .rotate ‹_›
    · cases h

lemma newFilters_returns {p : Params} {w w' : World} {filters : List BaseBloomFilter} :
    Returns (newFilters p) w filters w' ↔
      0 < p.rotationInterval.toNat ∧ w' = { w with engine := w.engine.withParams p } ∧
        getNewFilters (p.maxJwtLifeTime.toNat / p.rotationInterval.toNat)
          p.bloomFilterSize.toNat p.hashFunctionNum.toNat = .ok filters := by
  simp only [newFilters, returns_bind, returns_world, returns_lift, storeParams_returns]
  constructor
  · rintro ⟨-, _, ⟨hpos, rfl⟩, _, _, ⟨rfl, rfl⟩, hnew, rfl⟩
    exact ⟨hpos, rfl, hnew⟩
  · rintro ⟨hpos, rfl, hnew⟩
    exact ⟨(), _, ⟨hpos, rfl⟩, _, _, ⟨rfl, rfl⟩, hnew, rfl⟩

end Node

end JwtRevoker
