import JwtRevoker.CoroutineSafeQueue
import JwtRevoker.ProxyQuery

/-!
# The coroutines of a client connection

`handleClient` makes three coroutines and awaits them one after the other. Each
of them begins to run when it is awaited and none of their loops returns, so the
second and the third stay where they are and no request is answered.
-/
namespace JwtRevoker.HandleClient

open StepRuns CoroutineSafeQueue JsonText

/-- The coroutines in the order they are awaited in. -/
inductive Task
  | recv
  | send
  | process
  deriving DecidableEq, Repr

/-- Where `handleClient` itself is; `ended` after its `catch` clause. -/
inductive Handler
  | start
  | awaiting (task : Task)
  | ended
  deriving DecidableEq, Repr

/-- `processTask` is the consumer of `recvQueue` and `sendTask` that of
`sendQueue`. `incoming` are the frames on the socket, `writing` is the response
`sendTask` has taken; `received` and `written` record the traffic. -/
structure Connection where
  handler : Handler := .start
  recvQueue : Queue Str := {}
  sendQueue : Queue Str := {}
  writing : Option Str := none
  engine : Engine
  incoming : List Str := []
  received : List Str := []
  written : List Str := []

/-- The coroutines that have begun to run: those `handleClient` has come to await. -/
def Connection.running (c : Connection) : List Task :=
  match c.handler with
  | .awaiting .recv => [.recv]
  | .awaiting .send => [.recv, .send]
  | .awaiting .process => [.recv, .send, .process]
  | _ => []

/-- Steps of the client, of other users of the engine, of the timers, and of the
four coroutines. -/
inductive Action
  | clientSends (frame : Str)
  | readError
  | otherCalls (e : Engine)
  | start
  | receive
  | process (now : ℤ)
  | processTimer
  | processResumes
  | send
  | sendTimer
  | sendResumes
  | write

/-- The steps the connection takes by itself, that is those that wait for neither
the client nor another user of the engine. -/
def Action.Internal : Action → Prop
  | .clientSends _ | .readError | .otherCalls _ => False
  | _ => True

section Step

variable (J : JsonLib) (hash : HashCalls) (nodeRole : NodeRole)
  (proxyQuery : Str → ℤ → Except Fault Bool)

def step (c : Connection) : Action → Option Connection
  | .clientSends frame => some { c with incoming := c.incoming ++ [frame] }
  | .readError => if .recv ∈ c.running then some { c with handler := .ended } else none
  | .otherCalls e => some { c with engine := e }
  | .start =>
      match c.handler with
      | .start => some { c with handler := .awaiting .recv }
      | _ => none
  | .receive =>
      if .recv ∈ c.running then
        match c.incoming with
        | frame :: rest => some { c with
            incoming := rest
            recvQueue := c.recvQueue.enqueue frame
            received := c.received ++ [frame] }
        | [] => none
      else none
  | .process now =>
      if .process ∈ c.running then
        match c.recvQueue.dequeue with
        | some (some message, recvQueue) =>
            match Server.processTask J hash now nodeRole proxyQuery c.engine message with
            | .ok (e, none) => some { c with recvQueue := recvQueue, engine := e }
            | .ok (e, some resp) => some { c with
                recvQueue := recvQueue
                engine := e
                sendQueue := c.sendQueue.enqueue resp }
            | .error _ => none
        | some (none, recvQueue) => some { c with recvQueue := recvQueue }
        | none => none
      else none
  | .processTimer => c.recvQueue.expire.map fun q => { c with recvQueue := q }
  | .processResumes => c.recvQueue.resume.map fun q => { c with recvQueue := q }
  | .send =>
      if .send ∈ c.running ∧ c.writing = none then
        c.sendQueue.dequeue.map fun r => { c with sendQueue := r.2, writing := r.1 }
      else none
  | .sendTimer => c.sendQueue.expire.map fun q => { c with sendQueue := q }
  | .sendResumes => c.sendQueue.resume.map fun q => { c with sendQueue := q }
  | .write =>
      match c.writing with
      | some resp => some { c with writing := none, written := c.written ++ [resp] }
      | none => none

/-- The connection waits for the client: it has no step of its own. -/
def Quiescent (c : Connection) : Prop :=
  ∀ a : Action, a.Internal → step J hash nodeRole proxyQuery c a = none

/-- The tokens of the `is_jwt_revoked` requests among frames. -/
def requestTokens (frames : List Str) : List Str :=
  frames.filterMap fun frame =>
    match J.msgParse frame [] ∅ with
    | .ok (event, data) => if event = "is_jwt_revoked" then some (data.get "token") else none
    | .error _ => none

/-- The frame is a response for the token. -/
def Answers (token frame : Str) : Prop :=
  ∃ data, J.msgParse frame [] ∅ = .ok ("is_jwt_revoked_response", data) ∧ data.get "token" = token

/-- One response for each request received, in the order of the requests. -/
def AnswersInOrder (c : Connection) : Prop :=
  List.Forall₂ (Answers J) (requestTokens J c.received) c.written

end Step

variable {J : JsonLib} {hash : HashCalls} {nodeRole : NodeRole}
  {proxyQuery : Str → ℤ → Except Fault Bool} {c c' : Connection} {a : Action}

/-- What holds as long as only the first coroutine has begun. -/
structure OnlyReceives (c : Connection) : Prop where
  running : ∀ task ∈ c.running, task = .recv
  writing : c.writing = none
  written : c.written = []

lemma OnlyReceives.step (h : OnlyReceives c)
    (hs : step J hash nodeRole proxyQuery c a = some c') : OnlyReceives c' := by
  have hsend : Task.send ∉ c.running := fun hm => Task.noConfusion (h.running _ hm)
  have hprocess : Task.process ∉ c.running := fun hm => Task.noConfusion (h.running _ hm)
  cases a with
  | clientSends frame =>
    cases hs
    exact ⟨h.running, h.writing, h.written⟩
  | readError =>
    simp only [HandleClient.step] at hs
    split_ifs at hs
    cases hs
    exact ⟨fun task hm => absurd hm List.not_mem_nil, h.writing, h.written⟩
  | otherCalls e =>
    cases hs
    exact ⟨h.running, h.writing, h.written⟩
  | start =>
    simp only [HandleClient.step] at hs
    split at hs
    · cases hs
      exact ⟨fun task hm => List.mem_singleton.mp hm, h.writing, h.written⟩
    · cases hs
  | receive =>
    simp only [HandleClient.step] at hs
    split_ifs at hs
    split at hs
    · cases hs
      exact ⟨h.running, h.writing, h.written⟩
    · cases hs
  | process now =>
    rw [HandleClient.step, if_neg hprocess] at hs
    cases hs
  | send =>
    rw [HandleClient.step, if_neg fun hn => hsend hn.1] at hs
    cases hs
  | write =>
    simp only [HandleClient.step, h.writing] at hs
    cases hs
  | processTimer | processResumes | sendTimer | sendResumes =>
    obtain ⟨q, -, rfl⟩ := Option.map_eq_some_iff.mp hs
    exact ⟨h.running, h.writing, h.written⟩

lemma requestTokens_request (hJ : J.RoundTrips) (data : Data) :
    requestTokens J [J.msgAssembly "is_jwt_revoked" data] = [data.get "token"] := by
  obtain ⟨data', hparse, hdata⟩ := JsonLib.msgParse_msgAssembly hJ "is_jwt_revoked" data
  simp only [requestTokens, List.filterMap_cons, List.filterMap_nil, hparse, if_true]
  rw [Data.get_congr (hdata _)]

/-- In every reachable state of a connection the requests are answered exactly
when there were none. -/
theorem answersInOrder_iff {e : Engine} {actions : List Action}
    (hrun : run (step J hash nodeRole proxyQuery) { engine := e } actions = some c) :
    AnswersInOrder J c ↔ requestTokens J c.received = [] := by
  have hstart : OnlyReceives { engine := e } :=
    ⟨fun task hm => absurd hm List.not_mem_nil, rfl, rfl⟩
  have h : OnlyReceives c := inv_of_run (fun _ _ _ h hs => h.step hs) hstart hrun
  rw [AnswersInOrder, h.written, List.forall₂_nil_right_iff]

/-- The request of the examples. -/
def sampleRequest : Data :=
  (AList.insert ("token" : Str) ("a" : Str) ∅).insert ("exp_time" : Str) "25"

/-- A client that only revokes asks for no response. -/
theorem answersInOrder_iff_revocation :
    ∃ c, run (step jsonText (fun _ key => key.length) .proxyNode fun _ _ => .ok false)
        { engine := {} }
        [.start, .clientSends (jsonText.msgAssembly "revoke_jwt" sampleRequest), .receive] =
          some c ∧
      c.received = [jsonText.msgAssembly "revoke_jwt" sampleRequest] ∧
      AnswersInOrder jsonText c := by
  have hrun : run (step jsonText (fun _ key => key.length) .proxyNode fun _ _ => .ok false)
      { engine := {} }
      [.start, .clientSends (jsonText.msgAssembly "revoke_jwt" sampleRequest), .receive] =
        some _ := rfl
  refine ⟨_, hrun, rfl, (answersInOrder_iff hrun).mpr ?_⟩
  obtain ⟨data, hparse, -⟩ := JsonLib.msgParse_msgAssembly roundTrips_jsonText "revoke_jwt"
    sampleRequest
  have hevent : ("revoke_jwt" : Str) ≠ "is_jwt_revoked" := by decide
  change requestTokens jsonText [jsonText.msgAssembly "revoke_jwt" sampleRequest] = []
  simp only [requestTokens, List.filterMap_cons, List.filterMap_nil, hparse, if_neg hevent]

/-- A request is received, the connection waits for the next frame, and nothing
was written. -/
theorem request_not_answered :
    ∃ c, run (step jsonText (fun _ key => key.length) .singleNode fun _ _ => .ok false)
        { engine := {} }
        [.start, .clientSends (jsonText.msgAssembly "is_jwt_revoked" sampleRequest), .receive] =
          some c ∧
      Quiescent jsonText (fun _ key => key.length) .singleNode (fun _ _ => .ok false) c ∧
      requestTokens jsonText c.received = [("a" : Str)] ∧ c.written = [] := by
  refine ⟨_, rfl, ?_, ?_, rfl⟩
  · intro a ha
    cases a with
    | clientSends | readError | otherCalls => cases ha
    | _ => rfl
  · exact requestTokens_request roundTrips_jsonText sampleRequest

end JwtRevoker.HandleClient
