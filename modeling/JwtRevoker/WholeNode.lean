import JwtRevoker.Startup

/-!
# The whole node

The constructor of `Scheduler`, the message thread, the log and rotation threads and the two
reporting threads, joined by the session with the master. What the receive thread has read is
taken by the constructor first and by the message thread from then on; what they queue goes
out on the connections. Every revocation received is logged once, and the master reads the
answers to its orders in the order of the orders.
-/
namespace JwtRevoker.WholeNode

open StepRuns Scheduler JsonText MasterTransport

/-- How far the constructor of `Scheduler` has come: the session is connected, the request for
the parameters has been queued, or the threads are up; or it has thrown. -/
inductive Phase
  | connected
  | waiting
  | up (service : NodeService.Service)
  | failed (halt : Startup.Halt)

/-- `taken` are the messages that `recvMsg` has returned. The `sendQueue` of the service are the
frames that the message thread has still to hand to `asyncSendMsg`, where it waits. -/
structure State where
  phase : Phase := .connected
  transport : Transport
  taken : List Str := []

def State.running (s : State) : Bool :=
  match s.phase with
  | .up n => n.running
  | .failed _ => false
  | .connected | .waiting => true

/-- The steps of the log and rotation threads and of the clock, of the session's own threads,
and of those that use its queues. -/
inductive Action
  | request
  | configure (now : ℤ)
  | handle
  | acknowledge
  | keepalive
  | statusReport
  | service (a : NodeService.Action)
  | transport (a : MasterTransport.Action)

def withOutbox (n : NodeService.Service) (frames : List Str) : NodeService.Service :=
  { n with state := { n.state with sendQueue := frames } }

/-- The message thread alone handles messages. -/
def isMessage : NodeService.Action → Bool
  | .message _ => true
  | _ => false

/-- The session's own threads neither queue a frame nor take a message. -/
def isCall : MasterTransport.Action → Bool
  | .session (.asyncSendMsg _) | .session .recvMsg => true
  | _ => false

section Step

variable (J : JsonLib) (hash : HashCalls) (utcOffset : ℤ) (host : Startup.Host) (config : Data)
  (write : Str → Except Fault Unit)

def transportStep (t : Transport) (a : MasterTransport.Action) : Option Transport :=
  MasterTransport.step J (config.get "client_uid") (config.get "token") t a

def serviceStep (n : NodeService.Service) (a : NodeService.Action) : Option NodeService.Service :=
  NodeService.step J hash utcOffset (config.get "client_uid") host.resolve write n a

/-- The frame that an action hands to `asyncSendMsg`. -/
def gives (s : State) : Action → Option Str
  | .request => some (Startup.configRequest J (config.get "client_uid"))
  | .acknowledge =>
      match s.phase with
      | .up n => n.state.sendQueue.head?
      | _ => none
  | .keepalive => some (keepaliveWorker J (config.get "client_uid") (config.get "server_port"))
  | .statusReport =>
      match s.phase with
      | .up n => some (bloomFilterStatusReport J (config.get "client_uid") n.engine)
      | _ => none
  | _ => none

/-- A call of `asyncSendMsg` that leads to another phase. -/
def asyncSendMsg (s : State) (frame : Str) (phase : Phase) : Option State :=
  (transportStep J config s.transport (.session (.asyncSendMsg frame))).map fun t =>
    { s with transport := t, phase := phase }

/-- A call of `recvMsg` with what becomes of its message. -/
def recvMsg (s : State) (handled : Str → Option Phase) : Option State := do
  let msg ← s.transport.session.recvQueue.head?
  let t ← transportStep J config s.transport (.session .recvMsg)
  let phase ← handled msg
  return { phase := phase, transport := t, taken := s.taken ++ [msg] }

/-- The rest of the constructor, from the first message on. Its threads take the frames over. -/
def configured (now : ℤ) (t : Transport) (msg : Str) : Phase :=
  match Startup.scheduler J hash utcOffset now { host with reply := some msg } config t with
  | .ok process => .up (withOutbox process.service [])
  | .error halt => .failed halt

def step (s : State) (a : Action) : Option State :=
  if s.running then
    match a, s.phase with
    | .request, .connected =>
        asyncSendMsg J config s (Startup.configRequest J (config.get "client_uid")) .waiting
    | .configure now, .waiting =>
        recvMsg J config s fun msg =>
          some (configured J hash utcOffset host config now s.transport msg)
    | .handle, .up n =>
        if n.state.sendQueue = [] then
          recvMsg J config s fun msg =>
            (serviceStep J hash utcOffset host config write n (.message msg)).map .up
        else none
    | .acknowledge, .up n =>
        match n.state.sendQueue with
        | frame :: frames => asyncSendMsg J config s frame (.up (withOutbox n frames))
        | [] => none
    | .keepalive, .up n =>
        asyncSendMsg J config s
          (keepaliveWorker J (config.get "client_uid") (config.get "server_port")) (.up n)
    | .statusReport, .up n =>
        asyncSendMsg J config s
          (bloomFilterStatusReport J (config.get "client_uid") n.engine) (.up n)
    | .service a, .up n =>
        if isMessage a then none
        else (serviceStep J hash utcOffset host config write n a).map fun n =>
          { s with phase := .up n }
    | .transport a, _ =>
        if isCall a then none
        else (transportStep J config s.transport a).map fun t => { s with transport := t }
    | _, _ => none
  else none

/-- What the steps do when they are taken. -/
inductive Steps (s : State) : Action → State → Prop
  | request {t : Transport} : s.phase = .connected →
      transportStep J config s.transport (.session (.asyncSendMsg
        (Startup.configRequest J (config.get "client_uid")))) = some t →
      Steps s .request { s with transport := t, phase := .waiting }
  | configure {now : ℤ} {msg : Str} {rest : List Str} {t : Transport} : s.phase = .waiting →
      s.transport.session.recvQueue = msg :: rest →
      transportStep J config s.transport (.session .recvMsg) = some t →
      Steps s (.configure now)
        ⟨configured J hash utcOffset host config now s.transport msg, t, s.taken ++ [msg]⟩
  | handle {n n' : NodeService.Service} {msg : Str} {rest : List Str} {t : Transport} :
      s.phase = .up n → n.state.sendQueue = [] →
      s.transport.session.recvQueue = msg :: rest →
      transportStep J config s.transport (.session .recvMsg) = some t →
      serviceStep J hash utcOffset host config write n (.message msg) = some n' →
      Steps s .handle ⟨.up n', t, s.taken ++ [msg]⟩
  | acknowledge {n : NodeService.Service} {frame : Str} {frames : List Str} {t : Transport} :
      s.phase = .up n → n.state.sendQueue = frame :: frames →
      transportStep J config s.transport (.session (.asyncSendMsg frame)) = some t →
      Steps s .acknowledge { s with transport := t, phase := .up (withOutbox n frames) }
  | report {n : NodeService.Service} {a : Action} {frame : Str} {t : Transport} :
      s.phase = .up n → a = .keepalive ∨ a = .statusReport → gives J config s a = some frame →
      transportStep J config s.transport (.session (.asyncSendMsg frame)) = some t →
      Steps s a { s with transport := t, phase := .up n }
  | service {n n' : NodeService.Service} {a : NodeService.Action} : s.phase = .up n →
      isMessage a = false → serviceStep J hash utcOffset host config write n a = some n' →
      Steps s (.service a) { s with phase := .up n' }
  | transport {a : MasterTransport.Action} {t : Transport} : isCall a = false →
      transportStep J config s.transport a = some t →
      Steps s (.transport a) { s with transport := t }

end Step

/-- The step of the session in a step of its connections. -/
def sessionAction : MasterTransport.Action → MasterSession.Action
  | .session a => a
  | .writeFails _ => .writeFails
  | .connect _ => .connect

/-- The message that the receive thread reads in a step. -/
def receivedBy : MasterSession.Action → Option Str
  | .recvOk msg => some msg
  | _ => none

def Action.received : Action → Option Str
  | .transport a => receivedBy (sessionAction a)
  | _ => none

/-- The record a message asks for. -/
def recordOf (J : JsonLib) (msg : Str) : Option Str := NodeService.Action.record J (.message msg)

/-- The frame acknowledges an order. -/
def isAck (J : JsonLib) (frame : Str) : Bool :=
  match J.msgParse frame [] ∅ with
  | .ok (event, _) => decide (event = "adjust_bloom_filter_done")
  | .error _ => false

variable {J : JsonLib} {hash : HashCalls} {utcOffset : ℤ} {host : Startup.Host} {config : Data}
  {write : Str → Except Fault Unit} {s s' : State} {a : Action} {actions : List Action}
  {t t' : Transport} {frame msg : Str}

lemma recvMsg_eq_some {handled : Str → Option Phase} :
    recvMsg J config s handled = some s' ↔
      ∃ msg rest t phase, s.transport.session.recvQueue = msg :: rest ∧
        transportStep J config s.transport (.session .recvMsg) = some t ∧
        handled msg = some phase ∧ s' = ⟨phase, t, s.taken ++ [msg]⟩ := by
  simp only [recvMsg, Option.bind_eq_bind, Option.bind_eq_some_iff, Option.pure_def,
    Option.some.injEq, List.head?_eq_some_iff]
  constructor
  · rintro ⟨msg, ⟨rest, hqueue⟩, t, ht, phase, hphase, rfl⟩
    exact ⟨msg, rest, t, phase, hqueue, ht, hphase, rfl⟩
  · rintro ⟨msg, rest, t, phase, hqueue, ht, hphase, rfl⟩
    exact ⟨msg, ⟨rest, hqueue⟩, t, ht, phase, hphase, rfl⟩

lemma steps_of_step (h : step J hash utcOffset host config write s a = some s') :
    s.running = true ∧ Steps J hash utcOffset host config write s a s' := by
  unfold step at h
  split_ifs at h with hrunning
  refine ⟨hrunning, ?_⟩
  split at h
  · obtain ⟨t, ht, rfl⟩ := Option.map_eq_some_iff.mp h
    exact .request ‹_› ht
  · obtain ⟨msg, rest, t, phase, hqueue, ht, hphase, rfl⟩ := recvMsg_eq_some.mp h
    cases hphase
    exact .configure ‹_› hqueue ht
  · split_ifs at h with houtbox
    obtain ⟨msg, rest, t, phase, hqueue, ht, hphase, rfl⟩ := recvMsg_eq_some.mp h
    obtain ⟨n', hn', rfl⟩ := Option.map_eq_some_iff.mp hphase
    exact .handle ‹_› houtbox hqueue ht hn'
  · split at h
    · obtain ⟨t, ht, rfl⟩ := Option.map_eq_some_iff.mp h
      exact .acknowledge ‹_› ‹_› ht
    · cases h
  · obtain ⟨t, ht, rfl⟩ := Option.map_eq_some_iff.mp h
    exact .report ‹_› (.inl rfl) rfl ht
  · rename_i n hphase
    obtain ⟨t, ht, rfl⟩ := Option.map_eq_some_iff.mp h
    exact .report hphase (.inr rfl) (by rw [gives, hphase]) ht
  · split_ifs at h with hmessage
    obtain ⟨n', hn', rfl⟩ := Option.map_eq_some_iff.mp h
    exact .service ‹_› (Bool.eq_false_iff.mpr hmessage) hn'
  · split_ifs at h with hcall
    obtain ⟨t, ht, rfl⟩ := Option.map_eq_some_iff.mp h
    exact .transport (Bool.eq_false_iff.mpr hcall) ht
  · cases h

section Session

lemma session_of_step {a : MasterTransport.Action} (h : transportStep J config t a = some t') :
    MasterSession.step t.session (sessionAction a) = some t'.session := by
  unfold transportStep MasterTransport.step at h
  cases a with
  | session b =>
    dsimp only at h
    split_ifs at h
    obtain ⟨s, hs, rfl⟩ := Option.map_eq_some_iff.mp h
    exact hs
  | writeFails part =>
    dsimp only at h
    split at h
    · split_ifs at h
      obtain ⟨s, hs, rfl⟩ := Option.map_eq_some_iff.mp h
      exact hs
    · cases h
  | connect attempts =>
    dsimp only at h
    split at h
    · obtain ⟨s, hs, rfl⟩ := Option.map_eq_some_iff.mp h
      exact hs
    · cases h

variable {q q' : MasterSession.State} {b : MasterSession.Action}

lemma queues_of_asyncSendMsg (h : MasterSession.step q (.asyncSendMsg frame) = some q') :
    q'.given = q.given ++ [frame] ∧ q'.recvQueue = q.recvQueue := by
  simp only [MasterSession.step] at h
  split_ifs at h
  cases h
  exact ⟨rfl, rfl⟩

lemma queues_of_recvMsg {rest : List Str} (hqueue : q.recvQueue = msg :: rest)
    (h : MasterSession.step q .recvMsg = some q') :
    q'.given = q.given ∧ q'.recvQueue = rest := by
  simp only [MasterSession.step, hqueue] at h
  cases h
  exact ⟨rfl, rfl⟩

/-- The session's own threads give nothing, and what they read stands in the queue. -/
lemma queues_of_own (hb : isCall (.session b) = false) (h : MasterSession.step q b = some q') :
    q'.given = q.given ∧ q'.recvQueue = q.recvQueue ++ (receivedBy b).toList := by
  cases b with
  | asyncSendMsg | recvMsg => cases hb
  | sendLoop | recvLoop | recvOk | recvFails | watch | joinSend | joinRecv | connect =>
    simp only [MasterSession.step] at h
    split_ifs at h
    all_goals
      cases h
      simp [receivedBy]
  | sendDequeue | writeOk =>
    simp only [MasterSession.step] at h
    split at h
    · cases h
      simp [receivedBy]
    · cases h
  | writeFails =>
    simp only [MasterSession.step] at h
    split at h
    · split_ifs at h
      cases h
      simp [receivedBy]
    · cases h

lemma isCall_sessionAction {a : MasterTransport.Action} (ha : isCall a = false) :
    isCall (.session (sessionAction a)) = false := by
  cases a with
  | session b => exact ha
  | writeFails | connect => rfl

end Session

lemma isAck_msgAssembly (hJ : J.RoundTrips) (event : Str) (data : Data) :
    isAck J (J.msgAssembly event data) = decide (event = "adjust_bloom_filter_done") := by
  obtain ⟨data', hparse, -⟩ := JsonLib.msgParse_msgAssembly hJ event data
  rw [isAck, hparse]

lemma isAck_of_orderAck (hJ : J.RoundTrips) {clientUid : Str}
    (h : orderAck J clientUid msg = some frame) : isAck J frame = true := by
  have hack (uuid : Str) (role : NodeRole) :
      isAck J (Scheduler.ack J clientUid uuid role) = true := by
    rw [Scheduler.ack, isAck_msgAssembly hJ]
    exact decide_eq_true rfl
  unfold orderAck ownerAck at h
  split at h
  · split_ifs at h
    all_goals
      cases h
      exact hack _ _
  · cases h

/-- The messages taken are those received, as far as they are not in the queue. -/
lemma taken_step (h : step J hash utcOffset host config write s a = some s') :
    s'.taken ++ s'.transport.session.recvQueue =
      s.taken ++ s.transport.session.recvQueue ++ a.received.toList := by
  obtain ⟨-, hs⟩ := steps_of_step h
  cases hs with
  | request _ ht | acknowledge _ _ ht =>
    obtain ⟨-, hrecv⟩ := queues_of_asyncSendMsg (session_of_step ht)
    simp [hrecv, Action.received]
  | report _ ha _ ht =>
    obtain ⟨-, hrecv⟩ := queues_of_asyncSendMsg (session_of_step ht)
    rcases ha with rfl | rfl <;> simp [hrecv, Action.received]
  | configure _ hqueue ht | handle _ _ hqueue ht =>
    obtain ⟨-, hrest⟩ := queues_of_recvMsg hqueue (session_of_step ht)
    simp [hqueue, hrest, Action.received]
  | service => simp [Action.received]
  | transport ha ht =>
    obtain ⟨-, hrecv⟩ := queues_of_own (isCall_sessionAction ha) (session_of_step ht)
    simp [hrecv, Action.received]

/-- The records and the acknowledgements of a node that is up are those of the messages handled,
as far as it lives; `given` are the frames handed to the session. -/
structure Serves (J : JsonLib) (clientUid : Str) (given handled : List Str)
    (n : NodeService.Service) : Prop where
  atWork : NodeService.AtWork n
  outbox : ∀ frame ∈ n.state.sendQueue, isAck J frame = true
  records : n.running = true → n.records = handled.filterMap (recordOf J)
  written : n.written <+: handled.filterMap (recordOf J)
  acks : n.running = true →
    given.filter (isAck J) ++ n.state.sendQueue = handled.filterMap (orderAck J clientUid)
  given : given.filter (isAck J) <+: handled.filterMap (orderAck J clientUid)

/-- The first message taken is that of the constructor; before it there is nothing to answer. -/
def Kept (J : JsonLib) (clientUid : Str) (given taken : List Str) : Phase → Prop
  | .connected | .waiting => taken = [] ∧ given.filter (isAck J) = []
  | .up n => Serves J clientUid given taken.tail n ∧ taken ≠ []
  | .failed _ => given.filter (isAck J) = []

variable {clientUid : Str} {given handled : List Str} {n n' : NodeService.Service}

/-- The message thread handles the next message once it has handed all its frames over. -/
lemma Serves.handle (hJ : J.RoundTrips) (h : Serves J (config.get "client_uid") given handled n)
    (houtbox : n.state.sendQueue = [])
    (hs : serviceStep J hash utcOffset host config write n (.message msg) = some n') :
    Serves J (config.get "client_uid") given (handled ++ [msg]) n' := by
  have hrunning := NodeService.running_of_step hs
  obtain ⟨hrecords, hwritten⟩ := h.atWork.records_step hs
  obtain ⟨hqueue, hpre⟩ := NodeService.sendQueue_of_step hs
  have hacks := h.acks hrunning
  rw [houtbox, List.append_nil] at hacks
  rw [houtbox, List.nil_append] at hqueue hpre
  refine ⟨h.atWork.step hs, fun frame hmem => ?_, fun hr => ?_, ?_, fun hr => ?_, ?_⟩
  · have hmem := hpre.subset hmem
    rw [Option.mem_toList] at hmem
    exact isAck_of_orderAck hJ hmem
  · rw [hrecords hr, h.records hrunning, List.filterMap_append]
    rfl
  · rw [h.records hrunning] at hwritten
    rw [List.filterMap_append]
    exact hwritten.trans (List.prefix_append _ _)
  · rw [hqueue hr, hacks, List.filterMap_append]
    rfl
  · rw [hacks, List.filterMap_append]
    exact List.prefix_append _ _

/-- The message thread hands a frame over. -/
lemma Serves.acknowledge {frames : List Str} (h : Serves J clientUid given handled n)
    (hrunning : n.running = true) (houtbox : n.state.sendQueue = frame :: frames) :
    Serves J clientUid (given ++ [frame]) handled (withOutbox n frames) := by
  have hacks := h.acks hrunning
  have hack := h.outbox frame (by simp [houtbox])
  rw [houtbox] at hacks
  refine ⟨⟨h.atWork.nodeRole, h.atWork.shaped, h.atWork.forwarded⟩, fun other hmem => ?_,
    h.records, h.written, fun _ => ?_, ?_⟩
  · exact h.outbox other (by rw [houtbox]; exact List.mem_cons_of_mem _ hmem)
  · rw [← hacks, List.filter_append]
    simp [withOutbox, hack]
  · rw [← hacks, List.filter_append]
    simp [hack]

lemma filter_of_not_ack (hframe : isAck J frame = false) :
    (given ++ [frame]).filter (isAck J) = given.filter (isAck J) := by
  simp [hframe]

/-- The frames of the reporting threads change nothing. -/
lemma Serves.report (h : Serves J clientUid given handled n) (hframe : isAck J frame = false) :
    Serves J clientUid (given ++ [frame]) handled n := by
  refine ⟨h.atWork, h.outbox, h.records, h.written, ?_, ?_⟩
  · rw [filter_of_not_ack hframe]
    exact h.acks
  · rw [filter_of_not_ack hframe]
    exact h.given

/-- Nor do the steps of the log and rotation threads. -/
lemma Serves.service {b : NodeService.Action}
    (h : Serves J (config.get "client_uid") given handled n) (hb : isMessage b = false)
    (hs : serviceStep J hash utcOffset host config write n b = some n') :
    Serves J (config.get "client_uid") given handled n' := by
  have hrunning := NodeService.running_of_step hs
  obtain ⟨hrecords, hwritten⟩ := h.atWork.records_step hs
  obtain ⟨hqueue, hpre⟩ := NodeService.sendQueue_of_step hs
  have hrecord : b.record J = none := by
    cases b with
    | message => cases hb
    | tick | takeRecord | appendRecord | rotate => rfl
  have hack : b.ack J (config.get "client_uid") = none := by
    cases b with
    | message => cases hb
    | tick | takeRecord | appendRecord | rotate => rfl
  rw [hrecord, Option.toList_none, List.append_nil] at hrecords
  rw [hack, Option.toList_none, List.append_nil] at hqueue hpre
  refine ⟨h.atWork.step hs, fun frame hmem => h.outbox frame (hpre.subset hmem), fun hr => ?_,
    ?_, fun hr => ?_, h.given⟩
  · rw [hrecords hr, h.records hrunning]
  · rw [← h.records hrunning]
    exact hwritten
  · rw [hqueue hr, h.acks hrunning]

/-- The node that the constructor leaves has handled nothing. -/
lemma serves_of_scheduler {now : ℤ} {process : Startup.Process}
    (h : Startup.scheduler J hash utcOffset now host config t = .ok process)
    (hgiven : given.filter (isAck J) = []) :
    Serves J clientUid given [] (withOutbox process.service []) := by
  obtain ⟨-, msg, event, data, world, -, -, hinit, rfl⟩ := Startup.scheduler_eq_ok.mp h
  obtain ⟨-, dir, -, hconstruct⟩ := Startup.initEngine_eq_ok.mp hinit
  obtain ⟨-, p, -, hi⟩ := Startup.construct_returns.mp hconstruct
  have hbuilt := (Engine.init_returns.mp hi).2
  obtain ⟨-, -, -, hshaped, -⟩ := hbuilt.run
  have hqueue : world.engine.logQueue = [] := by
    rw [hbuilt.engine_eq]
    rfl
  have hrecords : (withOutbox (Startup.started J now config t world).service []).records = [] :=
    hqueue
  refine ⟨⟨fun _ => NodeRole.noConfusion, fun _ => hshaped, rfl⟩, ?_, fun _ => hrecords,
    List.prefix_rfl, fun _ => ?_, ?_⟩
  · intro frame hmem
    cases hmem
  · rw [hgiven]
    rfl
  · rw [hgiven]
    exact List.nil_prefix

lemma kept_of_configured {now : ℤ} (hgiven : given.filter (isAck J) = []) :
    Kept J clientUid given [msg] (configured J hash utcOffset host config now t frame) := by
  unfold configured
  split
  · exact ⟨serves_of_scheduler ‹_› hgiven, List.cons_ne_nil _ _⟩
  · exact hgiven

lemma Kept.step (hJ : J.RoundTrips)
    (h : Kept J (config.get "client_uid") s.transport.session.given s.taken s.phase)
    (hs : step J hash utcOffset host config write s a = some s') :
    Kept J (config.get "client_uid") s'.transport.session.given s'.taken s'.phase := by
  obtain ⟨hrunning, hs⟩ := steps_of_step hs
  unfold State.running at hrunning
  cases hs with
  | request hphase ht =>
    rw [hphase] at h
    obtain ⟨htaken, hgiven⟩ := h
    obtain ⟨hgive, -⟩ := queues_of_asyncSendMsg (session_of_step ht)
    have hack : isAck J (Startup.configRequest J (config.get "client_uid")) = false := by
      rw [Startup.configRequest, isAck_msgAssembly hJ]
      decide
    exact ⟨htaken, by rw [hgive, filter_of_not_ack hack, hgiven]⟩
  | configure hphase hqueue ht =>
    rw [hphase] at h
    obtain ⟨htaken, hgiven⟩ := h
    obtain ⟨hgive, -⟩ := queues_of_recvMsg hqueue (session_of_step ht)
    rw [htaken, hgive]
    exact kept_of_configured hgiven
  | handle hphase houtbox hqueue ht hn =>
    rw [hphase] at h
    obtain ⟨hserves, hne⟩ := h
    obtain ⟨hgive, -⟩ := queues_of_recvMsg hqueue (session_of_step ht)
    refine ⟨?_, by simp⟩
    rw [hgive, List.tail_append_of_ne_nil hne]
    exact hserves.handle hJ houtbox hn
  | acknowledge hphase houtbox ht =>
    rw [hphase] at h hrunning
    obtain ⟨hserves, hne⟩ := h
    obtain ⟨hgive, -⟩ := queues_of_asyncSendMsg (session_of_step ht)
    rw [hgive]
    exact ⟨hserves.acknowledge hrunning houtbox, hne⟩
  | @report n a frame t hphase ha hgives ht =>
    rw [hphase] at h
    obtain ⟨hserves, hne⟩ := h
    obtain ⟨hgive, -⟩ := queues_of_asyncSendMsg (session_of_step ht)
    have hack : isAck J frame = false := by
      rcases ha with rfl | rfl
      · cases hgives
        rw [keepaliveWorker, isAck_msgAssembly hJ]
        decide
      · rw [gives, hphase] at hgives
        cases hgives
        rw [bloomFilterStatusReport, isAck_msgAssembly hJ]
        decide
    rw [hgive]
    exact ⟨hserves.report hack, hne⟩
  | service hphase hb hn =>
    rw [hphase] at h
    obtain ⟨hserves, hne⟩ := h
    exact ⟨hserves.service hb hn, hne⟩
  | transport ha ht =>
    obtain ⟨hgive, -⟩ := queues_of_own (isCall_sessionAction ha) (session_of_step ht)
    rw [hgive]
    exact h

/-- The frames that the threads hand to the session can be sent. -/
def GivesSendable (J : JsonLib) (config : Data) (s : State) (a : Action) : Prop :=
  ∀ frame ∈ gives J config s a, Sendable frame

lemma givesSendable_of_own {b : MasterTransport.Action} (hb : isCall b = false) :
    MasterTransport.GivesSendable t b := by
  cases b with
  | session b =>
    cases b with
    | asyncSendMsg | recvMsg => cases hb
    | sendLoop | sendDequeue | writeOk | writeFails | recvLoop | recvOk | recvFails | watch
    | joinSend | joinRecv | connect => trivial
  | writeFails | connect => trivial

lemma inv_transport_step {hello' : Str}
    (hhello' : hello' = hello J (config.get "client_uid") (config.get "token"))
    (hhello : Sendable hello') (h : Inv J hello' s.transport)
    (hgives : GivesSendable J config s a)
    (hs : step J hash utcOffset host config write s a = some s') :
    Inv J hello' s'.transport := by
  subst hhello'
  have hgive (frame : Str) (t : Transport) (hframe : Sendable frame)
      (ht : transportStep J config s.transport (.session (.asyncSendMsg frame)) = some t) :=
    Inv.step hhello h (show MasterTransport.GivesSendable _ (.session (.asyncSendMsg frame)) from
      hframe) ht
  have htake (t : Transport)
      (ht : transportStep J config s.transport (.session .recvMsg) = some t) :=
    Inv.step hhello h (show MasterTransport.GivesSendable _ (.session .recvMsg) from trivial) ht
  obtain ⟨-, hs⟩ := steps_of_step hs
  cases hs with
  | request _ ht => exact hgive _ _ (hgives _ rfl) ht
  | configure _ _ ht | handle _ _ _ ht _ => exact htake _ ht
  | @acknowledge n frame frames t hphase houtbox ht =>
    have hframe : gives J config s .acknowledge = some frame := by
      simp only [gives, hphase, houtbox, List.head?_cons]
    exact hgive _ _ (hgives _ hframe) ht
  | report _ _ hframe ht => exact hgive _ _ (hgives _ hframe) ht
  | service => exact h
  | transport hb ht => exact Inv.step hhello h (givesSendable_of_own hb) ht

lemma taken_of_run
    (hrun : run (step J hash utcOffset host config write) s actions = some s') :
    s'.taken ++ s'.transport.session.recvQueue =
      s.taken ++ s.transport.session.recvQueue ++ actions.filterMap Action.received := by
  induction actions generalizing s with
  | nil =>
    cases hrun
    simp
  | cons a actions ih =>
    obtain ⟨s₁, h₁, hrun⟩ := run_cons_eq_some.mp hrun
    rw [ih hrun, taken_step h₁, List.filterMap_cons]
    cases a.received <;> simp

lemma Kept.sublist {taken : List Str} {phase : Phase} (h : Kept J clientUid given taken phase) :
    (given.filter (isAck J)).Sublist (taken.tail.filterMap (orderAck J clientUid)) := by
  cases phase with
  | connected | waiting =>
    rw [h.2]
    exact List.nil_sublist _
  | up n => exact h.1.given.sublist
  | failed halt =>
    rw [show given.filter (isAck J) = [] from h]
    exact List.nil_sublist _

/-- From the connection to the master on: every message the master sends and a connection brings
is taken once and in order, the first by the constructor. The revocations among the others are
logged, and the acknowledgements that the master can read of all connections together are those
of its orders, none twice and in the order of the orders. -/
theorem master_reads_answers {transport : Transport} (hJ : J.RoundTrips)
    (hsession : Startup.session J host config = .ok transport)
    (hhello : Sendable (hello J (config.get "client_uid") (config.get "token")))
    (hgives : AllSteps (step J hash utcOffset host config write) (GivesSendable J config)
      { transport := transport } actions)
    (hrun : run (step J hash utcOffset host config write) { transport := transport } actions =
      some s') :
    s'.taken ++ s'.transport.session.recvQueue = actions.filterMap Action.received ∧
    (∀ n, s'.phase = .up n →
      n.written <+: s'.taken.tail.filterMap (recordOf J) ∧
      (n.running = true → n.records = s'.taken.tail.filterMap (recordOf J))) ∧
    ∀ inputs, List.Forall₂ (fun input (c : Connection) => input <+: c.bytes) inputs
        s'.transport.connections →
      ∀ k, ∃ read, List.Forall₂
          (Reads (hello J (config.get "client_uid") (config.get "token")) k) inputs read ∧
        (read.flatten.filter (isAck J)).Sublist
          (s'.taken.tail.filterMap (orderAck J (config.get "client_uid"))) := by
  obtain ⟨-, -, -, opened, current, hconnect, rfl⟩ := Startup.session_eq_ok.mp hsession
  obtain ⟨-, -, hconnect⟩ := Startup.connect_eq_connected.mp hconnect
  have hstart : start J (config.get "client_uid") (config.get "token") host.attempts =
      some { closed := opened, current := current } := by rw [start, hconnect]
  have hstep (s : State) (a : Action) (s' : State)
      (h : Kept J (config.get "client_uid") s.transport.session.given s.taken s.phase)
      (hs : step J hash utcOffset host config write s a = some s') :
      Kept J (config.get "client_uid") s'.transport.session.given s'.taken s'.phase :=
    Kept.step hJ h hs
  have hsend (s : State) (a : Action) (s' : State)
      (h : Inv J (hello J (config.get "client_uid") (config.get "token")) s.transport)
      (hgives : GivesSendable J config s a)
      (hs : step J hash utcOffset host config write s a = some s') :
      Inv J (hello J (config.get "client_uid") (config.get "token")) s'.transport :=
    inv_transport_step rfl hhello h hgives hs
  have hnothing : Kept J (config.get "client_uid") [] [] .connected := ⟨rfl, rfl⟩
  have hkept := inv_of_run hstep hnothing hrun
  have hinv := inv_run hsend (inv_start hhello hstart) hgives hrun
  refine ⟨taken_of_run hrun, fun n hphase => ?_, fun inputs hinputs k => ?_⟩
  · rw [hphase] at hkept
    exact ⟨hkept.1.written, hkept.1.records⟩
  · obtain ⟨read, hreads, hsub⟩ := hinv.reads hhello hinputs k
    exact ⟨read, hreads, (hsub.filter _).trans hkept.sublist⟩

/-- The constructor comes up on whatever connections there are. -/
lemma configured_of_scheduler {now : ℤ} {process : Startup.Process}
    (h : Startup.scheduler J hash utcOffset now host config t = .ok process)
    (hreply : host.reply = some msg) (t' : Transport) :
    configured J hash utcOffset host config now t' msg =
      .up (withOutbox process.service []) := by
  obtain ⟨hworkers, msg', event, data, world, hreply', hparse, hinit, rfl⟩ :=
    Startup.scheduler_eq_ok.mp h
  rw [hreply] at hreply'
  cases hreply'
  have hscheduler : Startup.scheduler J hash utcOffset now { host with reply := some msg } config
      t' = .ok (Startup.started J now config t' world) :=
    Startup.scheduler_eq_ok.mpr ⟨hworkers, msg, event, data, world, rfl, hparse, hinit, rfl⟩
  rw [configured, hscheduler]
  rfl

/-- Steps of the session that neither write nor connect. -/
def isQuiet : MasterSession.Action → Bool
  | .asyncSendMsg _ | .recvMsg | .writeOk | .writeFails | .connect => false
  | _ => true

lemma transportStep_quiet {b : MasterSession.Action} {q : MasterSession.State}
    (hb : isQuiet b = true) (h : MasterSession.step t.session b = some q) :
    transportStep J config t (.session b) = some { t with session := q } := by
  unfold transportStep MasterTransport.step
  cases b with
  | asyncSendMsg | recvMsg | writeOk | writeFails | connect => cases hb
  | sendLoop | sendDequeue | recvLoop | recvOk | recvFails | watch | joinSend | joinRecv =>
    simp [h, bytesOf]

lemma step_transport {b : MasterTransport.Action} (hrunning : s.running = true)
    (hb : isCall b = false) (ht : transportStep J config s.transport b = some t) :
    step J hash utcOffset host config write s (.transport b) = some { s with transport := t } := by
  rw [step.eq_def, if_pos hrunning]
  simp only [hb, ht]
  rfl

def ofSession (actions : List MasterSession.Action) : List Action :=
  actions.map fun b => .transport (.session b)

/-- Quiet steps of the session change nothing else. -/
lemma run_quiet {actions : List MasterSession.Action} {q : MasterSession.State}
    (hrunning : s.running = true) (hquiet : ∀ b ∈ actions, isQuiet b = true)
    (h : run MasterSession.step s.transport.session actions = some q) :
    run (step J hash utcOffset host config write) s (ofSession actions) =
      some { s with transport := { s.transport with session := q } } := by
  induction actions generalizing s with
  | nil =>
    cases h
    rfl
  | cons b actions ih =>
    rw [List.forall_mem_cons] at hquiet
    obtain ⟨q₁, h₁, h⟩ := run_cons_eq_some.mp h
    have hcall : isCall (.session b) = false := by
      cases b with
      | asyncSendMsg | recvMsg => cases hquiet.1
      | _ => rfl
    exact run_cons_eq_some.mpr ⟨_, step_transport hrunning hcall
      (transportStep_quiet hquiet.1 h₁), ih hrunning hquiet.2 h⟩

/-- The message thread hands its first frame over while the session has room. -/
lemma step_acknowledge {frames : List Str} (hrunning : n.running = true)
    (hphase : s.phase = .up n) (houtbox : n.state.sendQueue = frame :: frames)
    (hroom : s.transport.session.sendQueue.length < ThreadSafeQueue.queueDefaultMaxSize) :
    step J hash utcOffset host config write s .acknowledge = some { s with
      transport := { s.transport with session := { s.transport.session with
        sendQueue := s.transport.session.sendQueue ++ [frame]
        given := s.transport.session.given ++ [frame] } }
      phase := .up (withOutbox n frames) } := by
  obtain ⟨phase, t, taken⟩ := s
  subst hphase
  have hup : State.running ⟨.up n, t, taken⟩ = true := hrunning
  have hroom : t.session.sendQueue.length < ThreadSafeQueue.queueDefaultMaxSize := hroom
  rw [step.eq_def, if_pos hup]
  simp only [houtbox, asyncSendMsg, transportStep, MasterTransport.step, MasterSession.step,
    if_pos hroom, bytesOf, write_nil, reduceCtorEq, or_self, if_false, Option.map_some]

/-- The receive thread reads a message, and the message thread handles it. -/
def receives (msg : Str) : List Action := ofSession [.recvLoop, .recvOk msg] ++ [.handle]

lemma run_receives {taken : List Str} (hrunning : n.running = true)
    (houtbox : n.state.sendQueue = []) (hqueue : t.session.recvQueue = [])
    (hread : run MasterSession.step t.session [.recvLoop, .recvOk msg] =
      some { t.session with recvQueue := [msg] })
    (hn : serviceStep J hash utcOffset host config write n (.message msg) = some n') :
    run (step J hash utcOffset host config write) ⟨.up n, t, taken⟩ (receives msg) =
      some ⟨.up n', t, taken ++ [msg]⟩ := by
  have hup (t : Transport) : State.running ⟨.up n, t, taken⟩ = true := hrunning
  obtain ⟨session, closed, current⟩ := t
  obtain ⟨sendQueue, recvQueue⟩ := session
  dsimp only at hqueue
  subst hqueue
  have hquiet : ∀ b ∈ [MasterSession.Action.recvLoop, .recvOk msg], isQuiet b = true := by
    simp [isQuiet]
  refine run_append_eq_some.mpr ⟨_, run_quiet (hup _) hquiet hread, run_cons_eq_some.mpr
    ⟨_, ?_, rfl⟩⟩
  rw [step.eq_def, if_pos (hup _)]
  simp only [houtbox, if_true]
  refine recvMsg_eq_some.mpr ⟨msg, [], _, _, rfl, ?_, by rw [hn]; rfl, rfl⟩
  simp [transportStep, MasterTransport.step, MasterSession.step, bytesOf]

def sampleReply : Str :=
  jsonText.msgAssembly "bloom_filter_default_config" (configData "30" "10" "8" "1")

/-- The request goes out, and the constructor takes the reply. -/
def sampleActions : List Action :=
  [.request, .transport (.session .sendLoop), .transport (.session .sendDequeue),
    .transport (.session .writeOk), .transport (.session .recvLoop),
    .transport (.session (.recvOk sampleReply)), .configure 0]

def sampleRevocation : Str :=
  jsonText.msgAssembly "revoke_jwt"
    ((AList.insert ("token" : Str) ("a" : Str) ∅).insert ("exp_time" : Str) (stdToString 25))

lemma revocation_sample :
    ∃ data, jsonText.msgParse sampleRevocation [] ∅ = .ok ("revoke_jwt", data) ∧
      revokeRequest data = (("a" : Str), 25) := by
  obtain ⟨data, hparse, hdata⟩ := JsonLib.msgParse_msgAssembly roundTrips_jsonText "revoke_jwt"
    ((AList.insert ("token" : Str) ("a" : Str) ∅).insert ("exp_time" : Str) (stdToString 25))
  refine ⟨data, hparse, ?_⟩
  simp only [revokeRequest, Data.get, hdata]
  decide +kernel

def sampleOrderText : Str := jsonText.msgAssembly "adjust_bloom_filter" sampleOrder

/-- The master is gone, and the watchdog joins both threads. -/
def lossOfConnection : List MasterSession.Action :=
  [.recvLoop, .recvFails, .watch, .sendLoop, .joinSend, .joinRecv]

/-- A revocation, a second connection and an order, with its acknowledgement written. -/
def afterStart : List Action :=
  receives sampleRevocation ++ (ofSession lossOfConnection ++
    .transport (.connect [.refused, .answered (.ok authSuccess)]) ::
      (receives sampleOrderText ++ .acknowledge ::
        (ofSession [.sendLoop, .sendDequeue] ++ [.transport (.session .writeOk)])))

lemma givesSendable_sampleActions (huid : config.get "client_uid" = "node_0001") :
    ∀ a ∈ sampleActions, ∀ s, GivesSendable jsonText config s a := by
  have hrequest : Sendable (Startup.configRequest jsonText (config.get "client_uid")) := by
    rw [huid]
    constructor <;> decide +kernel
  intro a ha s frame hframe
  simp only [sampleActions, List.mem_cons, List.not_mem_nil, or_false] at ha
  rcases ha with rfl | rfl | rfl | rfl | rfl | rfl | rfl
  · cases hframe
    exact hrequest
  all_goals cases hframe

lemma allSteps_of_silent (h : ∀ a ∈ actions, ∀ s, gives J config s a = none) :
    AllSteps (step J hash utcOffset host config write) (GivesSendable J config) s actions := by
  refine allSteps_of_forall fun a ha s frame hframe => ?_
  rw [h a ha s] at hframe
  cases hframe

lemma sendable_ack_sample : Sendable (Scheduler.ack jsonText "node_0001" "7" .singleNode) := by
  have hentries : JsonLib.entriesByKey (doneData "node_0001" "7" .singleNode) =
      [⟨"node_role", "single_node"⟩, ⟨"node_uid", "node_0001"⟩, ⟨"uuid", "7"⟩] :=
    JsonLib.entriesByKey_of_sorted (by decide) (by decide)
  rw [Sendable, Scheduler.ack, JsonLib.msgAssembly, JsonLib.msgObject, hentries]
  constructor <;> decide +kernel

/-- The session once the constructor of `Scheduler` has taken the reply. -/
def sessionAfterStart (request : Str) : MasterSession.State where
  given := [request]
  attempts := [(request, true)]

lemma run_sampleActions (closed : List Connection) (current : Connection) :
    ∃ t t', run (step J hash utcOffset host config write)
        { transport := { closed := closed, current := current } } sampleActions =
          some ⟨configured J hash utcOffset host config 0 t sampleReply, t', [sampleReply]⟩ ∧
      t'.session = sessionAfterStart (Startup.configRequest J (config.get "client_uid")) ∧
      t'.closed = closed :=
  ⟨_, _, rfl, rfl, rfl⟩

/-- The message thread waits for a message, with nothing to hand over and no log. -/
structure Waits (n : NodeService.Service) (records : ℕ) : Prop where
  atWork : NodeService.AtWork n
  place : n.place = .receiving
  outbox : n.state.sendQueue = []
  logQueue : n.engine.logQueue.length = records
  logDir : n.state.world.logDir = fun _ => none

lemma Waits.running {records : ℕ} (h : Waits n records) : n.running = true := by
  rw [NodeService.Service.running, h.place]

lemma waits_of_scheduler {now : ℤ} {p : Params} {world : World}
    (h : Startup.scheduler J hash utcOffset now host config t =
      .ok (Startup.started J now config t' world))
    (hbuilt : Engine.Built hash utcOffset now p ⟨{}, fun _ => none⟩ world) :
    Waits (withOutbox (Startup.started J now config t' world).service []) 0 := by
  have hserves : Serves J (config.get "client_uid") [] [] _ := serves_of_scheduler h rfl
  refine ⟨hserves.atWork, rfl, rfl, ?_, ?_⟩
  · change world.engine.logQueue.length = 0
    rw [hbuilt.engine_eq]
    rfl
  · change world.logDir = _
    rw [hbuilt.logDir_eq]
    funext name
    simp [deleteOthers]

lemma Waits.revocation (h : Waits n 0) :
    ∃ n', serviceStep jsonText hash 0 host config write n (.message sampleRevocation) = some n' ∧
      Waits n' 1 := by
  obtain ⟨data, hparse, -⟩ := revocation_sample
  obtain ⟨e, he, hstep⟩ := @NodeService.step_revocation jsonText hash 0
    (config.get "client_uid") host.resolve write n _ _ h.atWork h.place hparse
    (by rw [h.logQueue]; decide)
  refine ⟨_, hstep, h.atWork.step hstep, h.place, h.outbox, ?_, h.logDir⟩
  change (e.logQueue ++ [_]).length = 1
  rw [he, List.length_append, h.logQueue]
  rfl

lemma Waits.order (h : Waits n 1) (huid : config.get "client_uid" = "node_0001") :
    ∃ n', serviceStep jsonText hash 0 host config write n (.message sampleOrderText) = some n' ∧
      n'.running = true ∧
      n'.state.sendQueue = [Scheduler.ack jsonText "node_0001" "7" .singleNode] := by
  obtain ⟨members, hmsg, ho, hp, haccepted⟩ := orders_sampleOrder
  obtain ⟨w, hadj⟩ := (AdjustSequence.adjustFiltersParam_isOk_iff haccepted hash 0 n.clock
    n.state.world).mpr (h.logDir ▸ visitedParse_empty _ _)
  have hroom : w.engine.logQueue.length ≤ ThreadSafeQueue.queueDefaultMaxSize := by
    rw [(Engine.adjustFiltersParam_returns.mp hadj).engine_eq]
    change n.engine.logQueue.length ≤ _
    rw [h.logQueue]
    decide
  refine ⟨_, NodeService.step_owner_order n h.place hmsg ho (by decide) hp hadj hroom,
    h.running, ?_⟩
  rw [huid]
  change n.state.sendQueue ++ [_] = _
  rw [h.outbox]
  rfl

/-- The session before the watchdog connects again. -/
def lostSession (request : Str) : MasterSession.State :=
  { sessionAfterStart request with
    sender := .ended
    receiver := .ended
    watchDog := .connecting
    sendRunFlag := false
    recvRunFlag := false }

def secondConnection (config : Data) : Connection :=
  ⟨authSuccess, sendMsgToSocket (hello jsonText (config.get "client_uid") (config.get "token"))⟩

lemma run_afterStart {t : Transport} {request : Str} (h : Waits n 0)
    (huid : config.get "client_uid" = "node_0001") (ht : t.session = sessionAfterStart request) :
    ∃ n' t', n'.running = true ∧ t'.closed = t.closed ++ [t.current] ∧
      run (step jsonText hash 0 host config write) ⟨.up n, t, [sampleReply]⟩ afterStart =
        some ⟨.up n', t', [sampleReply, sampleRevocation, sampleOrderText]⟩ ∧
      AllSteps (step jsonText hash 0 host config write) (GivesSendable jsonText config)
        ⟨.up n, t, [sampleReply]⟩ afterStart := by
  obtain ⟨session, closed, current⟩ := t
  dsimp only at ht
  subst ht
  obtain ⟨n₁, hstep₁, h₁⟩ := @Waits.revocation hash host config write n h
  obtain ⟨n₂, hstep₂, hrunning₂, houtbox₂⟩ := @Waits.order hash host config write n₁ h₁ huid
  obtain ⟨data, haccepted, -⟩ := JsonLib.msgParse_msgAssembly roundTrips_jsonText "auth_success" ∅
  have hrevocation := @run_receives jsonText hash 0 host config write
    ⟨sessionAfterStart request, closed, current⟩ _ n n₁ [sampleReply] h.running h.outbox rfl rfl
    hstep₁
  have hlost := @run_quiet jsonText hash 0 host config write
    ⟨.up n₁, ⟨sessionAfterStart request, closed, current⟩, [sampleReply, sampleRevocation]⟩
    lossOfConnection (lostSession request) h₁.running (by decide) rfl
  have hconnect : step jsonText hash 0 host config write
      ⟨.up n₁, ⟨lostSession request, closed, current⟩, [sampleReply, sampleRevocation]⟩
      (.transport (.connect [.refused, .answered (.ok authSuccess)])) =
        some ⟨.up n₁, ⟨sessionAfterStart request, closed ++ [current], secondConnection config⟩,
          [sampleReply, sampleRevocation]⟩ :=
    step_transport h₁.running rfl (step_connect (connect_of_accepted haccepted) rfl)
  have horder := @run_receives jsonText hash 0 host config write
    ⟨sessionAfterStart request, closed ++ [current], secondConnection config⟩ _ n₁ n₂
    [sampleReply, sampleRevocation] h₁.running h₁.outbox rfl rfl hstep₂
  have hack := @step_acknowledge jsonText hash 0 host config write
    ⟨.up n₂, ⟨sessionAfterStart request, closed ++ [current], secondConnection config⟩,
      [sampleReply, sampleRevocation, sampleOrderText]⟩ _ n₂ [] hrunning₂ rfl houtbox₂
    (show 0 < ThreadSafeQueue.queueDefaultMaxSize by decide)
  refine ⟨withOutbox n₂ [], _, hrunning₂, ?_,
    run_append_eq_some.mpr ⟨_, hrevocation, run_append_eq_some.mpr ⟨_, hlost,
      run_cons_eq_some.mpr ⟨_, hconnect, run_append_eq_some.mpr ⟨_, horder,
        run_cons_eq_some.mpr ⟨_, hack, run_append_eq_some.mpr
          ⟨_, run_quiet hrunning₂ (by decide) rfl,
            run_cons_eq_some.mpr ⟨_, step_transport hrunning₂ rfl rfl, rfl⟩⟩⟩⟩⟩⟩⟩, ?_⟩
  · rfl
  · refine (allSteps_append hrevocation).mpr ⟨allSteps_of_silent ?_, (allSteps_append hlost).mpr
      ⟨allSteps_of_silent ?_, (allSteps_cons hconnect).mpr ⟨?_, (allSteps_append horder).mpr
        ⟨allSteps_of_silent ?_, (allSteps_cons hack).mpr ⟨?_, allSteps_of_silent ?_⟩⟩⟩⟩⟩
    · simp [receives, ofSession, gives]
    · simp [lossOfConnection, ofSession, gives]
    · intro frame hframe
      cases hframe
    · simp [receives, ofSession, gives]
    · intro frame hframe
      simp only [gives, houtbox₂, List.head?_cons, Option.mem_some_iff] at hframe
      rw [← hframe]
      exact sendable_ack_sample
    · simp [ofSession, gives]

/-- What the two messages ask for. -/
lemma answers_sample :
    [sampleRevocation, sampleOrderText].filterMap (recordOf jsonText) = [logRecord "a" 25] ∧
      [sampleRevocation, sampleOrderText].filterMap (orderAck jsonText "node_0001") =
        [Scheduler.ack jsonText "node_0001" "7" .singleNode] := by
  obtain ⟨members, hmsg, ho, -⟩ := orders_sampleOrder
  obtain ⟨order, horder, -⟩ := JsonLib.msgParse_of_message hmsg
  have horder : jsonText.msgParse sampleOrderText [] ∅ = _ := horder
  have hack : orderAck jsonText "node_0001" sampleOrderText = some _ :=
    orderAck_of_owner_order hmsg ho (by decide)
  obtain ⟨data, hparse, hrequest⟩ := revocation_sample
  have hrecord : recordOf jsonText sampleRevocation = some (logRecord "a" 25) := by
    simp only [recordOf, NodeService.Action.record, NodeService.Action.revocation,
      NodeService.revocationOf_revoked hparse, hrequest, Option.map_some]
  have hnone : recordOf jsonText sampleOrderText = none := by
    have hevent : ("adjust_bloom_filter" : Str) ≠ "revoke_jwt" := by decide
    simp only [recordOf, NodeService.Action.record, NodeService.Action.revocation,
      NodeService.revocationOf_other horder hevent, Option.map_none]
  have hnone' : orderAck jsonText "node_0001" sampleRevocation = none := by
    have hevent : ("revoke_jwt" : Str) ≠ "adjust_bloom_filter" := by decide
    rw [orderAck, hparse]
    exact if_neg hevent
  simp only [List.filterMap_cons, List.filterMap_nil, hrecord, hnone, hnone', hack, and_self]

theorem master_reads_answers_sample :
    ∃ config transport s' n, Startup.session jsonText (Startup.sampleHost fun _ => none) config =
        .ok transport ∧
      run (step jsonText (fun _ key => key.length) 0 (Startup.sampleHost fun _ => none) config
        fun _ => .ok ()) { transport := transport } (sampleActions ++ afterStart) = some s' ∧
      s'.transport.closed.length = transport.closed.length + 1 ∧
      s'.phase = .up n ∧ n.records = [logRecord "a" 25] ∧
      ∀ inputs, List.Forall₂ (fun input (c : Connection) => input <+: c.bytes) inputs
          s'.transport.connections →
        ∀ k, ∃ read, List.Forall₂
            (Reads (hello jsonText (config.get "client_uid") (config.get "token")) k)
            inputs read ∧
          (read.flatten.filter (isAck jsonText)).Sublist
            [Scheduler.ack jsonText "node_0001" "7" .singleNode] := by
  obtain ⟨config, hread, hprovides⟩ := Startup.provides_sampleHost (visitedParse_empty 0 0)
  have hpath : Startup.configFilePath ["-c", "node.txt"] = .ok "node.txt" := rfl
  obtain ⟨_, world, hmain, hbuilt⟩ :=
    @Startup.main_of_provides jsonText (fun _ key => key.length) _ _ _ _ _ _ _ _ hpath hread
      hprovides
  obtain ⟨path', config', transport, hpath', hread', hsession, hscheduler⟩ :=
    Startup.main_eq_ok.mp hmain
  cases hpath.symm.trans hpath'
  cases hread.symm.trans hread'
  obtain ⟨-, -, -, opened, current, -, rfl⟩ := Startup.session_eq_ok.mp hsession
  have hkeys : (ConfigReader.readConfig (some Startup.sampleConfigFile)).toOption.map
      (fun config => (config.get "client_uid", config.get "token")) =
        some (("node_0001" : Str), ("secret" : Str)) := by
    decide +kernel
  rw [← (show (Startup.sampleHost fun _ => none).files "node.txt" =
    some Startup.sampleConfigFile from rfl), hread] at hkeys
  obtain ⟨huid, htoken⟩ := Prod.mk.inj (Option.some.inj hkeys)
  have hhello : Sendable (hello jsonText (config.get "client_uid") (config.get "token")) := by
    rw [huid, htoken]
    exact sendable_hello_sample
  have hreply : (Startup.sampleHost fun _ => none).reply = some sampleReply := rfl
  obtain ⟨t₀, t, hstart, hsessionAfter, hclosed⟩ := @run_sampleActions jsonText
    (fun _ key => key.length) 0 (Startup.sampleHost fun _ => none) config (fun _ => .ok ())
    opened current
  rw [configured_of_scheduler hscheduler hreply t₀] at hstart
  obtain ⟨n', t', hrunning, hsecond, hlater, hgives⟩ := @run_afterStart (fun _ key => key.length)
    (Startup.sampleHost fun _ => none) config (fun _ => .ok ()) _ t _
    (waits_of_scheduler hscheduler hbuilt) huid hsessionAfter
  have hrun := run_append_eq_some.mpr ⟨_, hstart, hlater⟩
  obtain ⟨-, hrecords, hreads⟩ := master_reads_answers roundTrips_jsonText hsession hhello
    ((allSteps_append hstart).mpr ⟨allSteps_of_forall (givesSendable_sampleActions huid), hgives⟩)
    hrun
  refine ⟨config, _, _, n', hsession, hrun, ?_, rfl, ?_, ?_⟩
  · simp [hsecond, hclosed]
  · rw [(hrecords n' rfl).2 hrunning]
    exact answers_sample.1
  · rw [huid] at hreads ⊢
    intro inputs hinputs k
    obtain ⟨read, hall, hsub⟩ := hreads inputs hinputs k
    exact ⟨read, hall, answers_sample.2 ▸ hsub⟩

end JwtRevoker.WholeNode
