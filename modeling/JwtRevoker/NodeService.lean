import JwtRevoker.MessageThread
import JwtRevoker.RotationClock

/-!
# A running node

The message thread turn by turn, `logWorker` and the rotation thread, with their steps in
any order. A revocation the master sends is in force and on its way to the log; an order
to become a slave is the last message a node handles.
-/
namespace JwtRevoker.NodeService

open EngineM Engine Scheduler StepRuns JsonText
open ThreadSafeQueue (queueDefaultMaxSize)

/-- Where the message thread is. An exception that leaves a thread ends the process. -/
inductive Place
  | receiving
  | connecting
  | ended (fault : Fault)

/-- `hand` is the record `logWorker` has taken from its queue, `written` are those it has
appended to a file, `forwarded` the frames sent to a proxy. -/
structure Service where
  state : Scheduler.State
  clock : ℤ
  place : Place := .receiving
  hand : Option Str := none
  forwarded : List Str := []
  written : List Str := []

abbrev Service.engine (n : Service) : Engine := n.state.world.engine

def Service.running (n : Service) : Bool :=
  match n.place with
  | .ended _ => false
  | _ => true

def Service.withEngine (n : Service) (e : Engine) : Service :=
  { n with state := { n.state with world := { n.state.world with engine := e } } }

/-- The records on their way to the log and those that have got there, oldest first. -/
def Service.records (n : Service) : List Str := n.written ++ n.hand.toList ++ n.engine.logQueue

inductive Action
  | tick (seconds : ℕ)
  | message (msg : Str)
  | takeRecord
  | appendRecord
  | rotate

section Step

variable (J : JsonLib) (hash : HashCalls) (utcOffset : ℤ) (clientUid : Str)
  (resolve : Str → ℕ → Except Fault Unit) (write : Str → Except Fault Unit)

def Service.handle (n : Service) (msg : Str) : Service :=
  match turn J hash utcOffset n.clock clientUid resolve write msg n.state with
  | .done s frames => { n with state := s, forwarded := n.forwarded ++ frames }
  | .raised fault s => { n with state := s, place := .ended fault }
  | .connecting s => { n with state := s, place := .connecting }

/-- One step; there is none when the action is not enabled. -/
def step (n : Service) (a : Action) : Option Service :=
  if n.running then
    match a with
    | .tick seconds => some { n with clock := n.clock + seconds }
    | .message msg =>
        match n.place with
        | .receiving =>
            -- `logRevoke` waits while the queue is full.
            let n' := n.handle J hash utcOffset clientUid resolve write msg
            if n'.engine.logQueue.length ≤ queueDefaultMaxSize then some n' else none
        | _ => none
    | .takeRecord =>
        match n.hand, n.engine.logQueue with
        | none, msg :: rest =>
            some { n.withEngine { n.engine with logQueue := rest } with hand := some msg }
        | _, _ => none
    | .appendRecord =>
        match n.hand with
        | some msg =>
            let world := { n.state.world with
              logDir := writeLog utcOffset n.clock n.state.world.logDir msg }
            some { n with
              state := { n.state with world := world }
              hand := none
              written := n.written ++ [msg] }
        | none => none
    | .rotate =>
        match n.engine.rotateFilters with
        | .ok e => some (n.withEngine e)
        | .error fault => some { n with place := .ended fault }
  else none

/-- What the steps do when they are taken. -/
inductive Steps (n : Service) : Action → Service → Prop
  | tick {seconds : ℕ} : Steps n (.tick seconds) { n with clock := n.clock + seconds }
  | message {msg : Str} : n.place = .receiving →
      Steps n (.message msg) (n.handle J hash utcOffset clientUid resolve write msg)
  | takeRecord {msg : Str} {rest : List Str} : n.hand = none → n.engine.logQueue = msg :: rest →
      Steps n .takeRecord { n.withEngine { n.engine with logQueue := rest } with hand := some msg }
  | appendRecord {msg : Str} {world : World} : n.hand = some msg →
      world.engine = n.engine →
      Steps n .appendRecord { n with
        state := { n.state with world := world }
        hand := none
        written := n.written ++ [msg] }
  | rotate {e : Engine} : n.engine.rotateFilters = .ok e → Steps n .rotate (n.withEngine e)
  | rotateFails {fault : Fault} : Steps n .rotate { n with place := .ended fault }

end Step

/-- The revocation that a text asks for. -/
def revocationOf (J : JsonLib) (msg : Str) : Option (Str × ℤ) :=
  match J.msgParse msg [] ∅ with
  | .ok (event, data) => if event = "revoke_jwt" then some (revokeRequest data) else none
  | .error _ => none

def Action.revocation (J : JsonLib) : Action → Option (Str × ℤ)
  | .message msg => revocationOf J msg
  | _ => none

/-- The record a step hands to the log. -/
def Action.record (J : JsonLib) (a : Action) : Option Str :=
  (a.revocation J).map fun request => logRecord request.1 request.2

/-- The thread is either past its work or in shape and no slave, and it has sent nothing
to a proxy. -/
structure AtWork (n : Service) : Prop where
  nodeRole : n.place = .receiving → n.state.nodeRole ≠ .slaveNode
  shaped : n.running → n.engine.Shaped
  forwarded : n.forwarded = []

variable {J : JsonLib} {hash : HashCalls} {utcOffset : ℤ} {clientUid : Str}
  {resolve : Str → ℕ → Except Fault Unit} {write : Str → Except Fault Unit} {n n' : Service}
  {a : Action} {actions : List Action} {msg : Str}

lemma steps_of_step (h : step J hash utcOffset clientUid resolve write n a = some n') :
    n.running = true ∧ Steps J hash utcOffset clientUid resolve write n a n' := by
  unfold step at h
  split_ifs at h with hrunning
  refine ⟨hrunning, ?_⟩
  cases a with
  | tick seconds =>
    cases h
    exact .tick
  | message msg =>
    dsimp only at h
    split at h
    · split_ifs at h
      cases h
      exact .message ‹_›
    · cases h
  | takeRecord =>
    dsimp only at h
    split at h
    · cases h
      exact .takeRecord ‹_› ‹_›
    · cases h
  | appendRecord =>
    dsimp only at h
    split at h
    · cases h
      exact .appendRecord ‹_› rfl
    · cases h
  | rotate =>
    dsimp only at h
    split at h
    · cases h
      exact .rotate ‹_›
    · cases h
      exact .rotateFails

lemma revocationOf_revoked {data : Data} (h : J.msgParse msg [] ∅ = .ok ("revoke_jwt", data)) :
    revocationOf J msg = some (revokeRequest data) := by
  rw [revocationOf, h]
  exact if_pos rfl

lemma revocationOf_other {event : Str} {data : Data} (h : J.msgParse msg [] ∅ = .ok (event, data))
    (hevent : event ≠ "revoke_jwt") : revocationOf J msg = none := by
  rw [revocationOf, h]
  exact if_neg hevent

/-- What the handling of a message does: it revokes and logs, changes the parameters or
nothing, goes into `connect`, or ends the process. -/
lemma AtWork.handle (h : AtWork n) (hplace : n.place = .receiving) (msg : Str) :
    AtWork (n.handle J hash utcOffset clientUid resolve write msg) ∧
      (n.handle J hash utcOffset clientUid resolve write msg).written = n.written ∧
      ((n.handle J hash utcOffset clientUid resolve write msg).running = true →
        (n.handle J hash utcOffset clientUid resolve write msg).records =
          n.records ++ ((Action.message msg).record J).toList) := by
  have hrunning : n.running = true := by simp [Service.running, hplace]
  have hrole := h.nodeRole hplace
  have hshaped := h.shaped hrunning
  have ht := @turnOf_turn J hash utcOffset n.clock clientUid resolve write msg n.state
    hshaped hrole
  unfold Service.handle
  generalize turn J hash utcOffset n.clock clientUid resolve write msg n.state = t at ht
  cases ht with
  | @revoked data e hparse hstep =>
    refine ⟨⟨fun _ => hrole, fun _ => ?_, ?_⟩, rfl, fun _ => ?_⟩
    · have he := hshaped.step hstep
      exact ⟨he.interval_pos, he.filtersNum_eq, he.length_filters⟩
    · simp [h.forwarded]
    · have hq : e.logQueue = n.engine.logQueue := by rw [(step_frame hstep).1]
      simp [Service.records, Action.record, Action.revocation, revocationOf_revoked hparse,
        State.logged, logRevoke, hq]
  | done hparse hevent hrole' hshaped' hqueue =>
    refine ⟨⟨fun _ => hrole', fun _ => hshaped', ?_⟩, rfl, fun _ => ?_⟩
    · simp [h.forwarded]
    · simp [Service.records, Service.engine, Action.record, Action.revocation,
        revocationOf_other hparse hevent, hqueue]
  | @connecting data s' hparse hworld =>
    have hne : ("adjust_bloom_filter" : Str) ≠ "revoke_jwt" := by decide
    refine ⟨⟨fun hp => Place.noConfusion hp, fun _ => ?_, h.forwarded⟩, rfl, fun _ => ?_⟩
    · change s'.world.engine.Shaped
      rw [hworld]
      exact hshaped
    · simp [Service.records, Service.engine, Action.record, Action.revocation,
        revocationOf_other hparse hne, hworld]
  | raised =>
    refine ⟨⟨fun hp => Place.noConfusion hp, fun hr => ?_, h.forwarded⟩, rfl, fun hr => ?_⟩
    · cases hr
    · cases hr

lemma AtWork.step (h : AtWork n)
    (hs : step J hash utcOffset clientUid resolve write n a = some n') : AtWork n' := by
  obtain ⟨hrunning, hs⟩ := steps_of_step hs
  have hshaped := h.shaped hrunning
  cases hs with
  | tick => exact ⟨h.nodeRole, h.shaped, h.forwarded⟩
  | message hplace => exact (h.handle hplace _).1
  | takeRecord hhand hqueue =>
    exact ⟨h.nodeRole, fun _ => ⟨hshaped.interval_pos, hshaped.filtersNum_eq,
      hshaped.length_filters⟩, h.forwarded⟩
  | appendRecord hhand hworld =>
    refine ⟨h.nodeRole, fun _ => ?_, h.forwarded⟩
    change Shaped (World.engine _)
    rw [hworld]
    exact hshaped
  | rotate he =>
    exact ⟨h.nodeRole, fun _ => @Shaped.step hash _ _ (.rotate n.clock) hshaped he, h.forwarded⟩
  | rotateFails => exact ⟨fun hp => Place.noConfusion hp, fun hr => (nomatch hr), h.forwarded⟩

/-- A node is at work when its engine has been initialised. -/
lemma atWork_of_init {now clock : ℤ} {p : Params} {w w' : World}
    (hi : Returns (Engine.init hash utcOffset now p) w () w') :
    AtWork { state := { world := w' }, clock := clock } := by
  obtain ⟨-, -, -, hshaped, -⟩ := (init_returns.mp hi).2.run
  exact ⟨fun _ => NodeRole.noConfusion, fun _ => hshaped, rfl⟩

/-- A step keeps the records there are, and adds that of the message it handles. -/
lemma AtWork.records_step (h : AtWork n)
    (hs : NodeService.step J hash utcOffset clientUid resolve write n a = some n') :
    (n'.running = true → n'.records = n.records ++ (a.record J).toList) ∧
      n'.written <+: n.records := by
  obtain ⟨-, hs⟩ := steps_of_step hs
  have hprefix : n.written <+: n.records := by
    simp [Service.records]
  cases hs with
  | tick => exact ⟨fun _ => by simp [Action.record, Action.revocation, Service.records], hprefix⟩
  | @message msg hplace =>
    obtain ⟨-, hwritten, hrecords⟩ := @AtWork.handle J hash utcOffset clientUid resolve write n h
      hplace msg
    exact ⟨hrecords, hwritten ▸ hprefix⟩
  | takeRecord hhand hqueue =>
    refine ⟨fun _ => ?_, hprefix⟩
    simp [Action.record, Action.revocation, Service.records, Service.withEngine, hhand, hqueue]
  | appendRecord hhand hworld =>
    refine ⟨fun _ => ?_, ?_⟩
    · simp only [Service.engine] at hworld
      simp [Action.record, Action.revocation, Service.records, Service.engine, hhand, hworld]
    · simp [Service.records, hhand]
  | rotate he =>
    obtain ⟨-, filter, -, rfl⟩ := rotateFilters_eq_ok he
    refine ⟨fun _ => ?_, hprefix⟩
    simp [Action.record, Action.revocation, Service.records, Service.withEngine]
  | rotateFails => exact ⟨fun hr => (nomatch hr), hprefix⟩

lemma running_of_step (h : step J hash utcOffset clientUid resolve write n a = some n') :
    n.running = true := (steps_of_step h).1

/-- Every revocation the node handles is logged once, in the order of the messages. -/
theorem records_in_order (h : AtWork n)
    (hrun : run (step J hash utcOffset clientUid resolve write) n actions = some n') :
    (n'.running = true → n'.records = n.records ++ actions.filterMap (Action.record J)) ∧
      n'.written <+: n.records ++ actions.filterMap (Action.record J) := by
  have hout (n : Service) (a : Action) (n' : Service) (h : AtWork n)
      (hs : step J hash utcOffset clientUid resolve write n a = some n') :
      (n'.running = true → n'.records = n.records ++ (a.record J).toList) ∧
        n'.written <+: n.records ++ (a.record J).toList := by
    obtain ⟨hrecords, hwritten⟩ := h.records_step hs
    exact ⟨hrecords, hwritten.trans (List.prefix_append _ _)⟩
  have hprefix : n.written <+: n.records := by simp [Service.records]
  exact outputs_of_run hout (fun _ _ _ => running_of_step) (fun _ _ _ hn => hn.step) h hprefix hrun

/-- A node 25 seconds before the expiry of the sample revocation. -/
def sampleService : Service where
  state := { world := (Engine.init (fun _ key => key.length) 0 0 ⟨30, 10, 8, 1⟩
    ⟨{}, fun _ => none⟩).2 }
  clock := 1699999975

lemma atWork_sampleService : AtWork sampleService := by
  have hi : Returns (Engine.init (fun _ key => key.length) 0 0 ⟨30, 10, 8, 1⟩)
      ⟨{}, fun _ => none⟩ () sampleService.state.world := returns_of_ok rfl
  exact atWork_of_init hi

def sampleStep (J : JsonLib) : Service → Action → Option Service :=
  step J (fun _ key => key.length) 0 "node_0001" (fun _ _ => .ok ()) fun _ => .ok ()

def sampleActions : List Action :=
  [.message sampleRevocationText, .takeRecord, .tick 6, .appendRecord, .rotate]

theorem records_in_order_sample :
    ∃ n', run (sampleStep sampleJson) sampleService sampleActions = some n' ∧
      (n'.running = true → n'.records = sampleService.records ++
        sampleActions.filterMap (Action.record sampleJson)) ∧
      n'.written <+: sampleService.records ++
        sampleActions.filterMap (Action.record sampleJson) :=
  ⟨_, rfl, records_in_order atWork_sampleService
    (show run (sampleStep sampleJson) sampleService sampleActions = _ from rfl)⟩

/-- The acknowledgement a step has to queue. -/
def Action.ack (J : JsonLib) (clientUid : Str) : Action → Option Str
  | .message msg => orderAck J clientUid msg
  | _ => none

/-- Only a message adds to the queue of the session, and then the acknowledgement it asks for;
an order that ends the process is not acknowledged. -/
lemma sendQueue_of_step (hs : step J hash utcOffset clientUid resolve write n a = some n') :
    (n'.running = true →
      n'.state.sendQueue = n.state.sendQueue ++ (a.ack J clientUid).toList) ∧
      n'.state.sendQueue <+: n.state.sendQueue ++ (a.ack J clientUid).toList := by
  obtain ⟨-, hs⟩ := steps_of_step hs
  cases hs with
  | @message msg hplace =>
    have ht := @turn_acknowledges J hash utcOffset n.clock clientUid resolve write msg n.state
    unfold Service.handle
    generalize turn J hash utcOffset n.clock clientUid resolve write msg n.state = t at ht
    cases t with
    | done s frames => exact ⟨fun _ => ht, ht ▸ List.prefix_rfl⟩
    | raised fault s => exact ⟨fun hr => (nomatch hr), ht ▸ List.prefix_append _ _⟩
    | connecting s =>
      obtain ⟨hqueue, hnone⟩ := ht
      simp [Action.ack, hqueue, hnone]
  | tick | takeRecord | appendRecord | rotate | rotateFails =>
    simp [Action.ack, Service.withEngine]

/-- Every order to become a single or proxy node is acknowledged once, in the order of the
messages, whatever the other threads do in between. -/
theorem acknowledged_in_order
    (hrun : run (step J hash utcOffset clientUid resolve write) n actions = some n') :
    (n'.running = true →
      n'.state.sendQueue = n.state.sendQueue ++ actions.filterMap (Action.ack J clientUid)) ∧
      n'.state.sendQueue <+: n.state.sendQueue ++ actions.filterMap (Action.ack J clientUid) := by
  have hout (n : Service) (a : Action) (n' : Service) (_ : True)
      (hs : step J hash utcOffset clientUid resolve write n a = some n') :
      (n'.running = true →
        n'.state.sendQueue = n.state.sendQueue ++ (a.ack J clientUid).toList) ∧
        n'.state.sendQueue <+: n.state.sendQueue ++ (a.ack J clientUid).toList :=
    sendQueue_of_step hs
  exact outputs_of_run hout (fun _ _ _ => running_of_step) (fun _ _ _ _ _ => trivial) trivial
    List.prefix_rfl hrun

/-- A node that waits for messages makes the revocation and logs it. -/
lemma step_revocation {data : Data} (h : AtWork n) (hplace : n.place = .receiving)
    (hparse : J.msgParse msg [] ∅ = .ok ("revoke_jwt", data))
    (hroom : n.engine.logQueue.length < queueDefaultMaxSize) :
    ∃ e, e.logQueue = n.engine.logQueue ∧
      step J hash utcOffset clientUid resolve write n (.message msg) = some { n with
        state := n.state.logged e (revokeRequest data)
        forwarded := n.forwarded ++ [] } := by
  have hrunning : n.running = true := by simp [Service.running, hplace]
  obtain ⟨e, he, hturn⟩ := @revokeTurn_of_shaped J hash n.clock write data n.state
    (h.shaped hrunning) (h.nodeRole hplace)
  have hqueue : e.logQueue = n.engine.logQueue := by rw [(step_frame he).1]
  refine ⟨e, hqueue, ?_⟩
  have hhandle : n.handle J hash utcOffset clientUid resolve write msg = { n with
      state := n.state.logged e (revokeRequest data)
      forwarded := n.forwarded ++ [] } := by
    rw [Service.handle, turn_of_revoke hparse, hturn]
  have hlength : (e.logRevoke (revokeRequest data).1 (revokeRequest data).2).logQueue.length ≤
      queueDefaultMaxSize := by
    simp only [logRevoke, hqueue, List.length_append, List.length_singleton]
    omega
  rw [step, if_pos hrunning]
  simp only [hplace, hhandle]
  exact if_pos hlength

/-- A node that waits for messages carries the order out. -/
lemma step_owner_order {members : List (Str × Json J.Double)} {role : NodeRole} {uuid : Str}
    {p : Params} {w : World} (n : Service) (hplace : n.place = .receiving)
    (hmsg : J.IsMessage msg "adjust_bloom_filter" members) (ho : Orders members role uuid)
    (hrole : role ≠ .slaveNode) (hp : J.HasParams members p)
    (hadj : Returns (adjustFiltersParam hash utcOffset n.clock p) n.state.world () w)
    (hroom : w.engine.logQueue.length ≤ queueDefaultMaxSize) :
    step J hash utcOffset clientUid resolve write n (.message msg) = some { n with
      state := AdjustSequence.adjusted n.state role w (ack J clientUid uuid role)
      forwarded := n.forwarded ++ [] } := by
  have hrunning : n.running = true := by simp [Service.running, hplace]
  have hhandle : n.handle J hash utcOffset clientUid resolve write msg = { n with
      state := AdjustSequence.adjusted n.state role w (ack J clientUid uuid role)
      forwarded := n.forwarded ++ [] } := by
    rw [Service.handle, turn_of_owner_order hmsg ho hrole hp, hadj]
  rw [step, if_pos hrunning]
  simp only [hplace, hhandle]
  exact if_pos hroom

theorem acknowledged_in_order_sample :
    ∃ n', run (sampleStep jsonText) sampleService
        [.message (jsonText.msgAssembly "adjust_bloom_filter" sampleOrder), .tick 1] = some n' ∧
      n'.state.sendQueue = [ack jsonText "node_0001" "7" .singleNode] := by
  obtain ⟨members, hmsg, ho, hp, -⟩ := orders_sampleOrder
  have hadj : Returns (adjustFiltersParam (fun _ key => key.length) 0 sampleService.clock
      ⟨30, 10, 8, 1⟩) sampleService.state.world () _ := returns_of_ok rfl
  have hstep : sampleStep jsonText sampleService
      (.message (jsonText.msgAssembly "adjust_bloom_filter" sampleOrder)) = some _ :=
    step_owner_order sampleService rfl hmsg ho (by decide) hp hadj (Nat.zero_le _)
  have hrun : run (sampleStep jsonText) sampleService
      [.message (jsonText.msgAssembly "adjust_bloom_filter" sampleOrder), .tick 1] = some _ :=
    run_cons_eq_some.mpr ⟨_, hstep, rfl⟩
  have hacks := (acknowledged_in_order hrun).1 rfl
  refine ⟨_, hrun, hacks.trans ?_⟩
  rw [List.filterMap_cons, Action.ack, orderAck_of_owner_order hmsg ho (by decide)]
  rfl

lemma clock_le_of_step (h : step J hash utcOffset clientUid resolve write n a = some n') :
    n.clock ≤ n'.clock := by
  obtain ⟨-, hs⟩ := steps_of_step h
  cases hs with
  | tick =>
    dsimp only
    omega
  | message =>
    unfold Service.handle
    split <;> exact le_rfl
  | takeRecord | appendRecord | rotate | rotateFails => exact le_rfl

/-- The text is an order to take a role. -/
def IsOrder (J : JsonLib) (msg : Str) : Prop :=
  ∃ data, J.msgParse msg [] ∅ = .ok ("adjust_bloom_filter", data)

/-- The run handles no order. -/
def NoOrders (J : JsonLib) (actions : List Action) : Prop :=
  ∀ msg, .message msg ∈ actions → ¬ IsOrder J msg

/-- The calls of the engine that a step makes at the given time. -/
def Action.ops (J : JsonLib) (now : ℤ) (a : Action) : List Op :=
  match a with
  | .rotate => [.rotate now]
  | _ => (a.revocation J).toList.map fun request => .revokeJwt request.1 request.2 now

def Action.seconds : Action → ℕ
  | .tick seconds => seconds
  | _ => 0

def opsOf (J : JsonLib) : ℤ → List Action → List Op
  | _, [] => []
  | now, a :: actions => a.ops J now ++ opsOf J (now + a.seconds) actions

lemma step_withLogQueue (e : Engine) (op : Op) (queue : List Str) :
    ({ e with logQueue := queue } : Engine).step hash op =
      (e.step hash op).map fun e' => { e' with logQueue := queue } := by
  cases op with
  | revokeJwt token expTime now =>
    simp only [Engine.step, Engine.revokeJwt]
    split_ifs
    · rfl
    · rfl
    · cases ceilQuotient (expTime - now).toNat e.rotationInterval with
      | error fault => rfl
      | ok num =>
        simp only [ok_bind]
        split_ifs
        · rfl
        · cases addToFirst hash token num e.filters <;> rfl
  | isRevoked token expTime now =>
    simp only [Engine.step]
    change (e.isRevoked hash now token expTime >>= fun _ => _) = _
    cases e.isRevoked hash now token expTime <;> rfl
  | rotate now =>
    simp only [Engine.step, rotateFilters]
    cases e.filters with
    | nil => rfl
    | cons f rest =>
      dsimp only
      cases BaseBloomFilter.construct e.bloomFilterSize e.hashFunctionNum <;> rfl

lemma run_withLogQueue (e : Engine) (ops : List Op) (queue : List Str) :
    ({ e with logQueue := queue } : Engine).run hash ops =
      (e.run hash ops).map fun e' => { e' with logQueue := queue } := by
  induction ops generalizing e with
  | nil => rfl
  | cons op ops ih =>
    rw [Engine.run, Engine.run, List.foldlM_cons, List.foldlM_cons, step_withLogQueue]
    cases e.step hash op with
    | error fault => rfl
    | ok e' => exact ih e'

/-- Without an order a step of the node is the calls it makes of the engine. -/
lemma AtWork.engine_of_step (h : AtWork n) (hplace : n.place = .receiving)
    (hno : NoOrders J [a])
    (hs : NodeService.step J hash utcOffset clientUid resolve write n a = some n')
    (hrunning : n'.running = true) :
    n.engine.run hash (a.ops J n.clock) =
        .ok { n'.engine with logQueue := n.engine.logQueue } ∧
      n'.place = .receiving ∧ n'.clock = n.clock + a.seconds := by
  obtain ⟨hrun, hs⟩ := steps_of_step hs
  cases hs with
  | tick => exact ⟨rfl, hplace, rfl⟩
  | @message msg hplace =>
    have hnone : ¬ IsOrder J msg := hno msg List.mem_cons_self
    have ht := @turnOf_turn J hash utcOffset n.clock clientUid resolve write msg n.state
      (h.shaped hrun) (h.nodeRole hplace)
    unfold Service.handle at hrunning ⊢
    generalize turn J hash utcOffset n.clock clientUid resolve write msg n.state = t at ht hrunning
    cases ht with
    | @revoked data e hparse hstep =>
      refine ⟨?_, hplace, by simp [Action.seconds]⟩
      simp only [Action.ops, Action.revocation, revocationOf_revoked hparse, Option.toList,
        List.map_cons, List.map_nil]
      rw [Engine.run, List.foldlM_cons, hstep]
      have hq : e.logQueue = n.engine.logQueue := by rw [(step_frame hstep).1]
      exact congrArg Except.ok (by rw [← hq]; rfl)
    | @done event data s' hparse hevent hrole hshaped hqueue hsame =>
      have horder : event ≠ "adjust_bloom_filter" := fun he => hnone ⟨data, he ▸ hparse⟩
      refine ⟨?_, hplace, by simp [Action.seconds]⟩
      simp only [Action.ops, Action.revocation, revocationOf_other hparse hevent, hsame horder]
      rfl
    | connecting hparse => exact absurd ⟨_, hparse⟩ hnone
    | raised => cases hrunning
  | takeRecord => exact ⟨rfl, hplace, by simp [Action.seconds, Service.withEngine]⟩
  | @appendRecord msg world hhand hworld =>
    refine ⟨?_, hplace, by simp [Action.seconds]⟩
    change Except.ok n.engine = .ok { world.engine with logQueue := n.engine.logQueue }
    rw [hworld]
  | @rotate e he =>
    refine ⟨?_, hplace, by simp [Action.seconds, Service.withEngine]⟩
    obtain ⟨-, filter, -, rfl⟩ := rotateFilters_eq_ok he
    rw [Action.ops, Engine.run, List.foldlM_cons, Engine.step, he]
    rfl
  | rotateFails => cases hrunning

lemma running_of_run
    (hrun : run (step J hash utcOffset clientUid resolve write) n actions = some n')
    (hrunning : n'.running = true) : n.running = true := by
  cases actions with
  | nil =>
    cases hrun
    exact hrunning
  | cons a actions =>
    obtain ⟨n₁, h₁, -⟩ := run_cons_eq_some.mp hrun
    exact running_of_step h₁

/-- Between two orders the node is its engine under the calls that the messages and the
rotation thread make. -/
theorem AtWork.engine_of_run (h : AtWork n) (hplace : n.place = .receiving)
    (hno : NoOrders J actions)
    (hrun : StepRuns.run (NodeService.step J hash utcOffset clientUid resolve write) n actions =
      some n') (hrunning : n'.running = true) :
    n.engine.run hash (opsOf J n.clock actions) =
      .ok { n'.engine with logQueue := n.engine.logQueue } := by
  induction actions generalizing n with
  | nil =>
    cases hrun
    rfl
  | cons a actions ih =>
    obtain ⟨n₁, h₁, hrun⟩ := run_cons_eq_some.mp hrun
    have hno₁ : NoOrders J [a] := fun msg hmem =>
      hno msg (List.mem_cons.mpr (.inl (List.mem_singleton.mp hmem)))
    obtain ⟨hops, hplace₁, hclock⟩ :=
      h.engine_of_step hplace hno₁ h₁ (running_of_run hrun hrunning)
    have hrest :=
      ih (h.step h₁) hplace₁ (fun msg hmem => hno msg (List.mem_cons_of_mem a hmem)) hrun
    rw [opsOf, run_append, hops, ok_bind, run_withLogQueue, ← hclock, hrest]
    rfl

lemma clock_le_of_run
    (hrun : run (step J hash utcOffset clientUid resolve write) n actions = some n') :
    n.clock ≤ n'.clock :=
  time_le_of_run (fun _ _ _ => clock_le_of_step) hrun

def Action.isRotate : Action → Bool
  | .rotate => true
  | _ => false

lemma rotations_opsOf (now : ℤ) (actions : List Action) :
    rotations (opsOf J now actions) = actions.countP Action.isRotate := by
  induction actions generalizing now with
  | nil => rfl
  | cons a actions ih =>
    have hone : rotations (a.ops J now) = if a.isRotate then 1 else 0 := by
      cases a with
      | message msg =>
        change rotations ((revocationOf J msg).toList.map _) = 0
        cases revocationOf J msg <;> rfl
      | tick | takeRecord | appendRecord | rotate => rfl
    rw [opsOf, rotations_append, ih, hone, List.countP_cons, Nat.add_comm]

/-- A token in the first slots is reported while the rotations leave those of its lifetime. -/
lemma isRevoked_of_inFirst {e e' : Engine} {token : Str} {expTime t : ℤ} {depth : ℕ}
    {ops : List Op} (h : e.Shaped) (hin : e.InFirst hash token depth)
    (hr : e.run hash ops = .ok e') (hmax : expTime - t ≤ e.maxJwtLifeTime) (hexp : t < expTime)
    (hrot : e.slots (expTime - t) + rotations ops ≤ depth) :
    e'.isRevoked hash t token expTime = .ok true := by
  have hframe := run_frame hr
  have ha : e'.Accepts (expTime - t) := by
    rw [hframe]
    change 0 < expTime - t ∧ expTime - t ≤ (e.maxJwtLifeTime : ℤ)
    omega
  have hslots : e'.slots (expTime - t) = e.slots (expTime - t) := by
    rw [hframe]
    rfl
  rw [isRevoked_eq_true_iff (h.run hr)]
  refine ⟨ha, fun f hf => ((h.inFirst_run hin hr).mono ?_).of_mem_take hf⟩
  rw [hslots]
  omega

/-- A revocation is reported as long as the rotations do not outnumber the freed slots. -/
lemma isRevoked_of_revoked {e e' : Engine} {token : Str} {expTime t₀ t : ℤ} {ops : List Op}
    (h : e.Shaped) (ha : e.Accepts (expTime - t₀))
    (hr : e.run hash (.revokeJwt token expTime t₀ :: ops) = .ok e') (ht : t₀ ≤ t)
    (hexp : t < expTime)
    (hrot : e.slots (expTime - t) + rotations ops ≤ e.slots (expTime - t₀)) :
    e'.isRevoked hash t token expTime = .ok true := by
  rw [Engine.run, List.foldlM_cons] at hr
  obtain ⟨e₁, hstep, hr⟩ := bind_eq_ok.mp hr
  have hin := h.inFirst_revokeJwt ha hstep
  have hmax := ha.2
  obtain ⟨hframe, -⟩ := step_frame hstep
  have hslots : e₁.slots (expTime - t) = e.slots (expTime - t) := by
    rw [hframe]
    rfl
  refine isRevoked_of_inFirst (h.step hstep) hin hr ?_ hexp (hslots.symm ▸ hrot)
  rw [hframe]
  change expTime - t ≤ (e.maxJwtLifeTime : ℤ)
  omega

/-- A node without orders reports a token in the first slots as its engine does. -/
lemma AtWork.isRevoked_of_run {token : Str} {expTime : ℤ} {depth : ℕ} (h : AtWork n)
    (hplace : n.place = .receiving) (hin : n.engine.InFirst hash token depth)
    (hno : NoOrders J actions)
    (hrun : StepRuns.run (NodeService.step J hash utcOffset clientUid resolve write) n actions =
      some n') (hrunning : n'.running = true)
    (hmax : expTime - n'.clock ≤ n.engine.maxJwtLifeTime) (hexp : n'.clock < expTime)
    (hrot : n.engine.slots (expTime - n'.clock) + actions.countP Action.isRotate ≤ depth) :
    n'.engine.isRevoked hash n'.clock token expTime = .ok true := by
  have hr := h.engine_of_run hplace hno hrun hrunning
  rw [← rotations_opsOf n.clock] at hrot
  have hreports :=
    isRevoked_of_inFirst (h.shaped (running_of_run hrun hrunning)) hin hr hmax hexp hrot
  exact hreports

section Revocations

variable {members : List (Str × Json J.Double)} {token : Str} {expTime : ℤ}

lemma not_isOrder_of_revoke (hmsg : J.IsMessage msg "revoke_jwt" members) : ¬ IsOrder J msg := by
  obtain ⟨data, hparse, -⟩ := JsonLib.msgParse_of_message hmsg
  rintro ⟨data', hparse'⟩
  rw [hparse] at hparse'
  have hevent : ("revoke_jwt" : Str) = "adjust_bloom_filter" :=
    congrArg Prod.fst (Except.ok.inj hparse')
  exact absurd hevent (by decide)

lemma ops_of_revoke (hmsg : J.IsMessage msg "revoke_jwt" members)
    (hrev : J.HasRevocation members token expTime) (hlong : InLong expTime) (now : ℤ) :
    Action.ops J now (.message msg) = [.revokeJwt token expTime now] := by
  obtain ⟨data, hparse, hdata⟩ := JsonLib.msgParse_of_message hmsg
  simp only [Action.ops, Action.revocation, revocationOf_revoked hparse,
    revokeRequest_of_members hdata hrev hlong, Option.toList, List.map_cons, List.map_nil]

/-- A revocation the master sends as a text, with the expiry as a text or a number, is
reported from then on, through any other messages that are no orders, as long as the
rotations do not outnumber the slots that the lapse of time has freed. -/
theorem revocation_in_force (h : AtWork n) (hplace : n.place = .receiving)
    (hmsg : J.IsMessage msg "revoke_jwt" members) (hrev : J.HasRevocation members token expTime)
    (hlong : InLong expTime) (ha : n.engine.Accepts (expTime - n.clock))
    (hno : NoOrders J actions)
    (hrun : run (step J hash utcOffset clientUid resolve write) n (.message msg :: actions) =
      some n') (hrunning : n'.running = true) (hexp : n'.clock < expTime)
    (hrot : n.engine.slots (expTime - n'.clock) + actions.countP Action.isRotate ≤
      n.engine.slots (expTime - n.clock)) :
    n'.engine.isRevoked hash n'.clock token expTime = .ok true := by
  have hno' : NoOrders J (.message msg :: actions) := by
    intro msg' hmem
    rcases List.mem_cons.mp hmem with heq | hmem
    · cases heq
      exact not_isOrder_of_revoke hmsg
    · exact hno msg' hmem
  have hr := h.engine_of_run hplace hno' hrun hrunning
  rw [opsOf, ops_of_revoke hmsg hrev hlong, List.singleton_append] at hr
  rw [← @rotations_opsOf J (n.clock + (Action.message msg).seconds)] at hrot
  have hshaped := h.shaped (running_of_run hrun hrunning)
  have hreports := isRevoked_of_revoked hshaped ha hr (clock_le_of_run hrun) hexp hrot
  exact hreports

theorem revocation_in_force_sample :
    ∃ n', run (sampleStep sampleJson) sampleService sampleActions = some n' ∧
      n'.engine.isRevoked (fun _ key => key.length) n'.clock "a" 1700000000 = .ok true := by
  have hno : NoOrders sampleJson [.takeRecord, .tick 6, .appendRecord, .rotate] := by
    intro msg hmem
    simp at hmem
  have hrev : sampleJson.HasRevocation sampleMembers "a" 1700000000 := ⟨rfl, _, rfl, rfl⟩
  refine ⟨_, rfl, revocation_in_force atWork_sampleService rfl isMessage_sample hrev (by decide)
    ?_ hno (show run (sampleStep sampleJson) sampleService sampleActions = _ from rfl) rfl ?_ ?_⟩
  · decide
  · decide
  · decide

end Revocations

section Slaves

variable {members : List (Str × Json J.Double)} {host port : Str}

/-- What `connect` keeps the message thread from changing. -/
structure Stuck (frames : List Str) (n : Service) : Prop where
  place : n.place ≠ .receiving
  nodeRole : n.state.nodeRole = .slaveNode
  sendQueue : n.state.sendQueue = frames
  forwarded : n.forwarded = []

lemma Stuck.step {frames : List Str} (h : Stuck frames n)
    (hs : NodeService.step J hash utcOffset clientUid resolve write n a = some n') :
    Stuck frames n' ∧ ∀ msg, a ≠ .message msg := by
  obtain ⟨-, hs⟩ := steps_of_step hs
  cases hs with
  | message hplace => exact absurd hplace h.place
  | tick | takeRecord | appendRecord | rotate =>
    exact ⟨⟨h.place, h.nodeRole, h.sendQueue, h.forwarded⟩, fun msg => Action.noConfusion⟩
  | rotateFails =>
    exact ⟨⟨fun hp => Place.noConfusion hp, h.nodeRole, h.sendQueue, h.forwarded⟩,
      fun msg => Action.noConfusion⟩

lemma Stuck.run {frames : List Str} (h : Stuck frames n)
    (hrun : StepRuns.run (NodeService.step J hash utcOffset clientUid resolve write) n actions =
      some n') :
    Stuck frames n' ∧ ∀ msg, .message msg ∉ actions := by
  induction actions generalizing n with
  | nil =>
    cases hrun
    exact ⟨h, fun msg => List.not_mem_nil⟩
  | cons a actions ih =>
    obtain ⟨n₁, h₁, hrun⟩ := run_cons_eq_some.mp hrun
    obtain ⟨hstuck, hne⟩ := h.step h₁
    obtain ⟨hlast, hnone⟩ := ih hstuck hrun
    refine ⟨hlast, fun msg hmem => ?_⟩
    rcases List.mem_cons.mp hmem with heq | hmem
    · exact hne msg heq.symm
    · exact hnone msg hmem

lemma handle_slave_order (n : Service) (hmsg : J.IsMessage msg "adjust_bloom_filter" members)
    (ho : OrdersSlave members host port) (hresolve : resolve host (stringToUShort port) = .ok ()) :
    n.handle J hash utcOffset clientUid resolve write msg = { n with
      state := { n.state with nodeRole := .slaveNode, connected := false }
      place := .connecting } := by
  rw [Service.handle, turn_of_slave_order hmsg ho hresolve]

/-- The order is taken, and the thread goes into `connect`. -/
lemma step_slave_order (n : Service) (hplace : n.place = .receiving)
    (hroom : n.engine.logQueue.length ≤ queueDefaultMaxSize)
    (hmsg : J.IsMessage msg "adjust_bloom_filter" members) (ho : OrdersSlave members host port)
    (hresolve : resolve host (stringToUShort port) = .ok ()) :
    step J hash utcOffset clientUid resolve write n (.message msg) = some { n with
      state := { n.state with nodeRole := .slaveNode, connected := false }
      place := .connecting } := by
  have hrunning : n.running = true := by simp [Service.running, hplace]
  rw [step, if_pos hrunning]
  simp only [hplace, handle_slave_order n hmsg ho hresolve]
  exact if_pos hroom

/-- An order to become the slave of a proxy that can be resolved is the last message a node
handles: it is not acknowledged, no later message is taken, and nothing is ever sent to
the proxy, before the order or after it. -/
theorem slave_order_is_final (h : AtWork n)
    (hmsg : J.IsMessage msg "adjust_bloom_filter" members) (ho : OrdersSlave members host port)
    (hresolve : resolve host (stringToUShort port) = .ok ())
    (hrun : run (step J hash utcOffset clientUid resolve write) n (.message msg :: actions) =
      some n') :
    (∀ msg', .message msg' ∉ actions) ∧ n'.place ≠ .receiving ∧
      n'.state.nodeRole = .slaveNode ∧ n'.state.sendQueue = n.state.sendQueue ∧
      n'.forwarded = [] := by
  obtain ⟨n₁, h₁, hrun⟩ := run_cons_eq_some.mp hrun
  obtain ⟨-, hs⟩ := steps_of_step h₁
  cases hs
  have hstuck : Stuck n.state.sendQueue
      (n.handle J hash utcOffset clientUid resolve write msg) := by
    rw [handle_slave_order n hmsg ho hresolve]
    exact ⟨fun hp => Place.noConfusion hp, rfl, rfl, h.forwarded⟩
  obtain ⟨hlast, hnone⟩ := hstuck.run hrun
  exact ⟨hnone, hlast.place, hlast.nodeRole, hlast.sendQueue, hlast.forwarded⟩

def sampleSlaveOrder : Data :=
  ((AList.insert ("node_role" : Str) ("slave_node" : Str) ∅).insert
    ("proxy_node_host" : Str) ("10.0.0.2" : Str)).insert ("proxy_node_port" : Str) ("9999" : Str)

theorem slave_order_is_final_sample :
    ∃ n', run (sampleStep jsonText) sampleService
        [.message (jsonText.msgAssembly "adjust_bloom_filter" sampleSlaveOrder), .rotate] =
          some n' ∧
      n'.place ≠ .receiving ∧ n'.state.nodeRole = .slaveNode ∧ n'.forwarded = [] := by
  obtain ⟨members, hmsg, hlookup⟩ := JsonLib.isMessage_msgAssembly roundTrips_jsonText
    "adjust_bloom_filter" sampleSlaveOrder
  have ho : OrdersSlave (J := jsonText) members "10.0.0.2" "9999" := by
    constructor <;> rw [hlookup] <;> rfl
  have hstep : sampleStep jsonText sampleService
      (.message (jsonText.msgAssembly "adjust_bloom_filter" sampleSlaveOrder)) = some _ :=
    step_slave_order sampleService rfl (Nat.zero_le _) hmsg ho rfl
  have hrun : run (sampleStep jsonText) sampleService
      [.message (jsonText.msgAssembly "adjust_bloom_filter" sampleSlaveOrder), .rotate] =
        some _ := run_cons_eq_some.mpr ⟨_, hstep, rfl⟩
  obtain ⟨-, hplace, hrole, -, hforwarded⟩ :=
    slave_order_is_final atWork_sampleService hmsg ho rfl hrun
  exact ⟨_, hrun, hplace, hrole, hforwarded⟩

end Slaves

end JwtRevoker.NodeService
