import JwtRevoker.ConfigMessages
import JwtRevoker.StepRuns

/-!
# Adjustments one after the other

`msgProcWorker` on a sequence of `adjust_bloom_filter` messages, with the loop of
`NodeMessageSender::connect` attempt by attempt. The loop has no way out, so the
first slave order is never done with, and nothing behind it is handled.
-/
namespace JwtRevoker.AdjustSequence

open EngineM Engine JsonText Scheduler StepRuns

/-- A message, the time it is handled at, and how the attempts to connect to the
proxy end. -/
structure Order where
  data : Data
  now : ℤ
  attempts : ℕ → Bool

/-- Where the thread is in `msgProcWorker`; `threw` when an exception has left it. -/
inductive Place
  | receiving
  | connecting (order : Order) (attempt : ℕ)
  | sendingLog (order : Order)
  | adjusting (order : Order) (role : NodeRole) (p : Params)
  | acknowledging (order : Order) (role : NodeRole)
  | threw (fault : Fault)

inductive Event
  | rebuilt (p : Params)
  | queued (frame : Str)

/-- The thread, the orders in `recvQueue`, and what it has done to the filters and
to `sendQueue`. -/
structure Worker where
  place : Place := .receiving
  recvQueue : List Order
  state : Scheduler.State
  events : List Event := []

section Steps

variable (J : JsonLib) (hash : HashCalls) (utcOffset : ℤ) (clientUid : Str)
  (write : Str → Except Fault Unit)

def takeOwner (role : NodeRole) (order : Order) (w : Worker) : Worker :=
  let w := { w with state := { w.state with nodeRole := role, connected := false } }
  match filterParams order.data with
  | .error fault => { w with place := .threw fault }
  | .ok p => { w with place := .adjusting order role p }

def takeSlave (order : Order) (w : Worker) : Worker :=
  let w := { w with state := { w.state with nodeRole := .slaveNode, connected := false } }
  match order.data.atKey "proxy_node_host", order.data.atKey "proxy_node_port" with
  | .error fault, _ => { w with place := .threw fault }
  | _, .error fault => { w with place := .threw fault }
  | .ok _, .ok _ => { w with place := .connecting order 0 }

/-- The branch of the role, up to the first call that can take long. -/
def takeOrder (order : Order) (w : Worker) : Worker :=
  match order.data.atKey "node_role" with
  | .error fault => { w with place := .threw fault }
  | .ok role =>
      if role = NodeRole.singleNode.text then takeOwner .singleNode order w
      else if role = NodeRole.proxyNode.text then takeOwner .proxyNode order w
      else if role = NodeRole.slaveNode.text then takeSlave order w
      else w

def step (w : Worker) : Worker :=
  match w.place with
  | .receiving =>
      match w.recvQueue with
      | [] => w
      | order :: rest => takeOrder order { w with recvQueue := rest }
  | .connecting order i =>
      -- the body of `while (true)`: a success is printed, and then it waits and tries
      -- again as after a failure, which opens the socket anew
      { w with
        place := .connecting order (i + 1)
        state := { w.state with connected := order.attempts i } }
  | .sendingLog order =>
      match NodeMessageSender.sendLogToProxyNode J write utcOffset order.now
        w.state.world.logDir with
      | .error fault => { w with place := .threw fault }
      | .ok _ => { w with place := .adjusting order .slaveNode slaveParams }
  | .adjusting order role p =>
      match adjustFiltersParam hash utcOffset order.now p w.state.world with
      | (.error fault, world) =>
          { w with place := .threw fault, state := { w.state with world } }
      | (.ok _, world) =>
          { w with
            place := .acknowledging order role
            state := { w.state with world }
            events := w.events ++ [.rebuilt p] }
  | .acknowledging order role =>
      match order.data.atKey "uuid" with
      | .error fault => { w with place := .threw fault }
      | .ok uuid =>
          let frame := J.msgAssembly "adjust_bloom_filter_done" (doneData clientUid uuid role)
          { w with
            place := .receiving
            state := { w.state with sendQueue := w.state.sendQueue ++ [frame] }
            events := w.events ++ [.queued frame] }
  | .threw _ => w

/-- For each order, one rebuild with its parameters and then one acknowledgement with
its `uuid` and role, in the order of the messages. -/
inductive Acknowledged : List Order → List Event → Prop
  | nil : Acknowledged [] []
  | cons {order : Order} {orders : List Order} {events : List Event} {role : NodeRole}
      {p : Params} {uuid : Str} (hrole : order.data.atKey "node_role" = .ok role.text)
      (hp : orderedParams order.data role = .ok p)
      (huuid : order.data.atKey "uuid" = .ok uuid) (hrest : Acknowledged orders events) :
      Acknowledged (order :: orders) (.rebuilt p ::
        .queued (J.msgAssembly "adjust_bloom_filter_done" (doneData clientUid uuid role)) ::
        events)

def Event.frame : Event → List Str
  | .rebuilt _ => []
  | .queued frame => [frame]

/-- Every order is handled to its end: the thread waits for the next message, and what
it has queued are the acknowledgements. -/
def Completes (orders : List Order) (s : Scheduler.State) : Prop :=
  ∃ n s' events, (step J hash utcOffset clientUid write)^[n] { recvQueue := orders, state := s } =
      { recvQueue := [], state := s', events := events } ∧
    Acknowledged J clientUid orders events ∧
    s'.sendQueue = s.sendQueue ++ events.flatMap Event.frame

end Steps

/-- An order with all fields its role needs and parameters that `init` accepts; for a
slave, some attempt to connect is going to succeed. -/
structure Valid (role : NodeRole) (order : Order) : Prop where
  nodeRole : order.data.atKey "node_role" = .ok role.text
  uuid : ∃ uuid, order.data.atKey "uuid" = .ok uuid
  params : role ≠ .slaveNode → ∃ p, filterParams order.data = .ok p ∧ Accepted p
  proxy : role = .slaveNode → (∃ host, order.data.atKey "proxy_node_host" = .ok host) ∧
    ∃ port, order.data.atKey "proxy_node_port" = .ok port
  connects : role = .slaveNode → ∃ i, order.attempts i = true

/-- Every rebuild finds only lines that parse; each deletes the files it does not visit. -/
def LogsParse (utcOffset : ℤ) : LogDir → List Order → Prop
  | _, [] => True
  | dir, order :: orders => VisitedParse utcOffset order.now dir ∧
      LogsParse utcOffset (deleteOthers (lookForHourFiles utcOffset order.now dir) dir) orders

variable {J : JsonLib} {hash : HashCalls} {utcOffset : ℤ} {clientUid : Str}
  {write : Str → Except Fault Unit} {order : Order} {orders : List Order} {w : Worker}
  {role : NodeRole} {p : Params} {world' : World} {s : Scheduler.State}
  {events : List Event}

/-- Accepted parameters are put into force exactly when the lines of the log parse. -/
lemma adjustFiltersParam_isOk_iff (h : Accepted p) (hash : HashCalls) (utcOffset now : ℤ)
    (world : World) :
    (∃ world', Returns (adjustFiltersParam hash utcOffset now p) world () world') ↔
      VisitedParse utcOffset now world.logDir := by
  obtain ⟨filters, hnew⟩ := h.getNewFilters_isOk
  have hR := toNat_pos_of_ne_zero h.2.1
  have hshape : Shaped { world.engine.withParams p with filters := filters } :=
    ⟨hR, rfl, (getNewFilters_eq_ok hnew).1⟩
  rw [← importFound_isOk_iff hshape hash utcOffset now world.logDir]
  simp only [adjustFiltersParam_returns, importFiles_withFilters]
  constructor
  · rintro ⟨world', hb⟩
    obtain ⟨filters', hnew', hi⟩ := hb.filters_eq
    rw [hnew] at hnew'
    cases hnew'
    rw [hb.logDir_eq] at hi
    exact ⟨_, hi⟩
  · rintro ⟨filters', hi⟩
    exact ⟨⟨{ world.engine.withParams p with filters := filters' }, _⟩, hR, rfl, rfl, filters,
      hnew, hi⟩

/-- The thread waits for a message, and there is none. -/
def Worker.Idle (w : Worker) : Prop := w.place = .receiving ∧ w.recvQueue = []

def Worker.Connecting (w : Worker) : Prop := ∃ order i, w.place = .connecting order i

lemma step_of_idle (h : w.Idle) : step J hash utcOffset clientUid write w = w := by
  obtain ⟨hplace, hqueue⟩ := h
  simp only [step, hplace, hqueue]

lemma step_of_connecting (h : w.Connecting) :
    (step J hash utcOffset clientUid write w).Connecting := by
  obtain ⟨order, i, hplace⟩ := h
  exact ⟨order, i + 1, by simp only [step, hplace]⟩

lemma step_of_threw {fault : Fault} (h : w.place = .threw fault) :
    step J hash utcOffset clientUid write w = w := by
  simp only [step, h]

/-- `connect` does not return, however its attempts end. -/
theorem not_finishes_of_connecting (h : w.Connecting) :
    ¬ Finishes (step J hash utcOffset clientUid write) Worker.Idle w := by
  refine not_finishes Worker.Connecting (fun _ => step_of_connecting) ?_ h
  rintro w ⟨order, i, hplace⟩ ⟨hidle, -⟩
  rw [hplace] at hidle
  cases hidle

lemma not_finishes_of_threw {fault : Fault} (h : w.place = .threw fault) :
    ¬ Finishes (step J hash utcOffset clientUid write) Worker.Idle w := by
  refine not_finishes (fun w => w.place = .threw fault)
    (fun w hw => by rw [step_of_threw hw]; exact hw) (fun w hw hidle => ?_) h
  rw [hidle.1] at hw
  cases hw

lemma eq_slaveNode_of_text (h : role.text = NodeRole.slaveNode.text) : role = .slaveNode := by
  cases role
  · exact absurd h (by decide)
  · exact absurd h (by decide)
  · rfl

lemma Valid.slave_iff (hv : Valid role order) :
    order.data.atKey "node_role" = .ok NodeRole.slaveNode.text ↔ role = .slaveNode := by
  rw [hv.nodeRole]
  constructor
  · intro h
    exact eq_slaveNode_of_text (Except.ok.inj h)
  · rintro rfl
    rfl

/-- The state when an order for a single or proxy node has been handled. -/
def adjusted (s : Scheduler.State) (role : NodeRole) (world : World) (frame : Str) :
    Scheduler.State where
  nodeRole := role
  connected := false
  world := world
  sendQueue := s.sendQueue ++ [frame]

section Orders

variable (hv : Valid role order)
include hv

lemma step_slave (hrole : role = .slaveNode) :
    (step J hash utcOffset clientUid write
      { recvQueue := order :: orders, state := s, events := events }).Connecting := by
  obtain ⟨⟨host, hhost⟩, port, hport⟩ := hv.proxy hrole
  refine ⟨order, 0, ?_⟩
  have hnode := hv.nodeRole
  rw [hrole] at hnode
  simp only [step, takeOrder, hnode, takeSlave, hhost, hport]
  rfl

lemma step_owner (hrole : role ≠ .slaveNode) (hp : filterParams order.data = .ok p) :
    step J hash utcOffset clientUid write
        { recvQueue := order :: orders, state := s, events := events } =
      { place := .adjusting order role p
        recvQueue := orders
        state := { s with nodeRole := role, connected := false }
        events := events } := by
  simp only [step, takeOrder, hv.nodeRole]
  cases role with
  | singleNode =>
    rw [if_pos rfl, takeOwner, hp]
  | proxyNode =>
    rw [if_neg (by decide), if_pos rfl, takeOwner, hp]
  | slaveNode => exact absurd rfl hrole

lemma steps_owner {uuid : Str} (hrole : role ≠ .slaveNode) (hp : filterParams order.data = .ok p)
    (huuid : order.data.atKey "uuid" = .ok uuid)
    (hr : Returns (adjustFiltersParam hash utcOffset order.now p) s.world () world') :
    (step J hash utcOffset clientUid write)^[3]
        { recvQueue := order :: orders, state := s, events := events } =
      { recvQueue := orders
        state := adjusted s role world'
          (J.msgAssembly "adjust_bloom_filter_done" (doneData clientUid uuid role))
        events := events ++ [.rebuilt p, .queued
          (J.msgAssembly "adjust_bloom_filter_done" (doneData clientUid uuid role))] } := by
  rw [Returns] at hr
  rw [Function.iterate_succ_apply, step_owner hv hrole hp, Function.iterate_succ_apply,
    Function.iterate_one]
  simp only [step, hr, huuid, adjusted, List.append_assoc, List.cons_append, List.nil_append]

/-- The steps of an order for a single or proxy node do what the branch does as one call. -/
theorem adjustBloomFilter_owner {uuid : Str} {resolve : Str → ℕ → Except Fault Unit}
    (hrole : role ≠ .slaveNode) (hp : filterParams order.data = .ok p)
    (huuid : order.data.atKey "uuid" = .ok uuid)
    (hr : Returns (adjustFiltersParam hash utcOffset order.now p) s.world () world') :
    adjustBloomFilter J hash utcOffset order.now clientUid resolve write order.data s =
      (.returns, adjusted s role world'
        (J.msgAssembly "adjust_bloom_filter_done" (doneData clientUid uuid role))) := by
  rw [Returns] at hr
  rw [adjustBloomFilter_of_params hp hrole hv.nodeRole, adjustAndAcknowledge]
  simp only [hr, huuid, adjusted]

/-- The steps of an order for a slave node come to no end, and as one call the branch never
ends, when the resolver knows the proxy. -/
theorem adjustBloomFilter_slave {resolve : Str → ℕ → Except Fault Unit}
    (hrole : role = .slaveNode) (hresolve : ∀ host port, resolve host port = .ok ()) :
    (adjustBloomFilter J hash utcOffset order.now clientUid resolve write order.data s).1 =
        .never ∧
      ¬ Finishes (step J hash utcOffset clientUid write) Worker.Idle
        { recvQueue := order :: orders, state := s, events := events } := by
  obtain ⟨⟨host, hhost⟩, port, hport⟩ := hv.proxy hrole
  refine ⟨adjustBloomFilter_never_iff.mpr ⟨hrole ▸ hv.nodeRole, host, port, hhost, hport,
    hresolve host _⟩, ?_⟩
  rw [← finishes_next fun _ => step_of_idle]
  exact not_finishes_of_connecting (step_slave hv hrole)

end Orders

/-- Without a slave order, and with logs that parse, the thread gets to the end. -/
lemma completes_of_owners (hvalid : ∀ order ∈ orders, ∃ role, Valid role order)
    (howner : ∀ order ∈ orders, order.data.atKey "node_role" ≠ .ok NodeRole.slaveNode.text)
    (hlogs : LogsParse utcOffset s.world.logDir orders) :
    ∃ n s' later, (step J hash utcOffset clientUid write)^[n]
        { recvQueue := orders, state := s, events := events } =
      { recvQueue := [], state := s', events := events ++ later } ∧
      Acknowledged J clientUid orders later ∧
      s'.sendQueue = s.sendQueue ++ later.flatMap Event.frame := by
  induction orders generalizing s events with
  | nil => exact ⟨0, s, [], by simp, .nil, by simp⟩
  | cons order orders ih =>
    rw [List.forall_mem_cons] at hvalid howner
    obtain ⟨⟨role, hv⟩, hvalid⟩ := hvalid
    obtain ⟨hparse, hlogs⟩ := hlogs
    have hrole : role ≠ .slaveNode := fun h => howner.1 (hv.slave_iff.mpr h)
    obtain ⟨p, hp, haccepted⟩ := hv.params hrole
    obtain ⟨uuid, huuid⟩ := hv.uuid
    obtain ⟨world', hr⟩ := (adjustFiltersParam_isOk_iff haccepted hash _ _ _).mpr hparse
    have hdir := (adjustFiltersParam_returns.mp hr).logDir_eq
    have hordered : orderedParams order.data role = .ok p := by
      cases role <;> first | exact hp | exact absurd rfl hrole
    rw [← hdir] at hlogs
    have hthree := @steps_owner J hash utcOffset clientUid write order orders role p world'
      s events hv uuid hrole hp huuid hr
    obtain ⟨n, s', later, hn, hacks, hsent⟩ := @ih (adjusted s role world' _)
      (events ++ [.rebuilt p, .queued _]) hvalid howner.2 hlogs
    refine ⟨n + 3, s', _, ?_, .cons hv.nodeRole hordered huuid hacks, ?_⟩
    · rw [Function.iterate_add_apply, hthree, hn]
      simp
    · rw [hsent]
      simp [Event.frame, adjusted]

/-- The thread gets to the end only without slave orders and with logs that parse. -/
lemma owners_of_finishes (hvalid : ∀ order ∈ orders, ∃ role, Valid role order)
    (h : Finishes (step J hash utcOffset clientUid write) Worker.Idle
      { recvQueue := orders, state := s, events := events }) :
    (∀ order ∈ orders, order.data.atKey "node_role" ≠ .ok NodeRole.slaveNode.text) ∧
      LogsParse utcOffset s.world.logDir orders := by
  induction orders generalizing s events with
  | nil => exact ⟨by simp, trivial⟩
  | cons order orders ih =>
    rw [List.forall_mem_cons] at hvalid
    obtain ⟨⟨role, hv⟩, hvalid⟩ := hvalid
    rw [← finishes_next fun _ => step_of_idle] at h
    by_cases hrole : role = .slaveNode
    · exact absurd h (not_finishes_of_connecting (step_slave hv hrole))
    obtain ⟨p, hp, haccepted⟩ := hv.params hrole
    obtain ⟨uuid, huuid⟩ := hv.uuid
    cases hadj : adjustFiltersParam hash utcOffset order.now p s.world with
    | mk outcome world' =>
      rw [step_owner hv hrole hp, ← finishes_next fun _ => step_of_idle] at h
      cases outcome with
      | error fault =>
        simp only [step, hadj] at h
        exact absurd h (not_finishes_of_threw rfl)
      | ok =>
        have hr : Returns (adjustFiltersParam hash utcOffset order.now p) s.world () world' := hadj
        have hdir := (adjustFiltersParam_returns.mp hr).logDir_eq
        rw [← finishes_next fun _ => step_of_idle] at h
        simp only [step, hadj, huuid] at h
        obtain ⟨howner, hlogs⟩ := ih hvalid h
        refine ⟨List.forall_mem_cons.mpr ⟨fun hslave => hrole (hv.slave_iff.mp hslave), howner⟩,
          (adjustFiltersParam_isOk_iff haccepted hash _ _ _).mp ⟨world', hr⟩, ?_⟩
        rw [← hdir]
        exact hlogs

/-- Every adjustment is completed and acknowledged once, in order, exactly when no order
is for a slave node and every rebuild finds only lines that parse. -/
theorem completes_iff (hvalid : ∀ order ∈ orders, ∃ role, Valid role order)
    (s : Scheduler.State) :
    Completes J hash utcOffset clientUid write orders s ↔
      (∀ order ∈ orders, order.data.atKey "node_role" ≠ .ok NodeRole.slaveNode.text) ∧
        LogsParse utcOffset s.world.logDir orders := by
  constructor
  · rintro ⟨n, s', events, hn, -, -⟩
    exact owners_of_finishes hvalid ⟨n, by rw [hn]; exact ⟨rfl, rfl⟩⟩
  · rintro ⟨howner, hlogs⟩
    obtain ⟨n, s', later, hn, hacks, hsent⟩ :=
      @completes_of_owners J hash utcOffset clientUid write orders s [] hvalid howner hlogs
    exact ⟨n, s', later, hn, hacks, hsent⟩

/-- An order to become a single node, with the parameters of `configData`. -/
def singleOrder : Order where
  data := (configData "86400" "3600" "1024" "3").insert ("uuid" : Str) ("u1" : Str)
  now := 1700000000
  attempts := fun _ => false

lemma singleOrder_valid : Valid .singleNode singleOrder where
  nodeRole := by decide +kernel
  uuid := ⟨"u1", by decide +kernel⟩
  params := fun _ => ⟨⟨86400, 3600, 1024, 3⟩, by decide +kernel, by decide, by decide, by decide,
    by decide, .inr ⟨10, rfl⟩⟩
  proxy := fun h => nomatch h
  connects := fun h => nomatch h

/-- An order to become a proxy node, an hour after `singleOrder`. -/
def proxyOrder : Order where
  data := ((configData "86400" "3600" "2048" "3").insert ("node_role" : Str)
    ("proxy_node" : Str)).insert ("uuid" : Str) ("u3" : Str)
  now := 1700003600
  attempts := fun _ => false

lemma proxyOrder_valid : Valid .proxyNode proxyOrder where
  nodeRole := by decide +kernel
  uuid := ⟨"u3", by decide +kernel⟩
  params := fun _ => ⟨⟨86400, 3600, 2048, 3⟩, by decide +kernel, by decide, by decide, by decide,
    by decide, .inr ⟨11, rfl⟩⟩
  proxy := fun h => nomatch h
  connects := fun h => nomatch h

/-- A node becomes a single node and then a proxy node. -/
theorem completes_iff_two_roles :
    (∀ order ∈ [singleOrder, proxyOrder], ∃ role, Valid role order) ∧
    Completes jsonText (fun _ key => key.length) 0 "uid" (fun _ => .ok ())
      [singleOrder, proxyOrder] { world := ⟨{}, fun _ => none⟩ } := by
  have hvalid : ∀ order ∈ [singleOrder, proxyOrder], ∃ role, Valid role order := by
    simp only [List.forall_mem_cons]
    exact ⟨⟨_, singleOrder_valid⟩, ⟨_, proxyOrder_valid⟩, by simp⟩
  have hdelete (files : List Str) : deleteOthers files (fun _ => none) = fun _ => none := by
    funext name
    simp [deleteOthers]
  refine ⟨hvalid, (completes_iff hvalid _).mpr
    ⟨by decide +kernel, visitedParse_empty _ _, ?_, trivial⟩⟩
  rw [hdelete]
  exact visitedParse_empty _ _

/-- An order to become a slave of a proxy that can be reached at once. -/
def slaveOrder : Order where
  data := (((AList.insert ("node_role" : Str) ("slave_node" : Str) ∅).insert ("uuid" : Str)
    ("u2" : Str)).insert ("proxy_node_host" : Str) ("10.0.0.1" : Str)).insert
      ("proxy_node_port" : Str) ("9999" : Str)
  now := 1700000000
  attempts := fun _ => true

lemma slaveOrder_valid : Valid .slaveNode slaveOrder where
  nodeRole := by decide +kernel
  uuid := ⟨"u2", by decide +kernel⟩
  params := fun h => absurd rfl h
  proxy := fun _ => ⟨⟨"10.0.0.1", by decide +kernel⟩, "9999", by decide +kernel⟩
  connects := fun _ => ⟨0, rfl⟩

/-- Every attempt to connect succeeds, and the order is never done. -/
theorem slave_order_never_done :
    (∃ role, Valid role slaveOrder) ∧
    ¬ Completes jsonText (fun _ key => key.length) 0 "uid" (fun _ => .ok ()) [slaveOrder]
      { world := ⟨{}, fun _ => none⟩ } := by
  have hvalid : ∀ order ∈ [slaveOrder], ∃ role, Valid role order :=
    List.forall_mem_singleton.mpr ⟨_, slaveOrder_valid⟩
  refine ⟨⟨_, slaveOrder_valid⟩, ?_⟩
  rintro ⟨n, s', events, hn, -, -⟩
  obtain ⟨howner, -⟩ := owners_of_finishes hvalid ⟨n, by rw [hn]; exact ⟨rfl, rfl⟩⟩
  exact howner _ List.mem_cons_self slaveOrder_valid.nodeRole

end JwtRevoker.AdjustSequence
