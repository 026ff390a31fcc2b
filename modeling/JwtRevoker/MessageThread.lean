import JwtRevoker.AdjustSequence
import JwtRevoker.MasterMessages
import JwtRevoker.Rebuild

/-!
# The message thread

One turn of the loop of `msgProcWorker`, from the text of a message to what it leaves
behind, in every role of the node.
-/
namespace JwtRevoker

open EngineM Engine JsonText

namespace Scheduler

/-- What a turn comes to. The thread waits for the next message, with the frames it has
sent to the proxy; an exception has left it and ends the process; or it is in
`NodeMessageSender::connect`, the loop of which has no way out. -/
inductive Turn
  | done (s : State) (forwarded : List Str)
  | raised (fault : Fault) (s : State)
  | connecting (s : State)

section Turns

variable (J : JsonLib) (hash : HashCalls) (utcOffset now : ℤ) (clientUid : Str)
  (resolve : Str → ℕ → Except Fault Unit) (write : Str → Except Fault Unit)

def State.logged (s : State) (e : Engine) (request : Str × ℤ) : State :=
  { s with world := { s.world with engine := e.logRevoke request.1 request.2 } }

/-- The branch `revoke_jwt`. -/
def revokeTurn (data : Data) (s : State) : Turn :=
  let request := revokeRequest data
  match s.nodeRole with
  | .slaveNode =>
      let frame := NodeMessageSender.revokeFrame J request.1 (data.get "exp_time")
      match write frame with
      | .error fault => .raised fault s
      | .ok _ => .done (s.logged s.world.engine request) [frame]
  | .singleNode | .proxyNode =>
      match s.world.engine.revokeJwt hash now request.1 request.2 with
      | .error fault => .raised fault s
      | .ok e => .done (s.logged e request) []

/-- The branch `adjust_bloom_filter`. -/
def orderTurn (data : Data) (s : State) : Turn :=
  match adjustBloomFilter J hash utcOffset now clientUid resolve write data s with
  | (.raises fault, s) => .raised fault s
  | (.returns, s) => .done s []
  | (.never, s) => .connecting s

def turn (msg : Str) (s : State) : Turn :=
  match J.msgParse msg [] ∅ with
  | .error fault => .raised fault s
  | .ok (event, data) =>
      if event = "revoke_jwt" then revokeTurn J hash now write data s
      else if event = "adjust_bloom_filter" then
        orderTurn J hash utcOffset now clientUid resolve write data s
      else .done s []

end Turns

variable {J : JsonLib} {hash : HashCalls} {utcOffset now : ℤ} {clientUid : Str}
  {resolve : Str → ℕ → Except Fault Unit} {write : Str → Except Fault Unit} {msg event : Str}
  {data : Data} {s s' : State} {fault : Fault} {forwarded : List Str} {p : Params}

lemma turn_of_revoke (h : J.msgParse msg [] ∅ = .ok ("revoke_jwt", data)) :
    turn J hash utcOffset now clientUid resolve write msg s =
      revokeTurn J hash now write data s := by
  rw [turn, h]
  exact if_pos rfl

lemma turn_of_order (h : J.msgParse msg [] ∅ = .ok ("adjust_bloom_filter", data)) :
    turn J hash utcOffset now clientUid resolve write msg s =
      orderTurn J hash utcOffset now clientUid resolve write data s := by
  have hne : ("adjust_bloom_filter" : Str) ≠ "revoke_jwt" := by decide
  rw [turn, h]
  simp only [if_neg hne, if_true]

lemma turn_of_other (h : J.msgParse msg [] ∅ = .ok (event, data)) (hr : event ≠ "revoke_jwt")
    (ho : event ≠ "adjust_bloom_filter") :
    turn J hash utcOffset now clientUid resolve write msg s = .done s [] := by
  rw [turn, h]
  simp only [if_neg hr, if_neg ho]

/-- A node that is not a slave makes the revocation itself and logs it. -/
lemma revokeTurn_of_shaped (h : s.world.engine.Shaped) (hrole : s.nodeRole ≠ .slaveNode) :
    ∃ e, s.world.engine.step hash (.revokeJwt (revokeRequest data).1 (revokeRequest data).2 now) =
        .ok e ∧
      revokeTurn J hash now write data s = .done (s.logged e (revokeRequest data)) [] := by
  have hr := revokeJwt_eq h hash now (revokeRequest data).1 (revokeRequest data).2
  refine ⟨_, hr, ?_⟩
  unfold revokeTurn
  dsimp only
  split
  · exact absurd ‹_› hrole
  · rw [hr]
  · rw [hr]

lemma lookup_of_atKey {key value : Str} (h : data.atKey key = .ok value) :
    data.lookup key = some value := by
  unfold Data.atKey at h
  split at h
  · cases h
  · cases h
    assumption

/-- An order that is done with has changed nothing, or has put a role other than that of a
slave and new filters in force. -/
lemma adjustBloomFilter_done
    (h : adjustBloomFilter J hash utcOffset now clientUid resolve write data s =
      (.returns, s')) :
    s' = s ∨ s'.nodeRole ≠ .slaveNode ∧ ∃ p, Built hash utcOffset now p s.world s'.world := by
  have howner (role : NodeRole)
      (h : becomeOwner J hash utcOffset now clientUid role data s = (.returns, s')) :
      s'.nodeRole = role ∧ ∃ p, Built hash utcOffset now p s.world s'.world := by
    unfold becomeOwner at h
    dsimp only at h
    split at h
    · cases h
    · rename_i p hp
      unfold adjustAndAcknowledge at h
      split at h
      · cases h
      · rename_i w hadj
        split at h
        · cases h
        · cases h
          exact ⟨rfl, p, adjustFiltersParam_returns.mp hadj⟩
  unfold adjustBloomFilter at h
  split at h
  · cases h
  · rename_i role hnode
    split_ifs at h with hsingle hproxy hslave
    · obtain ⟨hr, hbuilt⟩ := howner .singleNode h
      exact .inr ⟨by simp [hr], hbuilt⟩
    · obtain ⟨hr, hbuilt⟩ := howner .proxyNode h
      exact .inr ⟨by simp [hr], hbuilt⟩
    · exact absurd (congrArg Prod.fst h) becomeSlave_ne_returns
    · cases h
      exact .inl rfl

/-- What a turn of a node in shape that is not a slave comes to. -/
inductive TurnOf (J : JsonLib) (hash : HashCalls) (now : ℤ) (msg : Str) (s : State) : Turn → Prop
  | revoked {data : Data} {e : Engine} : J.msgParse msg [] ∅ = .ok ("revoke_jwt", data) →
      s.world.engine.step hash (.revokeJwt (revokeRequest data).1 (revokeRequest data).2 now) =
        .ok e →
      TurnOf J hash now msg s (.done (s.logged e (revokeRequest data)) [])
  | done {event : Str} {data : Data} {s' : State} : J.msgParse msg [] ∅ = .ok (event, data) →
      event ≠ "revoke_jwt" → s'.nodeRole ≠ .slaveNode → s'.world.engine.Shaped →
      s'.world.engine.logQueue = s.world.engine.logQueue →
      (event ≠ "adjust_bloom_filter" → s' = s) → TurnOf J hash now msg s (.done s' [])
  | connecting {data : Data} {s' : State} :
      J.msgParse msg [] ∅ = .ok ("adjust_bloom_filter", data) → s'.world = s.world →
      TurnOf J hash now msg s (.connecting s')
  | raised {fault : Fault} {s' : State} :
      (∀ data, J.msgParse msg [] ∅ ≠ .ok ("revoke_jwt", data)) →
      TurnOf J hash now msg s (.raised fault s')

lemma turnOf_order (h : s.world.engine.Shaped) (hrole : s.nodeRole ≠ .slaveNode)
    (hparse : J.msgParse msg [] ∅ = .ok ("adjust_bloom_filter", data)) :
    TurnOf J hash now msg s (orderTurn J hash utcOffset now clientUid resolve write data s) := by
  have hne : ("adjust_bloom_filter" : Str) ≠ "revoke_jwt" := by decide
  have hraised : ∀ data, J.msgParse msg [] ∅ ≠ .ok ("revoke_jwt", data) := by
    intro data' h'
    rw [hparse] at h'
    exact hne (congrArg Prod.fst (Except.ok.inj h'))
  unfold orderTurn
  split
  · exact .raised hraised
  · rename_i s' hdone
    rcases adjustBloomFilter_done hdone with rfl | ⟨hrole', p, hbuilt⟩
    · exact .done hparse hne hrole h rfl fun _ => rfl
    · obtain ⟨-, -, -, hshaped, -⟩ := hbuilt.run
      refine .done hparse hne hrole' hshaped ?_ fun hevent => absurd rfl hevent
      rw [hbuilt.engine_eq]
      rfl
  · rename_i s' hnever
    exact .connecting hparse (by rw [state_of_never hnever])

/-- Only a text that `msgParse` rejects and an order can end the thread. -/
theorem turnOf_turn (h : s.world.engine.Shaped) (hrole : s.nodeRole ≠ .slaveNode) :
    TurnOf J hash now msg s (turn J hash utcOffset now clientUid resolve write msg s) := by
  cases hparse : J.msgParse msg [] ∅ with
  | error fault =>
    rw [turn, hparse]
    exact .raised fun data h' => by rw [hparse] at h'; cases h'
  | ok message =>
    obtain ⟨event, data⟩ := message
    by_cases hr : event = "revoke_jwt"
    · subst hr
      obtain ⟨e, hstep, ht⟩ := @revokeTurn_of_shaped J hash now write data s h hrole
      rw [turn_of_revoke hparse, ht]
      exact .revoked hparse hstep
    by_cases ho : event = "adjust_bloom_filter"
    · subst ho
      rw [turn_of_order hparse]
      exact turnOf_order h hrole hparse
    · rw [turn_of_other hparse hr ho]
      exact .done hparse hr hrole h rfl fun _ => rfl

section Orders

variable {members : List (Str × Json J.Double)} {role : NodeRole} {uuid : Str}

/-- The members order a role, and say which order it is. -/
structure Orders (members : List (Str × Json J.Double)) (role : NodeRole) (uuid : Str) : Prop where
  nodeRole : members.lookup ("node_role" : Str) = some (.string role.text)
  uuid : members.lookup ("uuid" : Str) = some (.string uuid)

lemma atKey_of_lookup {key value : Str}
    (hdata : ∀ key, data.lookup key = (members.lookup key).map J.memberText)
    (h : members.lookup key = some (.string value)) : data.atKey key = .ok value := by
  rw [Data.atKey, hdata, h]
  rfl

/-- The acknowledgement that is queued for an order. -/
def ack (J : JsonLib) (clientUid uuid : Str) (role : NodeRole) : Str :=
  J.msgAssembly "adjust_bloom_filter_done" (doneData clientUid uuid role)

/-- The acknowledgement that an order to become a single or proxy node asks for. -/
def ownerAck (J : JsonLib) (clientUid : Str) (data : Data) : Option Str :=
  if data.lookup ("node_role" : Str) = some NodeRole.singleNode.text then
    some (ack J clientUid (data.get "uuid") .singleNode)
  else if data.lookup ("node_role" : Str) = some NodeRole.proxyNode.text then
    some (ack J clientUid (data.get "uuid") .proxyNode)
  else none

def orderAck (J : JsonLib) (clientUid msg : Str) : Option Str :=
  match J.msgParse msg [] ∅ with
  | .ok (event, data) => if event = "adjust_bloom_filter" then ownerAck J clientUid data else none
  | .error _ => none

lemma get_of_atKey {key value : Str} (h : data.atKey key = .ok value) : data.get key = value := by
  rw [Data.get, lookup_of_atKey h]
  rfl

/-- A turn adds the acknowledgement to the queue, unless it raises. -/
def Turn.Acknowledges (sendQueue : List Str) (frame : Option Str) : Turn → Prop
  | .done s _ => s.sendQueue = sendQueue ++ frame.toList
  | .raised _ s => s.sendQueue = sendQueue
  | .connecting s => s.sendQueue = sendQueue ∧ frame = none

lemma becomeOwner_sendQueue {r : Ending × State}
    (h : becomeOwner J hash utcOffset now clientUid role data s = r) :
    (r.1 = .returns → r.2.sendQueue = s.sendQueue ++ [ack J clientUid (data.get "uuid") role]) ∧
      (r.1 ≠ .returns → r.2.sendQueue = s.sendQueue) := by
  subst h
  unfold becomeOwner
  dsimp only
  split
  · simp
  · unfold adjustAndAcknowledge
    split
    · simp
    · split
      · simp
      · rename_i uuid huuid
        rw [get_of_atKey huuid]
        simp [ack]

/-- An order that is not carried out, since it names none of the roles, changes nothing. -/
lemma adjustBloomFilter_sendQueue {r : Ending × State}
    (h : adjustBloomFilter J hash utcOffset now clientUid resolve write data s = r) :
    (r.1 = .returns → r.2.sendQueue = s.sendQueue ++ (ownerAck J clientUid data).toList) ∧
      (r.1 ≠ .returns → r.2.sendQueue = s.sendQueue) := by
  unfold adjustBloomFilter at h
  unfold ownerAck
  cases hnode : data.atKey "node_role" with
  | error fault =>
    rw [hnode] at h
    subst h
    exact ⟨fun h => Ending.noConfusion h, fun _ => rfl⟩
  | ok text =>
    have hlookup := lookup_of_atKey hnode
    have hne (role : NodeRole) (hrole : text ≠ role.text) :
        data.lookup ("node_role" : Str) ≠ some role.text :=
      fun h => hrole (Option.some.inj (hlookup.symm.trans h))
    rw [hnode] at h
    dsimp only at h
    split_ifs at h with hsingle hproxy hslave
    · rw [if_pos (hlookup.trans (congrArg some hsingle))]
      exact becomeOwner_sendQueue h
    · rw [if_neg (hne _ hsingle), if_pos (hlookup.trans (congrArg some hproxy))]
      exact becomeOwner_sendQueue h
    · refine ⟨fun hr => ?_, fun _ => ?_⟩
      · rw [← h] at hr
        exact absurd hr becomeSlave_ne_returns
      · rw [← h, becomeSlave_eq]
    · rw [if_neg (hne _ hsingle), if_neg (hne _ hproxy)]
      subst h
      simp

lemma orderTurn_acknowledges :
    (orderTurn J hash utcOffset now clientUid resolve write data s).Acknowledges s.sendQueue
      (ownerAck J clientUid data) := by
  unfold orderTurn
  split
  · rename_i fault s' hr
    exact (adjustBloomFilter_sendQueue hr).2 (by simp)
  · rename_i s' hr
    exact (adjustBloomFilter_sendQueue hr).1 rfl
  · rename_i s' hr
    have hslave := lookup_of_atKey (adjustBloomFilter_never_iff.mp (congrArg Prod.fst hr)).1
    refine ⟨(adjustBloomFilter_sendQueue hr).2 (by simp), ?_⟩
    rw [ownerAck, hslave]
    exact (if_neg (by decide)).trans (if_neg (by decide))

/-- Of the messages only orders are acknowledged. -/
lemma turn_acknowledges :
    (turn J hash utcOffset now clientUid resolve write msg s).Acknowledges s.sendQueue
      (orderAck J clientUid msg) := by
  unfold turn orderAck
  cases J.msgParse msg [] ∅ with
  | error fault => rfl
  | ok message =>
    obtain ⟨event, data⟩ := message
    dsimp only
    by_cases hr : event = "revoke_jwt"
    · have hne : event ≠ "adjust_bloom_filter" := by
        subst hr
        decide
      rw [if_pos hr, if_neg hne]
      unfold revokeTurn
      dsimp only
      split
      · split
        · rfl
        · simp [Turn.Acknowledges, State.logged]
      · split
        · rfl
        · simp [Turn.Acknowledges, State.logged]
      · split
        · rfl
        · simp [Turn.Acknowledges, State.logged]
    · rw [if_neg hr]
      by_cases ho : event = "adjust_bloom_filter"
      · rw [if_pos ho, if_pos ho]
        exact orderTurn_acknowledges
      · rw [if_neg ho, if_neg ho]
        simp [Turn.Acknowledges]

/-- The turn of an order with everything it needs comes to how the adjustment ends. -/
lemma orderTurn_of_params (hrole : role ≠ .slaveNode) (hp : filterParams data = .ok p)
    (hnode : data.atKey "node_role" = .ok role.text) (huuid : data.atKey "uuid" = .ok uuid) :
    orderTurn J hash utcOffset now clientUid resolve write data s =
      match adjustFiltersParam hash utcOffset now p s.world with
      | (.error fault, w) =>
          .raised fault { nodeRole := role, world := w, sendQueue := s.sendQueue }
      | (.ok _, w) => .done (AdjustSequence.adjusted s role w (ack J clientUid uuid role)) [] := by
  rw [orderTurn, adjustBloomFilter_of_params hp hrole hnode, adjustAndAcknowledge]
  cases hadj : adjustFiltersParam hash utcOffset now p s.world with
  | mk outcome w =>
    cases outcome with
    | error fault => rfl
    | ok =>
      dsimp only
      rw [huuid]
      rfl

lemma turn_of_owner_order (h : J.IsMessage msg "adjust_bloom_filter" members)
    (ho : Orders members role uuid) (hrole : role ≠ .slaveNode)
    (hp : J.HasParams members p) :
    turn J hash utcOffset now clientUid resolve write msg s =
      match adjustFiltersParam hash utcOffset now p s.world with
      | (.error fault, w) =>
          .raised fault { nodeRole := role, world := w, sendQueue := s.sendQueue }
      | (.ok _, w) => .done (AdjustSequence.adjusted s role w (ack J clientUid uuid role)) [] := by
  obtain ⟨data, hparse, hdata⟩ := JsonLib.msgParse_of_message h
  rw [turn_of_order hparse]
  exact orderTurn_of_params hrole (filterParams_of_members hdata hp)
    (atKey_of_lookup hdata ho.nodeRole) (atKey_of_lookup hdata ho.uuid)

lemma orderAck_of_owner_order (h : J.IsMessage msg "adjust_bloom_filter" members)
    (ho : Orders members role uuid) (hrole : role ≠ .slaveNode) :
    orderAck J clientUid msg = some (ack J clientUid uuid role) := by
  obtain ⟨data, hparse, hdata⟩ := JsonLib.msgParse_of_message h
  have hnode := lookup_of_atKey (atKey_of_lookup hdata ho.nodeRole)
  have huuid := get_of_atKey (atKey_of_lookup hdata ho.uuid)
  rw [orderAck, hparse]
  refine (if_pos rfl).trans ?_
  rw [ownerAck, hnode, huuid]
  cases role with
  | singleNode => exact if_pos rfl
  | proxyNode => exact (if_neg (by decide)).trans (if_pos rfl)
  | slaveNode => exact absurd rfl hrole

/-- The members order the node to become a slave of the proxy at this address. -/
structure OrdersSlave (members : List (Str × Json J.Double)) (host port : Str) : Prop where
  nodeRole : members.lookup ("node_role" : Str) = some (.string NodeRole.slaveNode.text)
  host : members.lookup ("proxy_node_host" : Str) = some (.string host)
  port : members.lookup ("proxy_node_port" : Str) = some (.string port)

/-- With an address that can be resolved the thread stays in `connect`. -/
lemma turn_of_slave_order {host port : Str}
    (h : J.IsMessage msg "adjust_bloom_filter" members) (ho : OrdersSlave members host port)
    (hresolve : resolve host (stringToUShort port) = .ok ()) :
    turn J hash utcOffset now clientUid resolve write msg s =
      .connecting { s with nodeRole := .slaveNode, connected := false } := by
  obtain ⟨data, hparse, hdata⟩ := JsonLib.msgParse_of_message h
  have hnode := atKey_of_lookup hdata ho.nodeRole
  rw [turn_of_order hparse, orderTurn, adjustBloomFilter_of_role hnode, if_pos rfl, becomeSlave_eq]
  simp only [atKey_of_lookup hdata ho.host, atKey_of_lookup hdata ho.port,
    NodeMessageSender.connect, hresolve]

/-- An order to a single or proxy node with parameters that `init` accepts is carried out
exactly when the lines of the visited log files parse. The node then has the role and the
parameters, with the log loaded, and has queued one acknowledgement that the master reads
back. -/
theorem order_obeyed (hJ : J.RoundTrips)
    (h : J.IsMessage msg "adjust_bloom_filter" members) (ho : Orders members role uuid)
    (hrole : role ≠ .slaveNode) (hp : J.HasParams members p) (haccepted : Accepted p) :
    ((∃ s' forwarded, turn J hash utcOffset now clientUid resolve write msg s =
        .done s' forwarded) ↔ VisitedParse utcOffset now s.world.logDir) ∧
    ∀ s' forwarded, turn J hash utcOffset now clientUid resolve write msg s =
        .done s' forwarded →
      Built hash utcOffset now p s.world s'.world ∧ s'.nodeRole = role ∧ s'.connected = false ∧
      ∃ frame data, s'.sendQueue = s.sendQueue ++ [frame] ∧
        J.msgParse frame [] ∅ = .ok ("adjust_bloom_filter_done", data) ∧
        data.lookup ("node_uid" : Str) = some clientUid ∧
        data.lookup ("uuid" : Str) = some uuid ∧
        data.lookup ("node_role" : Str) = some role.text := by
  rw [turn_of_owner_order h ho hrole hp]
  rw [← AdjustSequence.adjustFiltersParam_isOk_iff haccepted hash]
  cases hadj : adjustFiltersParam hash utcOffset now p s.world with
  | mk outcome w =>
    cases outcome with
    | error fault =>
      simp [Returns, hadj]
    | ok =>
      have hbuilt : Built hash utcOffset now p s.world w := adjustFiltersParam_returns.mp hadj
      refine ⟨⟨fun _ => ⟨w, hadj⟩, fun _ => ⟨_, _, rfl⟩⟩, ?_⟩
      intro s' forwarded hdone
      cases hdone
      obtain ⟨data, hparse, hdata⟩ := JsonLib.msgParse_msgAssembly hJ "adjust_bloom_filter_done"
        (doneData clientUid uuid role)
      refine ⟨hbuilt, rfl, rfl, _, data, rfl, hparse, ?_⟩
      simp only [hdata]
      exact ⟨rfl, rfl, rfl⟩

def sampleOrder : Data := (configData "30" "10" "8" "1").insert ("uuid" : Str) ("7" : Str)

lemma orders_sampleOrder :
    ∃ members, jsonText.IsMessage (jsonText.msgAssembly "adjust_bloom_filter" sampleOrder)
        "adjust_bloom_filter" members ∧
      Orders (J := jsonText) members .singleNode "7" ∧
      jsonText.HasParams members ⟨30, 10, 8, 1⟩ ∧ Accepted ⟨30, 10, 8, 1⟩ := by
  obtain ⟨members, h, hlookup⟩ := JsonLib.isMessage_msgAssembly roundTrips_jsonText
    "adjust_bloom_filter" sampleOrder
  refine ⟨members, h, ?_, ?_, by decide, by decide, by decide, by decide, .inr ⟨3, by decide⟩⟩
  · constructor <;> rw [hlookup] <;> rfl
  · constructor <;> exact JsonLib.hasInt_of_lookup hlookup (by decide +kernel)

theorem order_obeyed_sample :
    ∃ members, jsonText.IsMessage (jsonText.msgAssembly "adjust_bloom_filter" sampleOrder)
        "adjust_bloom_filter" members ∧
      ((∃ s' forwarded, turn jsonText (fun _ key => key.length) 0 0 "node_0001"
          (fun _ _ => .ok ()) (fun _ => .ok ())
          (jsonText.msgAssembly "adjust_bloom_filter" sampleOrder)
          { world := ⟨{}, fun _ => none⟩ } = .done s' forwarded) ↔
        VisitedParse 0 0 fun _ => none) := by
  obtain ⟨members, h, ho, hp, haccepted⟩ := orders_sampleOrder
  exact ⟨members, h, (order_obeyed roundTrips_jsonText h ho (by decide) hp haccepted).1⟩

end Orders

end Scheduler

end JwtRevoker
