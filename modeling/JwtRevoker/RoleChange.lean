import JwtRevoker.ProxyQuery

/-!
# Role changes

The `adjust_bloom_filter` branch of `msgProcWorker`. Each of its three cases
assigns the role and closes the connection to the proxy before it reads the other
fields, and nothing is undone when an exception leaves it later.
-/
namespace JwtRevoker

open EngineM Engine JsonText

/-- How the handling of a message ends, if it does. -/
inductive Ending
  | returns
  | raises (fault : Fault)
  | never
  deriving DecidableEq

namespace NodeMessageSender

/-- `resolve` is the resolver. The loop behind it prints what an attempt to connect has come
to and makes the next one, after a success as after a failure. -/
def connect (resolve : Str → ℕ → Except Fault Unit) (host : Str) (port : ℕ) : Ending :=
  match resolve host port with
  | .error fault => .raises fault
  | .ok _ => .never

def revokeData (token expTimeStr : Str) : Data :=
  (AList.insert ("token" : Str) token ∅).insert ("exp_time" : Str) expTimeStr

def revokeFrame (J : JsonLib) (token expTimeStr : Str) : Str :=
  J.msgAssembly "revoke_jwt" (revokeData token expTimeStr)

/-- The lines `sendLogToProxyNode` reads, those of the newest file first. -/
def linesToSend (utcOffset now : ℤ) (dir : LogDir) : List Str :=
  (lookForHourFiles utcOffset now dir).flatMap (linesOf dir)

/-- The frame for one line; there is none for a line without a record and for a
record that has expired. -/
def frameOfLine (J : JsonLib) (now : ℤ) (line : Str) : Except Fault (Option Str) :=
  match splitRecord line with
  | none => .ok none
  | some (token, expTimeStr) => do
      let expTime ← stol expTimeStr
      if expTime < now then return none
      return some (revokeFrame J token expTimeStr)

/-- `write` is `sendMsgToSocket` on the connection to the proxy. -/
def sendLogToProxyNode (J : JsonLib) (write : Str → Except Fault Unit) (utcOffset now : ℤ)
    (dir : LogDir) : Except Fault Unit :=
  (linesToSend utcOffset now dir).forM fun line => do
    match ← frameOfLine J now line with
    | none => return ()
    | some frame => write frame

variable {J : JsonLib} {hash : HashCalls} {now : ℤ}

lemma frameOfLine_of_record {line token expTimeStr : Str} {expTime : ℤ}
    (hsplit : splitRecord line = some (token, expTimeStr))
    (hstol : stol expTimeStr = .ok expTime) (hlive : now ≤ expTime) :
    frameOfLine J now line = .ok (some (revokeFrame J token expTimeStr)) := by
  rw [frameOfLine, hsplit]
  dsimp only
  rw [hstol, ok_bind, if_neg (not_lt.mpr hlive)]
  rfl

/-- A proxy makes the revocation that the line of the frame records. -/
lemma processTask_revokeFrame (hJ : J.RoundTrips) {token expTimeStr : Str} {expTime : ℤ}
    (hstol : stol expTimeStr = .ok expTime) (now : ℤ)
    (proxyQuery : Str → ℤ → Except Fault Bool) (e : Engine) :
    Server.processTask J hash now .proxyNode proxyQuery e (revokeFrame J token expTimeStr) =
      (e.revokeJwt hash now token expTime).map fun e' => (e', none) := by
  have hrequest : Scheduler.revokeRequest (revokeData token expTimeStr) = (token, expTime) :=
    Prod.ext rfl (stringToTimestamp_of_stol hstol)
  rw [revokeFrame, Server.processTask_revoke hJ, hrequest]

end NodeMessageSender

namespace Scheduler

/-- What the message thread changes: `connected` tells whether the socket of
`nodeMessageSender` is open, `sendQueue` is the queue of the session. -/
structure State where
  nodeRole : NodeRole := .singleNode
  connected : Bool := false
  world : World
  sendQueue : List Str := []

/-- `adjustFiltersParam(86400, 86400, 8, 1)` of the case `slave_node`. -/
def slaveParams : Params := ⟨86400, 86400, 8, 1⟩

/-- The parameters that an order to take a role sets. -/
def orderedParams (data : Data) : NodeRole → Except Fault Params
  | .slaveNode => .ok slaveParams
  | _ => filterParams data

def doneData (clientUid uuid : Str) (role : NodeRole) : Data :=
  ((AList.insert ("node_uid" : Str) clientUid ∅).insert ("uuid" : Str) uuid).insert
    ("node_role" : Str) role.text

section Handler

variable (J : JsonLib) (hash : HashCalls) (utcOffset now : ℤ) (clientUid : Str)

/-- The end of each case: the filters are adjusted and the order is acknowledged. -/
def adjustAndAcknowledge (role : NodeRole) (data : Data) (p : Params) (s : State) :
    Ending × State :=
  match adjustFiltersParam hash utcOffset now p s.world with
  | (.error fault, w) => (.raises fault, { s with world := w })
  | (.ok _, w) =>
      match data.atKey "uuid" with
      | .error fault => (.raises fault, { s with world := w })
      | .ok uuid =>
          (.returns, { s with
            world := w
            sendQueue := s.sendQueue ++
              [J.msgAssembly "adjust_bloom_filter_done" (doneData clientUid uuid role)] })

/-- The cases `single_node` and `proxy_node`, which do the same. -/
def becomeOwner (role : NodeRole) (data : Data) (s : State) : Ending × State :=
  let s := { s with nodeRole := role, connected := false }
  match filterParams data with
  | .error fault => (.raises fault, s)
  | .ok p => adjustAndAcknowledge J hash utcOffset now clientUid role data p s

/-- The case `slave_node`. In a handling that never ends the state is the one it has made
when it comes to the loop of `connect`. -/
def becomeSlave (resolve : Str → ℕ → Except Fault Unit) (write : Str → Except Fault Unit)
    (data : Data) (s : State) : Ending × State :=
  let s := { s with nodeRole := .slaveNode, connected := false }
  match data.atKey "proxy_node_host", data.atKey "proxy_node_port" with
  | .error fault, _ => (.raises fault, s)
  | _, .error fault => (.raises fault, s)
  | .ok host, .ok port =>
      match NodeMessageSender.connect resolve host (stringToUShort port) with
      | .raises fault => (.raises fault, s)
      | .never => (.never, s)
      | .returns =>
          let s := { s with connected := true }
          match NodeMessageSender.sendLogToProxyNode J write utcOffset now s.world.logDir with
          | .error fault => (.raises fault, s)
          | .ok _ =>
              adjustAndAcknowledge J hash utcOffset now clientUid .slaveNode data slaveParams s

/-- How the handling of an `adjust_bloom_filter` message ends, and the state it leaves. -/
def adjustBloomFilter (resolve : Str → ℕ → Except Fault Unit) (write : Str → Except Fault Unit)
    (data : Data) (s : State) : Ending × State :=
  match data.atKey "node_role" with
  | .error fault => (.raises fault, s)
  | .ok role =>
      if role = NodeRole.singleNode.text then
        becomeOwner J hash utcOffset now clientUid .singleNode data s
      else if role = NodeRole.proxyNode.text then
        becomeOwner J hash utcOffset now clientUid .proxyNode data s
      else if role = NodeRole.slaveNode.text then
        becomeSlave J hash utcOffset now clientUid resolve write data s
      else (.returns, s)

end Handler

variable {J : JsonLib} {hash : HashCalls} {utcOffset now : ℤ} {clientUid : Str}
  {resolve : Str → ℕ → Except Fault Unit} {write : Str → Except Fault Unit} {data : Data}
  {s s' : State} {p : Params} {role : NodeRole} {w w' : World} {fault : Fault}

lemma bind_apply {α β : Type} (x : EngineM α) (f : α → EngineM β) (w : World) :
    (x >>= f) w = match x w with
      | (.ok a, w') => f a w'
      | (.error fault, w') => (.error fault, w') := rfl

/-- A build that raises has stored all parameters and installed nothing. -/
theorem engine_of_raised (hR : 0 < p.rotationInterval.toNat)
    (h : adjustFiltersParam hash utcOffset now p w = (.error fault, w')) :
    w'.engine = w.engine.withParams p := by
  have hstore : storeParams p w = (.ok (), { w with engine := w.engine.withParams p }) :=
    storeParams_returns.mpr ⟨hR, rfl⟩
  unfold adjustFiltersParam at h
  rw [bind_apply, hstore] at h
  simp only [bind_apply, world, lift] at h
  cases hnew : getNewFilters (w.engine.withParams p).filtersNum
      (w.engine.withParams p).bloomFilterSize (w.engine.withParams p).hashFunctionNum with
  | error fault' =>
    rw [hnew] at h
    cases h
    rfl
  | ok filters =>
    rw [hnew] at h
    simp only [recoverFromLog, bind_apply, world, update, lift] at h
    split at h
    · cases h
    · rename_i himport
      cases h
      rw [← (Prod.mk.inj himport).2]

/-- After an exception: the new role, the old connection closed, nothing queued, and
the engine as before, or with all parameters new and the old filters, or rebuilt when
only the `uuid` is missing. -/
structure HalfChanged (hash : HashCalls) (utcOffset now : ℤ) (data : Data) (role : NodeRole)
    (s s' : State) : Prop where
  nodeRole : s'.nodeRole = role
  connected : s'.connected = false
  sendQueue : s'.sendQueue = s.sendQueue
  engine : s'.world.engine = s.world.engine ∨
    ∃ p, orderedParams data role = .ok p ∧ (s'.world.engine = s.world.engine.withParams p ∨
      (∃ fault, data.atKey "uuid" = .error fault) ∧ Built hash utcOffset now p s.world s'.world)

/-- After a return: role, parameters and filters of the order, and one acknowledgement. -/
structure Changed (J : JsonLib) (hash : HashCalls) (utcOffset now : ℤ) (clientUid : Str)
    (data : Data) (role : NodeRole) (s s' : State) : Prop where
  nodeRole : s'.nodeRole = role
  connected : s'.connected = true ↔ role = .slaveNode
  built : ∃ p, orderedParams data role = .ok p ∧ Built hash utcOffset now p s.world s'.world
  sendQueue : ∃ uuid, data.atKey "uuid" = .ok uuid ∧ s'.sendQueue = s.sendQueue ++
    [J.msgAssembly "adjust_bloom_filter_done" (doneData clientUid uuid role)]

/-- How the order ends when it does, from the state before it. -/
structure Ends (J : JsonLib) (hash : HashCalls) (utcOffset now : ℤ) (clientUid : Str)
    (data : Data) (role : NodeRole) (s : State) (outcome : Ending × State) : Prop where
  raises : ∀ fault, outcome.1 = .raises fault → HalfChanged hash utcOffset now data role s outcome.2
  returns : outcome.1 = .returns → Changed J hash utcOffset now clientUid data role s outcome.2

lemma ends_of_raise (fault : Fault) :
    Ends J hash utcOffset now clientUid data role s
      (.raises fault, { s with nodeRole := role, connected := false }) where
  raises := fun _ _ => ⟨rfl, rfl, rfl, .inl rfl⟩
  returns := fun h => Ending.noConfusion h

lemma ends_of_adjust (hrole : role ≠ .slaveNode) (hp : orderedParams data role = .ok p)
    (hR : 0 < p.rotationInterval.toNat) :
    Ends J hash utcOffset now clientUid data role s
      (adjustAndAcknowledge J hash utcOffset now clientUid role data p
        { s with nodeRole := role, connected := false }) := by
  unfold adjustAndAcknowledge
  dsimp only
  cases hadj : adjustFiltersParam hash utcOffset now p s.world with
  | mk outcome w =>
    cases outcome with
    | error fault =>
      have heng := engine_of_raised hR hadj
      exact ⟨fun _ _ => ⟨rfl, rfl, rfl, .inr ⟨p, hp, .inl heng⟩⟩, fun h => Ending.noConfusion h⟩
    | ok =>
      have hbuilt : Built hash utcOffset now p s.world w := adjustFiltersParam_returns.mp hadj
      cases huuid : data.atKey "uuid" with
      | error fault =>
        exact ⟨fun _ _ => ⟨rfl, rfl, rfl, .inr ⟨p, hp, .inr ⟨⟨fault, huuid⟩, hbuilt⟩⟩⟩,
          fun h => Ending.noConfusion h⟩
      | ok uuid =>
        have hc : false = true ↔ role = .slaveNode := iff_of_false Bool.false_ne_true hrole
        exact ⟨fun fault h => Ending.noConfusion h,
          fun _ => ⟨rfl, hc, ⟨p, hp, hbuilt⟩, uuid, huuid, rfl⟩⟩

lemma ends_of_becomeOwner (hrole : role ≠ .slaveNode)
    (hR : ∀ p, orderedParams data role = .ok p → 0 < p.rotationInterval.toNat) :
    Ends J hash utcOffset now clientUid data role s
      (becomeOwner J hash utcOffset now clientUid role data s) := by
  have hp : orderedParams data role = filterParams data := by
    cases role <;> first | rfl | exact absurd rfl hrole
  unfold becomeOwner
  dsimp only
  cases hparams : filterParams data with
  | error fault => exact ends_of_raise fault
  | ok p =>
    rw [hparams] at hp
    exact ends_of_adjust hrole hp (hR p hp)

/-- The case `slave_node` raises, or comes to the loop of `connect`. -/
lemma becomeSlave_eq :
    becomeSlave J hash utcOffset now clientUid resolve write data s =
      (match data.atKey "proxy_node_host", data.atKey "proxy_node_port" with
        | .error fault, _ => .raises fault
        | _, .error fault => .raises fault
        | .ok host, .ok port => NodeMessageSender.connect resolve host (stringToUShort port),
        { s with nodeRole := .slaveNode, connected := false }) := by
  unfold becomeSlave NodeMessageSender.connect
  dsimp only
  cases data.atKey "proxy_node_host" with
  | error fault => rfl
  | ok host =>
    cases data.atKey "proxy_node_port" with
    | error fault => rfl
    | ok port =>
      dsimp only
      cases resolve host (stringToUShort port) with
      | error fault => rfl
      | ok => rfl

lemma connect_ne_returns (host : Str) (port : ℕ) :
    NodeMessageSender.connect resolve host port ≠ .returns := by
  unfold NodeMessageSender.connect
  split <;> simp

lemma becomeSlave_ne_returns :
    (becomeSlave J hash utcOffset now clientUid resolve write data s).1 ≠ .returns := by
  rw [becomeSlave_eq]
  dsimp only
  split
  · simp
  · simp
  · exact connect_ne_returns _ _

lemma ends_of_becomeSlave :
    Ends J hash utcOffset now clientUid data .slaveNode s
      (becomeSlave J hash utcOffset now clientUid resolve write data s) := by
  refine ⟨fun _ _ => ?_, fun h => absurd h becomeSlave_ne_returns⟩
  rw [becomeSlave_eq]
  exact ⟨rfl, rfl, rfl, .inl rfl⟩

/-- Which case handles an order for a known role. -/
lemma adjustBloomFilter_of_role (h : data.atKey "node_role" = .ok role.text) :
    adjustBloomFilter J hash utcOffset now clientUid resolve write data s =
      if role = .slaveNode then becomeSlave J hash utcOffset now clientUid resolve write data s
      else becomeOwner J hash utcOffset now clientUid role data s := by
  unfold adjustBloomFilter
  rw [h]
  cases role <;> rfl

lemma becomeOwner_ne_never :
    (becomeOwner J hash utcOffset now clientUid role data s).1 ≠ .never := by
  unfold becomeOwner
  dsimp only
  split
  · simp
  · unfold adjustAndAcknowledge
    split
    · simp
    · split <;> simp

/-- The handling of an order never ends exactly when it orders the node to become the slave
of a proxy whose host can be resolved. -/
theorem adjustBloomFilter_never_iff :
    (adjustBloomFilter J hash utcOffset now clientUid resolve write data s).1 = .never ↔
      data.atKey "node_role" = .ok NodeRole.slaveNode.text ∧
      ∃ host port, data.atKey "proxy_node_host" = .ok host ∧
        data.atKey "proxy_node_port" = .ok port ∧
        resolve host (stringToUShort port) = .ok () := by
  unfold adjustBloomFilter
  cases data.atKey "node_role" with
  | error fault => simp
  | ok text =>
    dsimp only
    split_ifs with hsingle hproxy hslave
    · refine iff_of_false becomeOwner_ne_never ?_
      rintro ⟨h, -⟩
      exact absurd (hsingle.symm.trans (Except.ok.inj h)) (by decide)
    · refine iff_of_false becomeOwner_ne_never ?_
      rintro ⟨h, -⟩
      exact absurd (hproxy.symm.trans (Except.ok.inj h)) (by decide)
    · rw [becomeSlave_eq]
      unfold NodeMessageSender.connect
      cases data.atKey "proxy_node_host" with
      | error fault => simp
      | ok host =>
        cases data.atKey "proxy_node_port" with
        | error fault => simp
        | ok port =>
          dsimp only
          cases hresolve : resolve host (stringToUShort port) with
          | error fault => simp [hresolve]
          | ok => simp [hslave, hresolve]
    · refine iff_of_false (by simp) ?_
      rintro ⟨h, -⟩
      exact hslave (Except.ok.inj h)

/-- What the handling has done when it comes to the loop of `connect`. -/
lemma state_of_never
    (h : adjustBloomFilter J hash utcOffset now clientUid resolve write data s = (.never, s')) :
    s' = { s with nodeRole := .slaveNode, connected := false } := by
  obtain ⟨hnode, -⟩ := adjustBloomFilter_never_iff.mp (congrArg Prod.fst h)
  rw [adjustBloomFilter_of_role hnode, if_pos rfl, becomeSlave_eq] at h
  exact (Prod.mk.inj h).2.symm

/-- An order without a role changes nothing. An order for a known role, with an
interval other than 0, when it ends, either raises, and then the new role is in force and
the parameters are all old or all new, or returns with everything in force and one
acknowledgement queued. -/
theorem role_change (J : JsonLib) (hash : HashCalls) (utcOffset now : ℤ) (clientUid : Str)
    (resolve : Str → ℕ → Except Fault Unit) (write : Str → Except Fault Unit) (data : Data)
    (s : State) :
    (∀ fault, data.atKey "node_role" = .error fault →
      adjustBloomFilter J hash utcOffset now clientUid resolve write data s =
        (.raises fault, s)) ∧
    ∀ role : NodeRole, data.atKey "node_role" = .ok role.text →
      (∀ p, orderedParams data role = .ok p → 0 < p.rotationInterval.toNat) →
      Ends J hash utcOffset now clientUid data role s
        (adjustBloomFilter J hash utcOffset now clientUid resolve write data s) := by
  refine ⟨fun fault h => by rw [adjustBloomFilter, h], ?_⟩
  intro role h hR
  rw [adjustBloomFilter_of_role h]
  split_ifs with hslave
  · rw [hslave]
    exact ends_of_becomeSlave
  · exact ends_of_becomeOwner hslave hR

/-- A message with the four parameters as texts, for a single node. -/
def configData (maxJwtLifeTime rotationInterval bloomFilterSize hashFunctionNum : String) :
    Data :=
  ((((AList.insert ("node_role" : Str) ("single_node" : Str) ∅).insert
    ("max_jwt_life_time" : Str) maxJwtLifeTime).insert
    ("rotation_interval" : Str) rotationInterval).insert
    ("bloom_filter_size" : Str) bloomFilterSize).insert
    ("hash_function_num" : Str) hashFunctionNum

/-- A slave becomes a single node. -/
theorem role_change_slave_to_single :
    ∃ s', adjustBloomFilter jsonText (fun _ key => key.length) 0 0 "uid" (fun _ _ => .ok ())
        (fun _ => .ok ()) ((configData "30" "10" "8" "1").insert ("uuid" : Str) ("7" : Str))
        { nodeRole := .slaveNode, connected := true, world := ⟨{}, fun _ => none⟩ } =
          (.returns, s') ∧
      Changed jsonText (fun _ key => key.length) 0 0 "uid"
        ((configData "30" "10" "8" "1").insert ("uuid" : Str) ("7" : Str)) .singleNode
        { nodeRole := .slaveNode, connected := true, world := ⟨{}, fun _ => none⟩ } s' := by
  have hp : filterParams ((configData "30" "10" "8" "1").insert ("uuid" : Str) ("7" : Str)) =
      .ok ⟨30, 10, 8, 1⟩ := by decide +kernel
  have hends := (role_change jsonText (fun _ key => key.length) 0 0 "uid" (fun _ _ => .ok ())
    (fun _ => .ok ()) ((configData "30" "10" "8" "1").insert ("uuid" : Str) ("7" : Str))
    { nodeRole := .slaveNode, connected := true, world := ⟨{}, fun _ => none⟩ }).2 .singleNode
    (by decide +kernel) (fun p h => by rw [Except.ok.inj (h.symm.trans hp)]; decide)
  exact ⟨_, rfl, hends.returns rfl⟩

/-- A slave ordered to become a single node by a message without parameters: the
order raises, and the role and the connection are not what they were. -/
theorem role_changed_by_raising_order :
    ∃ fault s', adjustBloomFilter jsonText (fun _ key => key.length) 0 0 "uid" (fun _ _ => .ok ())
        (fun _ => .ok ()) (AList.insert ("node_role" : Str) ("single_node" : Str) ∅)
        { nodeRole := .slaveNode, connected := true, world := ⟨{}, fun _ => none⟩ } =
          (.raises fault, s') ∧
      s'.nodeRole = .singleNode ∧ s'.connected = false :=
  ⟨_, _, rfl, rfl, rfl⟩

end Scheduler

end JwtRevoker
