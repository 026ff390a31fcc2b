import JwtRevoker.ConfigReader
import JwtRevoker.MasterTransport
import JwtRevoker.NodeService
import JwtRevoker.StatusReport

/-!
# From the command line to a running node

`main` up to the server: the configuration file, the connection to the master, the
parameters that the master sends first, and the threads that are started with them.
-/
namespace JwtRevoker.Startup

open EngineM Engine Scheduler ConfigReader JsonText

def defaultConfigFilePath : Str := "C:\\MyProjects\\JWTRevoker_BlackList_cpp\\src\\config.txt"

/-- What the process meets: the files and the directories of the machine, the name service,
the connection attempts and the first message of the master. -/
structure Host where
  files : Str → Option Str
  logDirs : Str → Except Fault LogDir
  resolve : Str → ℕ → Except Fault Unit
  attempts : List MasterTransport.Attempt
  reply : Option Str

structure Process where
  service : NodeService.Service
  transport : MasterTransport.Transport
  keepaliveInterval : ℕ
  reportInterval : ℕ

/-- Why the process is not up: `main` has returned 1, it is in `connect`, the constructor of
`Scheduler` waits for its message, or an exception has been thrown. -/
inductive Halt
  | usage
  | connecting
  | waiting
  | raised (fault : Fault)

/-- The loop over the arguments behind the name of the program; a path has to follow `-c`. -/
def configFilePath : List Str → Except Halt Str
  | [] => .ok defaultConfigFilePath
  | arg :: args =>
      if arg = "-c" then
        match args with
        | [] => .error .usage
        | path :: _ => .ok path
      else configFilePath args

def raises {α : Type} (x : Except Fault α) : Except Halt α := x.mapError .raised

def recvMsg (host : Host) : Except Halt Str :=
  match host.reply with
  | none => .error .waiting
  | some msg => .ok msg

def connected : MasterTransport.Connect → Except Halt MasterTransport.Transport
  | .trying _ => .error .connecting
  | .raised fault => .error (.raised fault)
  | .connected opened current => .ok { closed := opened, current := current }

section Main

variable (J : JsonLib) (hash : HashCalls) (utcOffset now : ℤ) (host : Host)

/-- The fields of the hello are looked up when there is a connection. -/
def connect (config : Data) : MasterTransport.Connect :=
  match config.atKey "client_uid", config.atKey "token" with
  | .ok clientUid, .ok token => MasterTransport.connect J clientUid token host.attempts []
  | .error fault, _ | .ok _, .error fault =>
      if host.attempts.all fun a => a matches .refused then .trying [] else .raised fault

/-- The constructor of `MasterSession`. -/
def session (config : Data) : Except Halt MasterTransport.Transport := do
  let masterIp ← raises (config.atKey "master_ip")
  let masterPort ← raises (config.atKey "master_port")
  raises (host.resolve masterIp (stringToUShort masterPort))
  connected (connect J host config)

/-- The log directory is looked up behind the checks of the parameters. -/
def initEngine (config : Data) (event : Str) (data : Data) : Except Fault World :=
  match config.atKey "log_file_path" >>= host.logDirs with
  | .ok dir =>
      match construct hash utcOffset now event data ⟨{}, dir⟩ with
      | (.ok _, world) => .ok world
      | (.error fault, _) => .error fault
  | .error fault =>
      match construct hash utcOffset now event data ⟨{}, fun _ => none⟩ with
      | (.ok _, _) => .error fault
      | (.error fault', _) => .error fault'

/-- The first message of `keepaliveWorker`, and the intervals of the two reporting threads. -/
def startWorkers (config : Data) : Except Fault (Str × ℕ × ℕ) := do
  let keepaliveInterval ← config.atKey "keepalive_interval"
  let clientUid ← config.atKey "client_uid"
  let serverPort ← config.atKey "server_port"
  let reportInterval ← config.atKey "node_status_report_interval"
  return (keepaliveWorker J clientUid serverPort, stringToUInt keepaliveInterval,
    stringToUInt reportInterval)

def configRequest (clientUid : Str) : Str :=
  J.msgAssembly "get_bloom_filter_default_config" (AList.insert ("client_uid" : Str) clientUid ∅)

/-- The constructor of `Scheduler`. -/
def scheduler (config : Data) (transport : MasterTransport.Transport) : Except Halt Process := do
  let clientUid ← raises (config.atKey "client_uid")
  let msg ← recvMsg host
  let (event, data) ← raises (J.msgParse msg [] ∅)
  let world ← raises (initEngine hash utcOffset now host config event data)
  let (keepalive, keepaliveInterval, reportInterval) ← raises (startWorkers J config)
  return {
    service := {
      state := { world := world, sendQueue := [configRequest J clientUid, keepalive] }
      clock := now }
    transport := transport
    keepaliveInterval := keepaliveInterval
    reportInterval := reportInterval }

def main (args : List Str) : Except Halt Process := do
  let path ← configFilePath args
  let config ← raises (readConfig (host.files path))
  let transport ← session J host config
  scheduler J hash utcOffset now host config transport

end Main

variable {J : JsonLib} {hash : HashCalls} {utcOffset now : ℤ} {host : Host} {config : Data}
  {args : List Str} {process : Process} {transport : MasterTransport.Transport} {event : Str}
  {data : Data} {p : Params} {w w' : World}

@[simp] lemma raises_eq_ok {α : Type} {x : Except Fault α} {a : α} :
    raises x = .ok a ↔ x = .ok a := by
  cases x <;> simp [raises, Except.mapError]

lemma recvMsg_eq_ok {msg : Str} : recvMsg host = .ok msg ↔ host.reply = some msg := by
  unfold recvMsg
  cases host.reply <;> simp

lemma connected_eq_ok {c : MasterTransport.Connect} :
    connected c = .ok transport ↔
      ∃ opened current, c = .connected opened current ∧
        transport = { closed := opened, current := current } := by
  cases c with
  | trying | raised => simp [connected]
  | connected opened current => simp [connected, eq_comm]

lemma atKey_eq_ok {key value : Str} :
    config.atKey key = .ok value ↔ key ∈ config ∧ config.get key = value := by
  rw [← AList.lookup_isSome, Data.atKey, Data.get]
  cases config.lookup key <;> simp

/-- An attempt after which `connect` makes the next one. -/
def Retried (J : JsonLib) : MasterTransport.Attempt → Prop
  | .refused => True
  | .answered (.error _) => False
  | .answered (.ok msg) => ∃ event data, J.msgParse msg [] ∅ = .ok (event, data) ∧
      event ≠ "auth_success" ∧ event ≠ "auth_failed"

/-- The master accepts the hello of an attempt, and those before it do not end `connect`. -/
inductive AcceptedAfterRetries (J : JsonLib) : List MasterTransport.Attempt → Prop
  | accepted {reply : Str} {data : Data} {attempts : List MasterTransport.Attempt} :
      J.msgParse reply [] ∅ = .ok ("auth_success", data) →
      AcceptedAfterRetries J (.answered (.ok reply) :: attempts)
  | retried {a : MasterTransport.Attempt} {attempts : List MasterTransport.Attempt} :
      Retried J a → AcceptedAfterRetries J attempts → AcceptedAfterRetries J (a :: attempts)

lemma acceptedAfterRetries_answered {msg : Str} {attempts : List MasterTransport.Attempt}
    (hparse : J.msgParse msg [] ∅ = .ok (event, data)) :
    AcceptedAfterRetries J (.answered (.ok msg) :: attempts) ↔
      event = "auth_success" ∨
        (event ≠ "auth_success" ∧ event ≠ "auth_failed") ∧ AcceptedAfterRetries J attempts := by
  constructor
  · intro h
    cases h with
    | accepted haccepted =>
      rw [hparse] at haccepted
      exact .inl (congrArg Prod.fst (Except.ok.inj haccepted))
    | retried hretried h =>
      obtain ⟨event', data', hparse', hne⟩ := hretried
      rw [hparse] at hparse'
      cases hparse'
      exact .inr ⟨hne, h⟩
  · rintro (rfl | ⟨hne, h⟩)
    · exact .accepted hparse
    · exact .retried ⟨event, data, hparse, hne⟩ h

/-- `connect` comes back with a connection exactly when the master accepts one in time. -/
lemma connect_isConnected_iff {clientUid token : Str} {attempts : List MasterTransport.Attempt}
    {opened : List MasterTransport.Connection} :
    (∃ opened' current, MasterTransport.connect J clientUid token attempts opened =
      .connected opened' current) ↔ AcceptedAfterRetries J attempts := by
  induction attempts generalizing opened with
  | nil =>
    constructor
    · rintro ⟨_, _, h⟩
      cases h
    · intro h
      cases h
  | cons attempt attempts ih =>
    cases attempt with
    | refused =>
      rw [MasterTransport.connect, ih]
      constructor
      · exact .retried trivial
      · intro h
        cases h with
        | retried _ h => exact h
    | answered reply =>
      cases reply with
      | error fault =>
        constructor
        · rintro ⟨_, _, h⟩
          cases h
        · intro h
          cases h with
          | retried hretried => exact hretried.elim
      | ok msg =>
        rw [MasterTransport.connect]
        dsimp only
        cases hparse : J.msgParse msg [] ∅ with
        | error fault =>
          constructor
          · rintro ⟨_, _, h⟩
            cases h
          · intro h
            cases h with
            | accepted haccepted =>
              rw [hparse] at haccepted
              cases haccepted
            | retried hretried =>
              obtain ⟨_, _, hretried, -⟩ := hretried
              rw [hparse] at hretried
              cases hretried
        | ok message =>
          obtain ⟨event, data⟩ := message
          dsimp only
          rw [acceptedAfterRetries_answered hparse]
          split_ifs with hsuccess hfailed
          · exact ⟨fun _ => .inl hsuccess, fun _ => ⟨_, _, rfl⟩⟩
          · constructor
            · rintro ⟨_, _, h⟩
              cases h
            · rintro (h | ⟨⟨-, h⟩, -⟩)
              · exact absurd h hsuccess
              · exact absurd hfailed h
          · rw [ih, or_iff_right hsuccess, and_iff_right ⟨hsuccess, hfailed⟩]

lemma init_isOk_iff :
    (∃ w', Returns (Engine.init hash utcOffset now p) w () w') ↔
      Accepted p ∧ VisitedParse utcOffset now w.logDir := by
  constructor
  · rintro ⟨w', hi⟩
    have haccepted : Accepted p := by
      by_contra h
      obtain ⟨what, hrejects⟩ := initRejects_iff.mpr h
      have hr := hrejects hash utcOffset now w
      rw [hi] at hr
      cases hr
    refine ⟨haccepted, (AdjustSequence.adjustFiltersParam_isOk_iff haccepted hash _ _ w).mp ?_⟩
    exact ⟨w', adjustFiltersParam_returns.mpr (init_returns.mp hi).2⟩
  · rintro ⟨h, hparse⟩
    obtain ⟨w', hadj⟩ :=
      (AdjustSequence.adjustFiltersParam_isOk_iff h hash utcOffset now w).mpr hparse
    exact ⟨w', init_returns.mpr
      ⟨⟨h.1, h.2.1, h.2.2.1, h.2.2.2.1⟩, adjustFiltersParam_returns.mp hadj⟩⟩

lemma construct_returns :
    Returns (construct hash utcOffset now event data) w () w' ↔
      event = "bloom_filter_default_config" ∧ ∃ p, filterParams data = .ok p ∧
        Returns (Engine.init hash utcOffset now p) w () w' := by
  unfold construct
  split_ifs with hevent
  · simp only [returns_bind, returns_lift, hevent, true_and]
    constructor
    · rintro ⟨p, _, ⟨hp, rfl⟩, _, _, ⟨-, rfl⟩, hi⟩
      exact ⟨p, hp, hi⟩
    · rintro ⟨p, hp, hi⟩
      have hR := (init_returns.mp hi).2.interval_pos
      exact ⟨p, _, ⟨hp, rfl⟩, _, _, ⟨ceilQuotient_of_pos hR _, rfl⟩, hi⟩
  · refine iff_of_false (fun h => ?_) fun h => hevent h.1
    cases congrArg Prod.fst h

lemma initEngine_eq_ok :
    initEngine hash utcOffset now host config event data = .ok w ↔
      ("log_file_path" : Str) ∈ config ∧
        ∃ dir, host.logDirs (config.get "log_file_path") = .ok dir ∧
          Returns (construct hash utcOffset now event data) ⟨{}, dir⟩ () w := by
  unfold initEngine
  constructor
  · intro h
    split at h
    · rename_i dir hdir
      obtain ⟨path, hpath, hdirs⟩ := bind_eq_ok.mp hdir
      obtain ⟨hmem, rfl⟩ := atKey_eq_ok.mp hpath
      split at h
      · cases h
        exact ⟨hmem, dir, hdirs, ‹_›⟩
      · cases h
    · split at h <;> cases h
  · rintro ⟨hmem, dir, hdirs, hconstruct⟩
    have hdir : (config.atKey "log_file_path" >>= host.logDirs) = .ok dir :=
      bind_eq_ok.mpr ⟨_, atKey_eq_ok.mpr ⟨hmem, rfl⟩, hdirs⟩
    rw [hdir]
    dsimp only
    rw [hconstruct]

lemma connect_eq_connected {opened : List MasterTransport.Connection}
    {current : MasterTransport.Connection} :
    connect J host config = .connected opened current ↔
      ("client_uid" : Str) ∈ config ∧ ("token" : Str) ∈ config ∧
        MasterTransport.connect J (config.get "client_uid") (config.get "token") host.attempts [] =
          .connected opened current := by
  unfold connect
  constructor
  · intro h
    split at h
    · rename_i huid htoken
      obtain ⟨huid', rfl⟩ := atKey_eq_ok.mp huid
      obtain ⟨htoken', rfl⟩ := atKey_eq_ok.mp htoken
      exact ⟨huid', htoken', h⟩
    · split_ifs at h
    · split_ifs at h
  · rintro ⟨huid, htoken, h⟩
    rw [atKey_eq_ok.mpr ⟨huid, rfl⟩, atKey_eq_ok.mpr ⟨htoken, rfl⟩]
    exact h

lemma session_eq_ok :
    session J host config = .ok transport ↔
      ("master_ip" : Str) ∈ config ∧ ("master_port" : Str) ∈ config ∧
        host.resolve (config.get "master_ip") (stringToUShort (config.get "master_port")) = .ok () ∧
        ∃ opened current, connect J host config = .connected opened current ∧
          transport = { closed := opened, current := current } := by
  unfold session
  simp only [bind_eq_ok, raises_eq_ok, atKey_eq_ok, connected_eq_ok]
  constructor
  · rintro ⟨_, ⟨hip, rfl⟩, _, ⟨hport, rfl⟩, ⟨⟩, hresolve, h⟩
    exact ⟨hip, hport, hresolve, h⟩
  · rintro ⟨hip, hport, hresolve, h⟩
    exact ⟨_, ⟨hip, rfl⟩, _, ⟨hport, rfl⟩, (), hresolve, h⟩

lemma startWorkers_eq_ok {r : Str × ℕ × ℕ} :
    startWorkers J config = .ok r ↔
      ("keepalive_interval" : Str) ∈ config ∧ ("client_uid" : Str) ∈ config ∧
        ("server_port" : Str) ∈ config ∧ ("node_status_report_interval" : Str) ∈ config ∧
        r = (keepaliveWorker J (config.get "client_uid") (config.get "server_port"),
          stringToUInt (config.get "keepalive_interval"),
          stringToUInt (config.get "node_status_report_interval")) := by
  unfold startWorkers
  simp only [bind_eq_ok, atKey_eq_ok]
  constructor
  · rintro ⟨_, ⟨hkeepalive, rfl⟩, _, ⟨huid, rfl⟩, _, ⟨hport, rfl⟩, _, ⟨hreport, rfl⟩, h⟩
    exact ⟨hkeepalive, huid, hport, hreport, (Except.ok.inj h).symm⟩
  · rintro ⟨hkeepalive, huid, hport, hreport, rfl⟩
    exact ⟨_, ⟨hkeepalive, rfl⟩, _, ⟨huid, rfl⟩, _, ⟨hport, rfl⟩, _, ⟨hreport, rfl⟩, rfl⟩

/-- The node that the constructors leave. -/
def started (J : JsonLib) (now : ℤ) (config : Data) (transport : MasterTransport.Transport)
    (world : World) : Process where
  service := {
    state := {
      world := world
      sendQueue := [configRequest J (config.get "client_uid"),
        keepaliveWorker J (config.get "client_uid") (config.get "server_port")] }
    clock := now }
  transport := transport
  keepaliveInterval := stringToUInt (config.get "keepalive_interval")
  reportInterval := stringToUInt (config.get "node_status_report_interval")

lemma scheduler_eq_ok :
    scheduler J hash utcOffset now host config transport = .ok process ↔
      (∃ r, startWorkers J config = .ok r) ∧
      ∃ msg event data world, host.reply = some msg ∧ J.msgParse msg [] ∅ = .ok (event, data) ∧
        initEngine hash utcOffset now host config event data = .ok world ∧
        process = started J now config transport world := by
  unfold scheduler
  simp only [bind_eq_ok, raises_eq_ok, recvMsg_eq_ok, startWorkers_eq_ok, atKey_eq_ok]
  constructor
  · rintro ⟨_, ⟨-, rfl⟩, msg, hreply, ⟨event, data⟩, hparse, world, hinit, _, hworkers, h⟩
    obtain ⟨hkeepalive, huid, hport, hreport, rfl⟩ := hworkers
    exact ⟨⟨_, hkeepalive, huid, hport, hreport, rfl⟩, msg, event, data, world, hreply, hparse,
      hinit, (Except.ok.inj h).symm⟩
  · rintro ⟨⟨_, hworkers⟩, msg, event, data, world, hreply, hparse, hinit, rfl⟩
    obtain ⟨hkeepalive, huid, hport, hreport, -⟩ := hworkers
    exact ⟨_, ⟨huid, rfl⟩, msg, hreply, (event, data), hparse, world, hinit, _,
      ⟨hkeepalive, huid, hport, hreport, rfl⟩, rfl⟩

/-- The fields that the process looks up before it serves. -/
def requiredKeys : List Str :=
  ["master_ip", "master_port", "client_uid", "token", "log_file_path", "keepalive_interval",
    "server_port", "node_status_report_interval"]

/-- The text brings the parameters. -/
def Configures (J : JsonLib) (msg : Str) (p : Params) : Prop :=
  ∃ data, J.msgParse msg [] ∅ = .ok ("bloom_filter_default_config", data) ∧
    filterParams data = .ok p

/-- What the configuration and the master have to provide. -/
structure Provides (J : JsonLib) (utcOffset now : ℤ) (host : Host) (config : Data) (dir : LogDir)
    (p : Params) : Prop where
  keys : ∀ key ∈ requiredKeys, key ∈ config
  resolve : host.resolve (config.get "master_ip") (stringToUShort (config.get "master_port")) =
    .ok ()
  accepted : AcceptedAfterRetries J host.attempts
  logDir : host.logDirs (config.get "log_file_path") = .ok dir
  reply : ∃ msg, host.reply = some msg ∧ Configures J msg p
  params : Accepted p
  lines : VisitedParse utcOffset now dir

lemma main_eq_ok :
    main J hash utcOffset now host args = .ok process ↔
      ∃ path config transport, configFilePath args = .ok path ∧
        readConfig (host.files path) = .ok config ∧ session J host config = .ok transport ∧
        scheduler J hash utcOffset now host config transport = .ok process := by
  simp only [main, bind_eq_ok, raises_eq_ok]
  constructor
  · rintro ⟨path, hpath, config, hread, transport, hsession, h⟩
    exact ⟨path, config, transport, hpath, hread, hsession, h⟩
  · rintro ⟨path, config, transport, hpath, hread, hsession, h⟩
    exact ⟨path, hpath, config, hread, transport, hsession, h⟩

/-- What a process that is up has found, and its node. -/
lemma provides_of_main (h : main J hash utcOffset now host args = .ok process) :
    ∃ path config dir p transport world, configFilePath args = .ok path ∧
      readConfig (host.files path) = .ok config ∧ Provides J utcOffset now host config dir p ∧
      Built hash utcOffset now p ⟨{}, dir⟩ world ∧
      MasterTransport.start J (config.get "client_uid") (config.get "token") host.attempts =
        some transport ∧ process = started J now config transport world := by
  obtain ⟨path, config, transport, hpath, hread, hsession, hscheduler⟩ := main_eq_ok.mp h
  obtain ⟨hip, hport, hresolve, opened, current, hconnect, rfl⟩ := session_eq_ok.mp hsession
  obtain ⟨huid, htoken, hconnect⟩ := connect_eq_connected.mp hconnect
  obtain ⟨⟨_, hworkers⟩, msg, event, data, world, hreply, hparse, hinit, rfl⟩ :=
    scheduler_eq_ok.mp hscheduler
  obtain ⟨hkeepalive, -, hserver, hreport, -⟩ := startWorkers_eq_ok.mp hworkers
  obtain ⟨hlog, dir, hdir, hconstruct⟩ := initEngine_eq_ok.mp hinit
  obtain ⟨rfl, p, hp, hi⟩ := construct_returns.mp hconstruct
  obtain ⟨haccepted, hlines⟩ := init_isOk_iff.mp ⟨world, hi⟩
  have hkeys : ∀ key ∈ requiredKeys, key ∈ config := by
    simp only [requiredKeys, List.forall_mem_cons]
    exact ⟨hip, hport, huid, htoken, hlog, hkeepalive, hserver, hreport,
      fun _ h => absurd h List.not_mem_nil⟩
  refine ⟨path, config, dir, p, _, world, hpath, hread,
    ⟨hkeys, hresolve, connect_isConnected_iff.mp ⟨opened, current, hconnect⟩, hdir,
      ⟨msg, hreply, data, hparse, hp⟩, haccepted, hlines⟩, (init_returns.mp hi).2, ?_, rfl⟩
  rw [MasterTransport.start, hconnect]

lemma atWork_of_main (h : main J hash utcOffset now host args = .ok process) :
    NodeService.AtWork process.service ∧ process.service.place = .receiving ∧
      process.service.clock = now := by
  obtain ⟨-, config, dir, p, transport, world, -, -, -, hbuilt, -, rfl⟩ := provides_of_main h
  obtain ⟨-, -, -, hshaped, -⟩ := hbuilt.run
  exact ⟨⟨fun _ => NodeRole.noConfusion, fun _ => hshaped, rfl⟩, rfl, rfl⟩

lemma main_of_provides {path : Str} {dir : LogDir} (hpath : configFilePath args = .ok path)
    (hread : readConfig (host.files path) = .ok config)
    (h : Provides J utcOffset now host config dir p) :
    ∃ transport world, main J hash utcOffset now host args =
        .ok (started J now config transport world) ∧
      Built hash utcOffset now p ⟨{}, dir⟩ world := by
  obtain ⟨hkeys, hresolve, haccepted, hdir, ⟨msg, hreply, data, hparse, hp⟩, hparams, hlines⟩ := h
  simp only [requiredKeys, List.forall_mem_cons] at hkeys
  obtain ⟨hip, hport, huid, htoken, hlog, hkeepalive, hserver, hreport, -⟩ := hkeys
  obtain ⟨opened, current, hconnect⟩ := connect_isConnected_iff.mpr haccepted
  obtain ⟨world, hi⟩ := (init_isOk_iff (w := ⟨{}, dir⟩)).mpr ⟨hparams, hlines⟩
  have hsession := session_eq_ok.mpr ⟨hip, hport, hresolve, opened, current,
    connect_eq_connected.mpr ⟨huid, htoken, hconnect⟩, rfl⟩
  have hinit : initEngine hash utcOffset now host config _ data = .ok world :=
    initEngine_eq_ok.mpr ⟨hlog, dir, hdir, construct_returns.mpr ⟨rfl, p, hp, hi⟩⟩
  have hworkers : startWorkers J config = .ok _ :=
    startWorkers_eq_ok.mpr ⟨hkeepalive, huid, hserver, hreport, rfl⟩
  exact ⟨_, world, main_eq_ok.mpr ⟨path, config, _, hpath, hread, hsession,
    scheduler_eq_ok.mpr ⟨⟨_, hworkers⟩, msg, _, data, world, hreply, hparse, hinit, rfl⟩⟩,
    (init_returns.mp hi).2⟩

/-- The process comes up exactly when the configuration file has the fields, the master
accepts the hello, and the first message after it brings parameters that `init` accepts with
a log that parses. It is then at work in the role of a single node, with these parameters,
on the connection that the master has accepted. -/
theorem comes_up_iff :
    ((∃ process, main J hash utcOffset now host args = .ok process) ↔
      ∃ path config dir p, configFilePath args = .ok path ∧
        readConfig (host.files path) = .ok config ∧
        Provides J utcOffset now host config dir p) ∧
    ∀ process, main J hash utcOffset now host args = .ok process →
      NodeService.AtWork process.service ∧ process.service.place = .receiving ∧
      process.service.state.nodeRole = .singleNode ∧
      ∃ config dir p, Provides J utcOffset now host config dir p ∧
        process.service.engine.HasParams p ∧
        MasterTransport.start J (config.get "client_uid") (config.get "token") host.attempts =
          some process.transport := by
  refine ⟨⟨?_, ?_⟩, ?_⟩
  · rintro ⟨process, h⟩
    obtain ⟨path, config, dir, p, -, -, hpath, hread, hprovides, -⟩ := provides_of_main h
    exact ⟨path, config, dir, p, hpath, hread, hprovides⟩
  · rintro ⟨path, config, dir, p, hpath, hread, hprovides⟩
    obtain ⟨_, _, h, -⟩ := main_of_provides hpath hread hprovides
    exact ⟨_, h⟩
  · intro process h
    obtain ⟨hwork, hplace, -⟩ := atWork_of_main h
    obtain ⟨-, config, dir, p, transport, world, -, -, hprovides, hbuilt, hstart, rfl⟩ :=
      provides_of_main h
    exact ⟨hwork, hplace, rfl, config, dir, p, hprovides, hbuilt.hasParams, hstart⟩

def sampleConfigFile : Str :=
  "# node 1\nmaster_ip = 10.0.0.1\nmaster_port = 9998\nclient_uid = node_0001\n" ++
    ("token = secret\nlog_file_path = log\nkeepalive_interval = 30\n" : Str) ++
    ("server_port = 9999\nnode_status_report_interval = 60\n" : Str)

def sampleHost (dir : LogDir) : Host where
  files := fun path => if path = "node.txt" then some sampleConfigFile else none
  logDirs := fun _ => .ok dir
  resolve := fun _ _ => .ok ()
  attempts := [.refused, .answered (.ok (jsonText.msgAssembly "auth_success" ∅))]
  reply := some (jsonText.msgAssembly "bloom_filter_default_config" (configData "30" "10" "8" "1"))

lemma provides_sampleHost {dir : LogDir} (hlines : VisitedParse 0 now dir) :
    ∃ config, readConfig ((sampleHost dir).files "node.txt") = .ok config ∧
      Provides jsonText 0 now (sampleHost dir) config dir ⟨30, 10, 8, 1⟩ := by
  obtain ⟨config, hread⟩ := readConfig_isOk ((sampleHost dir).files "node.txt")
  obtain ⟨data, haccept, -⟩ := JsonLib.msgParse_msgAssembly roundTrips_jsonText "auth_success" ∅
  obtain ⟨data', hparse, hdata⟩ := JsonLib.msgParse_msgAssembly roundTrips_jsonText
    "bloom_filter_default_config" (configData "30" "10" "8" "1")
  have hkeys : ∀ key ∈ requiredKeys,
      ((readConfig (some sampleConfigFile)).toOption.bind (AList.lookup key)).isSome := by
    decide +kernel
  refine ⟨config, hread, fun key hkey => ?_, rfl, .retried trivial (.accepted haccept), rfl,
    ⟨_, rfl, data', hparse, ?_⟩, ?_, hlines⟩
  · have hsome := hkeys key hkey
    rw [← (show (sampleHost dir).files "node.txt" = some sampleConfigFile from rfl), hread] at hsome
    exact AList.lookup_isSome.mp hsome
  · apply filterParams_of_lookup <;> rw [hdata] <;> decide +kernel
  · exact ⟨by decide, by decide, by decide, by decide, .inr ⟨3, by decide⟩⟩

theorem comes_up_iff_sample :
    ∃ process, main jsonText (fun _ key => key.length) 0 0 (sampleHost fun _ => none)
        ["-c", "node.txt"] = .ok process ∧
      NodeService.AtWork process.service ∧ process.service.state.nodeRole = .singleNode := by
  obtain ⟨config, hread, hprovides⟩ := provides_sampleHost (visitedParse_empty 0 0)
  have hpath : configFilePath ["-c", "node.txt"] = .ok "node.txt" := rfl
  obtain ⟨hiff, hspec⟩ := @comes_up_iff jsonText (fun _ key => key.length) 0 0
    (sampleHost fun _ => none) ["-c", "node.txt"]
  obtain ⟨process, h⟩ := hiff.mpr ⟨_, config, _, _, hpath, hread, hprovides⟩
  obtain ⟨hwork, -, hrole, -⟩ := hspec process h
  exact ⟨process, h, hwork, hrole⟩

end JwtRevoker.Startup
