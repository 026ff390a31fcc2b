import JwtRevoker.WindowShape
import JwtRevoker.JsonText
import JwtRevoker.Scheduler

/-!
# A query by way of the proxy node

The frame `NodeMessageSender::isRevoked` sends, the proxy's `processTask`, and
what the slave makes of the reply. The two sides name the expiry differently:
the request carries `expTime`, the proxy reads `exp_time`.
-/
namespace JwtRevoker

open EngineM Engine JsonText

section Messages

variable (J : JsonLib)

namespace Server

def responseData (token expTime : Str) (isRevoked : Bool) : Data :=
  ((AList.insert ("token" : Str) token ∅).insert ("expTime" : Str) expTime).insert ("status" : Str)
    (if isRevoked then "revoked" else "active")

/-- One turn of the loop of `processTask`: the engine after the message and the
response put into the send queue. -/
def processTask (hash : HashCalls) (now : ℤ) (nodeRole : NodeRole)
    (proxyQuery : Str → ℤ → Except Fault Bool) (e : Engine) (message : Str) :
    Except Fault (Engine × Option Str) := do
  let (event, data) ← J.msgParse message [] ∅
  if event = "is_jwt_revoked" then
    let token := data.get "token"
    let expTime := data.get "exp_time"
    let isRevoked ← match nodeRole with
      | .slaveNode => proxyQuery token (stringToTimestamp expTime)
      | _ => e.isRevoked hash now token (stringToTimestamp expTime)
    let resp := J.msgAssembly "is_jwt_revoked_response" (responseData token expTime isRevoked)
    return (e, some resp)
  else if event = "revoke_jwt" ∧ nodeRole = .proxyNode then
    let e ← e.revokeJwt hash now (data.get "token") (stringToTimestamp (data.get "exp_time"))
    return (e, none)
  else return (e, none)

end Server

namespace NodeMessageSender

def requestData (token expTimeStr : Str) : Data :=
  (AList.insert ("token" : Str) token ∅).insert ("expTime" : Str) expTimeStr

def requestFrame (token expTimeStr : Str) : Str :=
  J.msgAssembly "is_jwt_revoked" (requestData token expTimeStr)

/-- `exchange` sends a frame on the socket and receives the next one from it. -/
def isRevoked (exchange : Str → Except Fault Str) (token expTimeStr : Str) : Except Fault Bool := do
  let reply ← exchange (requestFrame J token expTimeStr)
  let (_, data) ← J.msgParse reply [] ∅
  if (← data.atKey "status") = "revoked" then return true
  if (← data.atKey "status") = "active" then return false
  return true

end NodeMessageSender

def Scheduler.proxyQuery (exchange : Str → Except Fault Str) (token : Str) (expTime : ℤ) :
    Except Fault Bool :=
  NodeMessageSender.isRevoked J exchange token (stdToString expTime)

end Messages

/-- The engines of a node between messages: initialised, used, rebuilt, with the
log directory written in between. -/
inductive Engine.Reachable (hash : HashCalls) : World → Prop
  | init {utcOffset now : ℤ} {p : Params} {logDir : LogDir} {w : World} :
      Returns (Engine.init hash utcOffset now p) ⟨{}, logDir⟩ () w → Reachable hash w
  | step {w : World} {op : Op} {e : Engine} :
      Reachable hash w → w.engine.step hash op = .ok e → Reachable hash { w with engine := e }
  | adjust {utcOffset now : ℤ} {p : Params} {w w' : World} :
      Reachable hash w → Returns (adjustFiltersParam hash utcOffset now p) w () w' →
        Reachable hash w'
  | write {utcOffset now : ℤ} {msg : Str} {w : World} :
      Reachable hash w →
        Reachable hash { w with logDir := writeLog utcOffset now w.logDir msg }

variable {hash : HashCalls} {e : Engine} {w : World} {J : JsonLib}

lemma Engine.Reachable.shaped (h : Reachable hash w) : w.engine.Shaped := by
  induction h with
  | init hi =>
    obtain ⟨-, -, -, hs, -⟩ := (init_returns.mp hi).2.run
    exact hs
  | step _ hs ih => exact ih.step hs
  | adjust _ ha _ =>
    obtain ⟨-, -, -, hs, -⟩ := (adjustFiltersParam_returns.mp ha).run
    exact hs
  | write _ ih => exact ih

/-- What a `revoke_jwt` frame does at a proxy. -/
lemma Server.processTask_revoke (hJ : J.RoundTrips) (now : ℤ)
    (proxyQuery : Str → ℤ → Except Fault Bool) (e : Engine) (data : Data) :
    Server.processTask J hash now .proxyNode proxyQuery e (J.msgAssembly "revoke_jwt" data) =
      (e.revokeJwt hash now (Scheduler.revokeRequest data).1
        (Scheduler.revokeRequest data).2).map fun e' => (e', none) := by
  obtain ⟨data', hparse, hdata⟩ := JsonLib.msgParse_msgAssembly hJ "revoke_jwt" data
  have htoken := Data.get_congr (hdata "token")
  have hexp := Data.get_congr (hdata "exp_time")
  unfold Server.processTask
  rw [hparse, ok_bind]
  dsimp only
  rw [if_neg (by decide), if_pos ⟨rfl, rfl⟩, htoken, hexp]
  change _ = Except.map _ (e.revokeJwt hash now (data.get "token")
    (stringToTimestamp (data.get "exp_time")))
  cases e.revokeJwt hash now (data.get "token") (stringToTimestamp (data.get "exp_time")) <;> rfl

/-- A message leaves the engine as it is, or revokes one token. -/
lemma Server.processTask_engine {now : ℤ} {nodeRole : NodeRole}
    {proxyQuery : Str → ℤ → Except Fault Bool} {e' : Engine} {message : Str} {resp : Option Str}
    (h : Server.processTask J hash now nodeRole proxyQuery e message = .ok (e', resp)) :
    e' = e ∨ ∃ data, e.revokeJwt hash now (Scheduler.revokeRequest data).1
      (Scheduler.revokeRequest data).2 = .ok e' := by
  unfold Server.processTask at h
  obtain ⟨⟨event, data⟩, -, h⟩ := bind_eq_ok.mp h
  dsimp only at h
  split_ifs at h
  · cases nodeRole with
    | singleNode | proxyNode | slaveNode =>
      obtain ⟨answer, -, h⟩ := bind_eq_ok.mp h
      cases h
      exact .inl rfl
  · obtain ⟨e₁, hr, h⟩ := bind_eq_ok.mp h
    cases h
    exact .inr ⟨data, hr⟩
  · cases h
    exact .inl rfl

/-- The proxy finds no `exp_time` in the request and answers for the expiry 0. -/
theorem processTask_requestFrame (hJ : J.RoundTrips) (hs : e.Shaped) (now : ℤ)
    (proxyQuery : Str → ℤ → Except Fault Bool) (token expTimeStr : Str) :
    Server.processTask J hash now .proxyNode proxyQuery e
        (NodeMessageSender.requestFrame J token expTimeStr) =
      .ok (e, some (J.msgAssembly "is_jwt_revoked_response"
        (Server.responseData token [] (decide (e.Reports hash now token 0))))) := by
  obtain ⟨data, hparse, hdata⟩ := JsonLib.msgParse_msgAssembly hJ "is_jwt_revoked"
    (NodeMessageSender.requestData token expTimeStr)
  have htoken : data.get "token" = token := by
    rw [Data.get_congr (hdata _)]
    rfl
  have hexp : data.get "exp_time" = [] := by
    rw [Data.get_congr (hdata _)]
    rfl
  unfold Server.processTask NodeMessageSender.requestFrame
  rw [hparse, ok_bind]
  dsimp only
  rw [if_pos rfl, htoken, hexp, stringToTimestamp_nil, isRevoked_eq hs, ok_bind]
  rfl

/-- The slave reads back the status of a response. -/
theorem isRevoked_of_exchange (hJ : J.RoundTrips) {exchange : Str → Except Fault Str}
    {token expTimeStr token' expTime' : Str} {answer : Bool}
    (hx : exchange (NodeMessageSender.requestFrame J token expTimeStr) =
      .ok (J.msgAssembly "is_jwt_revoked_response" (Server.responseData token' expTime' answer))) :
    NodeMessageSender.isRevoked J exchange token expTimeStr = .ok answer := by
  obtain ⟨data, hparse, hdata⟩ := JsonLib.msgParse_msgAssembly hJ "is_jwt_revoked_response"
    (Server.responseData token' expTime' answer)
  have hstatus : data.atKey "status" = .ok (if answer then "revoked" else "active") := by
    rw [Data.atKey_congr (hdata _)]
    rfl
  unfold NodeMessageSender.isRevoked
  rw [hx, ok_bind, hparse]
  simp only [ok_bind, hstatus]
  cases answer <;> decide

/-- A slave obtains the proxy engine's answer exactly when that engine answers
alike for the expiry 0, which a clock that has passed 0 makes: exactly when the
engine does not report the token revoked. -/
theorem proxy_answers_iff (hJ : J.RoundTrips) (hw : Reachable hash w) (t : ℤ)
    (query : Str → ℤ → Except Fault Bool) (token : Str) (expTime : ℤ) :
    ∃ reply, Server.processTask J hash t .proxyNode query w.engine
        (NodeMessageSender.requestFrame J token (stdToString expTime)) =
          .ok (w.engine, some reply) ∧
      ∀ exchange, exchange (NodeMessageSender.requestFrame J token (stdToString expTime)) =
          .ok reply →
        (Scheduler.proxyQuery J exchange token expTime =
            w.engine.isRevoked hash t token expTime ↔
          (w.engine.Reports hash t token 0 ↔ w.engine.Reports hash t token expTime)) ∧
        (0 ≤ t → (Scheduler.proxyQuery J exchange token expTime =
            w.engine.isRevoked hash t token expTime ↔
          ¬ w.engine.Reports hash t token expTime)) := by
  refine ⟨_, processTask_requestFrame hJ hw.shaped t query token (stdToString expTime), ?_⟩
  intro exchange hx
  have hquery : Scheduler.proxyQuery J exchange token expTime =
      .ok (decide (w.engine.Reports hash t token 0)) := isRevoked_of_exchange hJ hx
  have hiff : Scheduler.proxyQuery J exchange token expTime =
      w.engine.isRevoked hash t token expTime ↔
        (w.engine.Reports hash t token 0 ↔ w.engine.Reports hash t token expTime) := by
    rw [hquery, isRevoked_eq hw.shaped]
    simp
  refine ⟨hiff, fun ht => hiff.trans ?_⟩
  have h0 : ¬ w.engine.Reports hash t token 0 := by
    rintro ⟨⟨hpos, -⟩, -⟩
    omega
  simp [h0]

theorem proxy_answers_iff_revoked_token :
    jsonText.RoundTrips ∧ ∃ w, Reachable (fun _ key => key.length) w ∧
      w.engine.isRevoked (fun _ key => key.length) 7 "a" 25 = .ok true ∧
      ∃ reply, Server.processTask jsonText (fun _ key => key.length) 7 .proxyNode
          (fun _ _ => .ok false) w.engine
          (NodeMessageSender.requestFrame jsonText "a" (stdToString 25)) =
            .ok (w.engine, some reply) ∧
        ∀ exchange, exchange (NodeMessageSender.requestFrame jsonText "a" (stdToString 25)) =
            .ok reply →
          (Scheduler.proxyQuery jsonText exchange "a" 25 =
              w.engine.isRevoked (fun _ key => key.length) 7 "a" 25 ↔
            (w.engine.Reports (fun _ key => key.length) 7 "a" 0 ↔
              w.engine.Reports (fun _ key => key.length) 7 "a" 25)) ∧
          (Scheduler.proxyQuery jsonText exchange "a" 25 =
              w.engine.isRevoked (fun _ key => key.length) 7 "a" 25 ↔
            ¬ w.engine.Reports (fun _ key => key.length) 7 "a" 25) := by
  have hi : Returns (Engine.init (fun _ key => key.length) 0 0 ⟨30, 10, 8, 1⟩)
      ⟨{}, fun _ => none⟩ () _ := returns_of_ok rfl
  have hw := Reachable.step (.init hi)
    (show Engine.step _ _ (.revokeJwt "a" 25 0) = _ from rfl)
  obtain ⟨reply, hreply, hanswers⟩ := proxy_answers_iff roundTrips_jsonText hw 7
    (fun _ _ => .ok false) "a" 25
  refine ⟨roundTrips_jsonText, _, hw, by decide, reply, hreply, ?_⟩
  intro exchange hx
  obtain ⟨hiff, hpast⟩ := hanswers exchange hx
  exact ⟨hiff, hpast (by decide)⟩

/-- A token the proxy's engine reports revoked, and the slave is told it is active. -/
theorem revoked_token_active_at_slave :
    jsonText.RoundTrips ∧ ∃ w, Reachable (fun _ key => key.length) w ∧
      w.engine.isRevoked (fun _ key => key.length) 7 "a" 25 = .ok true ∧
      ∃ reply, Server.processTask jsonText (fun _ key => key.length) 7 .proxyNode
          (fun _ _ => .ok false) w.engine
          (NodeMessageSender.requestFrame jsonText "a" (stdToString 25)) =
            .ok (w.engine, some reply) ∧
        Scheduler.proxyQuery jsonText (fun _ => .ok reply) "a" 25 = .ok false := by
  have hi : Returns (Engine.init (fun _ key => key.length) 0 0 ⟨30, 10, 8, 1⟩)
      ⟨{}, fun _ => none⟩ () _ := returns_of_ok rfl
  have hw := Reachable.step (.init hi)
    (show Engine.step _ _ (.revokeJwt "a" 25 0) = _ from rfl)
  exact ⟨roundTrips_jsonText, _, hw, by decide, _,
    processTask_requestFrame roundTrips_jsonText hw.shaped _ _ _ _,
    isRevoked_of_exchange roundTrips_jsonText rfl⟩

end JwtRevoker
