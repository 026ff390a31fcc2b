import JwtRevoker.NodeService

/-!
# What a client is told

The loop of `processTask` over the frames of a client, with the calls of the engine that other
threads make between them. Every query is answered once and in order, and the answer is decided
by the history of the window.
-/
namespace JwtRevoker.Server

open EngineM Engine Scheduler NodeService JsonText

/-- A frame that is processed at a time, or a call of another thread. -/
inductive Input
  | frame (now : ℤ) (message : Str)
  | call (op : Op)

/-- The data of a query. -/
def queryOf (J : JsonLib) (message : Str) : Option Data :=
  match J.msgParse message [] ∅ with
  | .ok (event, data) => if event = "is_jwt_revoked" then some data else none
  | .error _ => none

namespace Input

def isQuery (J : JsonLib) : Input → Bool
  | frame _ message => (queryOf J message).isSome
  | call _ => false

/-- The calls of the engine that change its filters; from a client only a proxy takes
revocations. -/
def ops (J : JsonLib) (nodeRole : NodeRole) : Input → List Op
  | frame now message =>
      if nodeRole = .proxyNode then
        (revocationOf J message).toList.map fun request => .revokeJwt request.1 request.2 now
      else []
  | call op => [op]

end Input

section Serve

variable (J : JsonLib) (hash : HashCalls) (nodeRole : NodeRole)
  (proxyQuery : Str → ℤ → Except Fault Bool)

/-- The engine after the frames, and the responses in the order of the send queue. -/
def serve : Engine → List Input → Except Fault (Engine × List Str)
  | e, [] => .ok (e, [])
  | e, .call op :: inputs => do
      let e ← e.step hash op
      serve e inputs
  | e, .frame now message :: inputs => do
      let (e, resp) ← processTask J hash now nodeRole proxyQuery e message
      let (e, responses) ← serve e inputs
      return (e, resp.toList ++ responses)

/-- The answer of an engine in shape. -/
def response (e : Engine) (now : ℤ) (data : Data) : Str :=
  J.msgAssembly "is_jwt_revoked_response" (responseData (data.get "token") (data.get "exp_time")
    (decide (e.Reports hash now (data.get "token") (stringToTimestamp (data.get "exp_time")))))

end Serve

/-- Every frame parses. -/
def WellFormed (J : JsonLib) (inputs : List Input) : Prop :=
  ∀ now message, .frame now message ∈ inputs →
    ∃ event data, J.msgParse message [] ∅ = .ok (event, data)

/-- What a history makes of a query: no slot is consulted, or the survivors of the last slot
consulted cover the token. -/
def RevokedIn (hash : HashCalls) (p : Params) (history : List Op) (now : ℤ) (token : Str)
    (expTime : ℤ) : Prop :=
  (0 < expTime - now ∧ expTime - now ≤ p.maxJwtLifeTime.toNat) ∧
    ((expTime - now).toNat / p.rotationInterval.toNat = 0 ∨
      ∀ b ∈ indexBits hash p.bloomFilterSize.toNat p.hashFunctionNum.toNat token,
        ∃ token' ∈ survivors p.maxJwtLifeTime.toNat p.rotationInterval.toNat
            ((expTime - now).toNat / p.rotationInterval.toNat - 1) history,
          b ∈ indexBits hash p.bloomFilterSize.toNat p.hashFunctionNum.toNat token')

/-- The response names the token and its expiry and says whether it is revoked. -/
def Answers (J : JsonLib) (reply token : Str) (expTime : ℤ) (revoked : Prop) : Prop :=
  ∃ data, J.msgParse reply [] ∅ = .ok ("is_jwt_revoked_response", data) ∧
    data.lookup ("token" : Str) = some token ∧
    data.lookup ("expTime" : Str) = some (stdToString expTime) ∧
    (revoked → data.lookup ("status" : Str) = some "revoked") ∧
    (¬ revoked → data.lookup ("status" : Str) = some "active")

variable {J : JsonLib} {hash : HashCalls} {nodeRole : NodeRole}
  {proxyQuery : Str → ℤ → Except Fault Bool} {e e' : Engine} {now : ℤ} {message event : Str}
  {data : Data} {inputs before after : List Input}

lemma queryOf_query (h : J.msgParse message [] ∅ = .ok ("is_jwt_revoked", data)) :
    queryOf J message = some data := by
  rw [queryOf, h]
  exact if_pos rfl

lemma queryOf_other (h : J.msgParse message [] ∅ = .ok (event, data))
    (hne : event ≠ "is_jwt_revoked") : queryOf J message = none := by
  rw [queryOf, h]
  exact if_neg hne

/-- A frame is a query that is answered from the window, or at a proxy a revocation. -/
lemma processTask_of_shaped (hash : HashCalls) (now : ℤ)
    (proxyQuery : Str → ℤ → Except Fault Bool) (h : e.Shaped) (hrole : nodeRole ≠ .slaveNode)
    (hparse : J.msgParse message [] ∅ = .ok (event, data)) :
    ∃ e', e.run hash (Input.ops J nodeRole (.frame now message)) = .ok e' ∧
      processTask J hash now nodeRole proxyQuery e message =
        .ok (e', (queryOf J message).map (response J hash e now)) := by
  unfold processTask
  rw [hparse, ok_bind]
  dsimp only
  by_cases hquery : event = "is_jwt_revoked"
  · subst hquery
    have hops : Input.ops J nodeRole (.frame now message) = [] := by
      have hne : ("is_jwt_revoked" : Str) ≠ "revoke_jwt" := by decide
      rw [Input.ops, revocationOf_other hparse hne]
      exact ite_self _
    have hanswer := isRevoked_eq h hash now (data.get "token")
      (stringToTimestamp (data.get "exp_time"))
    refine ⟨e, by rw [hops]; rfl, ?_⟩
    rw [if_pos rfl, queryOf_query hparse, Option.map_some, response]
    cases nodeRole with
    | slaveNode => exact absurd rfl hrole
    | singleNode => rw [hanswer]; rfl
    | proxyNode => rw [hanswer]; rfl
  · rw [if_neg hquery, queryOf_other hparse hquery, Option.map_none]
    by_cases hrevoke : event = "revoke_jwt" ∧ nodeRole = .proxyNode
    · obtain ⟨rfl, rfl⟩ := hrevoke
      have heq := revokeJwt_eq h hash now (data.get "token")
        (stringToTimestamp (data.get "exp_time"))
      rw [if_pos ⟨rfl, rfl⟩, Input.ops, if_pos rfl, revocationOf_revoked hparse]
      have hstep : e.step hash (.revokeJwt (data.get "token")
          (stringToTimestamp (data.get "exp_time")) now) = _ := heq
      exact ⟨_, run_singleton hstep, by rw [heq]; rfl⟩
    · have hops : Input.ops J nodeRole (.frame now message) = [] := by
        rw [Input.ops]
        split_ifs with hproxy
        · rw [revocationOf_other hparse fun hevent => hrevoke ⟨hevent, hproxy⟩]
          rfl
        · rfl
      rw [if_neg hrevoke, hops]
      exact ⟨e, rfl, rfl⟩

/-- No frame stops the loop; the history grows by the calls, and every query is answered. -/
lemma serve_of_history (proxyQuery : Str → ℤ → Except Fault Bool) {blank : BaseBloomFilter}
    {history : List Op} (h : e.HasHistory hash blank history) (hsize : e.bloomFilterSize < 2 ^ 32)
    (hrole : nodeRole ≠ .slaveNode) (hw : WellFormed J inputs) :
    ∃ filters responses,
      serve J hash nodeRole proxyQuery e inputs = .ok ({ e with filters := filters }, responses) ∧
      responses.length = inputs.countP (Input.isQuery J) ∧
      ({ e with filters := filters } : Engine).HasHistory hash blank
        (history ++ inputs.flatMap (Input.ops J nodeRole)) := by
  induction inputs generalizing e history with
  | nil => exact ⟨e.filters, [], rfl, rfl, by simpa using h⟩
  | cons input inputs ih =>
    have hw' : WellFormed J inputs :=
      fun now message hm => hw now message (List.mem_cons_of_mem _ hm)
    rw [List.flatMap_cons, ← List.append_assoc, List.countP_cons]
    cases input with
    | call op =>
      obtain ⟨e₁, hr⟩ := h.run_isOk hsize [op]
      obtain ⟨filters₁, rfl, h₁⟩ := h.run hr
      obtain ⟨filters, responses, hserve, hlen, hist⟩ := ih h₁ hsize hw'
      refine ⟨filters, responses, ?_, by simpa [Input.isQuery] using hlen, hist⟩
      have hstep : e.step hash op = .ok { e with filters := filters₁ } := by
        simpa [Engine.run] using hr
      rw [serve, hstep, ok_bind]
      exact hserve
    | frame now message =>
      obtain ⟨event, data, hparse⟩ := hw now message List.mem_cons_self
      obtain ⟨e₁, hr, htask⟩ := processTask_of_shaped hash now proxyQuery h.shaped hrole
        hparse
      obtain ⟨filters₁, rfl, h₁⟩ := h.run hr
      obtain ⟨filters, responses, hserve, hlen, hist⟩ := ih h₁ hsize hw'
      refine ⟨filters, ((queryOf J message).map (response J hash e now)).toList ++ responses, ?_,
        ?_, hist⟩
      · rw [serve, htask, ok_bind]
        dsimp only
        rw [hserve]
        rfl
      · rw [List.length_append, hlen]
        cases hq : queryOf J message <;> simp [Input.isQuery, hq, Nat.add_comm]

lemma serve_append {e₁ e₂ : Engine} {r₁ r₂ : List Str}
    (h₁ : serve J hash nodeRole proxyQuery e before = .ok (e₁, r₁))
    (h₂ : serve J hash nodeRole proxyQuery e₁ after = .ok (e₂, r₂)) :
    serve J hash nodeRole proxyQuery e (before ++ after) = .ok (e₂, r₁ ++ r₂) := by
  induction before generalizing e r₁ with
  | nil =>
    cases h₁
    exact h₂
  | cons input before ih =>
    cases input with
    | call op =>
      rw [serve] at h₁
      obtain ⟨e', hstep, h₁⟩ := bind_eq_ok.mp h₁
      rw [List.cons_append, serve, hstep, ok_bind]
      exact ih h₁
    | frame now message =>
      rw [serve] at h₁
      obtain ⟨⟨e', resp⟩, htask, h₁⟩ := bind_eq_ok.mp h₁
      obtain ⟨⟨e'', responses⟩, hserve, h₁⟩ := bind_eq_ok.mp h₁
      cases h₁
      rw [List.cons_append, serve, htask, ok_bind]
      dsimp only
      rw [ih hserve, ok_bind, List.append_assoc]
      rfl

lemma answers_response (hJ : J.RoundTrips) {token : Str} {expTime : ℤ}
    {revoked : Prop} (htoken : data.get "token" = token)
    (hexp : data.get "exp_time" = stdToString expTime) (hlong : InLong expTime)
    (hiff : e.Reports hash now token expTime ↔ revoked) :
    Answers J (response J hash e now data) token expTime revoked := by
  rw [response, htoken, hexp, stringToTimestamp_stdToString hlong]
  obtain ⟨data', hparse, hdata⟩ := JsonLib.msgParse_msgAssembly hJ "is_jwt_revoked_response"
    (responseData token (stdToString expTime) (decide (e.Reports hash now token expTime)))
  refine ⟨data', hparse, ?_, ?_, fun hrevoked => ?_, fun hactive => ?_⟩
  · rw [hdata]
    rfl
  · rw [hdata]
    rfl
  · rw [hdata, decide_eq_true (hiff.mpr hrevoked)]
    rfl
  · rw [hdata, decide_eq_false fun h => hactive (hiff.mp h)]
    rfl

lemma reports_iff_revokedIn {p : Params} {blank : BaseBloomFilter} {history : List Op}
    {token : Str} {expTime : ℤ} (h : e.HasHistory hash blank history) (hp : e.HasParams p)
    (hsize : p.bloomFilterSize.toNat < 2 ^ 32) :
    e.Reports hash now token expTime ↔ RevokedIn hash p history now token expTime := by
  obtain ⟨hM, hR, hS, hK, -⟩ := hp
  have hacc : e.Accepts (expTime - now) ↔
      0 < expTime - now ∧ expTime - now ≤ p.maxJwtLifeTime.toNat := by rw [Accepts, hM]
  by_cases ha : e.Accepts (expTime - now)
  · rw [h.reports_iff ha, RevokedIn, and_iff_right (hacc.mp ha), slots, hS, toUnsignedInt,
      Nat.mod_eq_of_lt hsize, hK, hM, hR]
  · exact iff_of_false (fun hrep => ha hrep.1) fun hrev => ha (hacc.mpr hrev.1)

/-- Every query of a client is answered once, in order, and what the engine was built from and
the calls since decide the answer. -/
theorem answered_from_history {utcOffset t₀ : ℤ} {p : Params} {w w' : World}
    (hJ : J.RoundTrips) (hbuilt : Built hash utcOffset t₀ p w w')
    (hp : p.rotationInterval.toNat ≤ p.maxJwtLifeTime.toNat)
    (hsize : p.bloomFilterSize.toNat < 2 ^ 32) (hrole : nodeRole ≠ .slaveNode)
    (hw : WellFormed J inputs) :
    ∃ e' responses, serve J hash nodeRole proxyQuery w'.engine inputs = .ok (e', responses) ∧
      responses.length = inputs.countP (Input.isQuery J) ∧
      ∀ before now message after members token expTime,
        inputs = before ++ .frame now message :: after →
        J.IsMessage message "is_jwt_revoked" members →
        J.HasRevocation members token expTime → InLong expTime →
        ∃ reply, responses[before.countP (Input.isQuery J)]? = some reply ∧
          Answers J reply token expTime
            (RevokedIn hash p (loadedOps utcOffset t₀ w.logDir ++
              before.flatMap (Input.ops J nodeRole)) now token expTime) := by
  obtain ⟨blank, hist⟩ := hbuilt.hasHistory hp
  obtain ⟨hM, hR, hS, hK, hN⟩ := hbuilt.hasParams
  have hsize' : w'.engine.bloomFilterSize < 2 ^ 32 := hS ▸ hsize
  obtain ⟨filters, responses, hserve, hlen, -⟩ :=
    serve_of_history proxyQuery hist hsize' hrole hw
  refine ⟨_, responses, hserve, hlen, ?_⟩
  rintro before now message after members token expTime rfl hmessage hrequest hlong
  obtain ⟨data, hparse, hdata⟩ := JsonLib.msgParse_of_message hmessage
  obtain ⟨filters₁, r₁, hserve₁, hlen₁, hist₁⟩ := serve_of_history proxyQuery
    hist hsize' hrole fun now message hm => hw now message (List.mem_append_left _ hm)
  obtain ⟨filters₂, r₂, hserve₂, -, -⟩ := serve_of_history proxyQuery
    hist₁ hsize' hrole fun now message hm => hw now message (List.mem_append_right _ hm)
  have hwhole := serve_append hserve₁ hserve₂
  rw [hserve] at hwhole
  obtain ⟨-, rfl⟩ := Prod.mk.inj (Except.ok.inj hwhole)
  -- the reply is the head of what comes after
  rw [serve] at hserve₂
  obtain ⟨e₂, -, htask⟩ := processTask_of_shaped hash now proxyQuery hist₁.shaped hrole
    hparse
  rw [htask, ok_bind] at hserve₂
  obtain ⟨⟨e₃, r₃⟩, -, hr₂⟩ := bind_eq_ok.mp hserve₂
  cases hr₂
  rw [queryOf_query hparse, Option.map_some]
  refine ⟨_, by rw [← hlen₁, List.getElem?_append_right le_rfl, Nat.sub_self]; rfl, ?_⟩
  have htoken : data.get "token" = token := by
    rw [Data.get, hdata, hrequest.token]
    rfl
  have hexp : data.get "exp_time" = stdToString expTime := by
    rw [Data.get, JsonLib.lookup_of_hasInt hdata hrequest.expTime]
    rfl
  exact answers_response hJ htoken hexp hlong
    (reports_iff_revokedIn hist₁ ⟨hM, hR, hS, hK, hN⟩ hsize)

def sampleQuery : Str :=
  jsonText.msgAssembly "is_jwt_revoked"
    ((AList.insert ("token" : Str) ("a" : Str) ∅).insert ("exp_time" : Str) (stdToString 25))

/-- A query before and one after the revocation of its token by another thread. -/
def sampleInputs : List Input :=
  [.frame 5 sampleQuery, .call (.revokeJwt "a" 25 5), .frame 7 sampleQuery]

lemma wellFormed_sampleInputs : WellFormed jsonText sampleInputs := by
  intro now message hm
  have hmessage : message = sampleQuery := by
    simp only [sampleInputs, List.mem_cons, Input.frame.injEq, reduceCtorEq, false_or,
      List.not_mem_nil, or_false] at hm
    exact hm.elim And.right And.right
  obtain ⟨data, hparse, -⟩ := JsonLib.msgParse_msgAssembly roundTrips_jsonText "is_jwt_revoked"
    ((AList.insert ("token" : Str) ("a" : Str) ∅).insert ("exp_time" : Str) (stdToString 25))
  exact ⟨_, data, by rw [hmessage]; exact hparse⟩

/-- The first query is answered with active, the second with revoked. -/
theorem answered_from_history_sample :
    ∃ w', Built (fun _ key => key.length) 0 0 ⟨30, 10, 8, 1⟩ ⟨{}, fun _ => none⟩ w' ∧
      ∃ e' first second, serve jsonText (fun _ key => key.length) .singleNode
          (fun _ _ => .ok false) w'.engine sampleInputs = .ok (e', [first, second]) ∧
        Answers jsonText first "a" 25 False ∧ Answers jsonText second "a" 25 True := by
  have hi : Returns (Engine.init (fun _ key => key.length) 0 0 ⟨30, 10, 8, 1⟩)
      ⟨{}, fun _ => none⟩ () _ := returns_of_ok rfl
  have hbuilt := (init_returns.mp hi).2
  obtain ⟨members, hmsg, hlookup⟩ := JsonLib.isMessage_msgAssembly roundTrips_jsonText
    "is_jwt_revoked"
    ((AList.insert ("token" : Str) ("a" : Str) ∅).insert ("exp_time" : Str) (stdToString 25))
  have hrequest : jsonText.HasRevocation members "a" 25 :=
    ⟨by rw [hlookup]; rfl, JsonLib.hasInt_of_lookup hlookup (by decide +kernel)⟩
  obtain ⟨data, hparse, -⟩ := JsonLib.msgParse_of_message hmsg
  have hquery : queryOf jsonText sampleQuery = some data := queryOf_query hparse
  obtain ⟨e', responses, hserve, hlen, hanswers⟩ := @answered_from_history jsonText
    (fun _ key => key.length) .singleNode (fun _ _ => .ok false) sampleInputs 0 0 _ _ _
    roundTrips_jsonText hbuilt (by decide) (by decide) (by decide) wellFormed_sampleInputs
  have hcount : sampleInputs.countP (Input.isQuery jsonText) = 2 := by
    simp [sampleInputs, Input.isQuery, hquery]
  obtain ⟨first, second, rfl⟩ := List.length_eq_two.mp (hlen.trans hcount)
  refine ⟨_, hbuilt, e', first, second, hserve, ?_, ?_⟩
  · obtain ⟨reply, hreply, hanswer⟩ := hanswers [] 5 sampleQuery _ members "a" 25 rfl hmsg hrequest
      (by decide)
    cases hreply
    convert hanswer using 1
    refine iff_of_false id ?_
    unfold RevokedIn
    decide +kernel
  · obtain ⟨reply, hreply, hanswer⟩ := hanswers [.frame 5 sampleQuery, .call (.revokeJwt "a" 25 5)]
      7 sampleQuery _ members "a" 25 rfl hmsg hrequest (by decide)
    have hbefore : [Input.frame 5 sampleQuery, .call (.revokeJwt "a" 25 5)].countP
        (Input.isQuery jsonText) = 1 := by
      simp [Input.isQuery, hquery]
    rw [hbefore] at hreply
    cases hreply
    convert hanswer using 1
    refine iff_of_true trivial ?_
    unfold RevokedIn
    decide +kernel

end JwtRevoker.Server
