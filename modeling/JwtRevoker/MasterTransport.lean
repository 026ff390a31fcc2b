import JwtRevoker.MasterSession
import JwtRevoker.SocketMsgFrame

/-!
# The connections to the master

`connect` of `MasterSession` attempt by attempt, and the bytes that the session writes on
one connection after the other. Every connection begins with the hello, carries messages
only once the master has accepted it, and ends wherever a write fails. What the master
can read of all of them is a subsequence of the messages given, in their order.
-/
namespace JwtRevoker.MasterTransport

open StepRuns FrameStream

/-- How a connection attempt of `connect` ends: without a connection, or with the reply to
the hello, or with the exception that sending the hello or receiving the reply throws. -/
inductive Attempt
  | refused
  | answered (reply : Except Fault Str)

/-- A connection with the reply to its hello and the bytes written so far. -/
structure Connection where
  reply : Str
  bytes : Str

/-- Where `connect` is, with the connections it has given up. -/
inductive Connect
  | trying (opened : List Connection)
  | connected (opened : List Connection) (current : Connection)
  | raised (fault : Fault)

section Protocol

variable (J : JsonLib) (clientUid token : Str)

def helloData : Data :=
  (AList.insert ("client_uid" : Str) clientUid ∅).insert ("token" : Str) token

def hello : Str := J.msgAssembly "hello_from_client" (helloData clientUid token)

def connect : List Attempt → List Connection → Connect
  | [], opened => .trying opened
  | .refused :: attempts, opened => connect attempts opened
  | .answered reply :: attempts, opened =>
      match reply with
      | .error fault => .raised fault
      | .ok msg =>
          match J.msgParse msg [] ∅ with
          | .error fault => .raised fault
          | .ok (event, _) =>
              let connection := ⟨msg, sendMsgToSocket (hello J clientUid token)⟩
              if event = "auth_success" then .connected opened connection
              else if event = "auth_failed" then
                .raised (.invalidArgument ("Authenticate failed, node_uid: " ++
                  String.ofList clientUid ++ ", node_token: " ++ String.ofList token))
              -- The next attempt closes the socket before it opens it again.
              else connect attempts (opened ++ [connection])

/-- The session and its connections, the one in use last. -/
structure Transport where
  session : MasterSession.State := {}
  closed : List Connection
  current : Connection

def Transport.connections (t : Transport) : List Connection := t.closed ++ [t.current]

/-- The steps of the session; a failed write has written a part of the frame, and a new
connection comes from a call of `connect`. -/
inductive Action
  | session (a : MasterSession.Action)
  | writeFails (part : Str)
  | connect (attempts : List Attempt)

def Connection.write (c : Connection) (bytes : Str) : Connection :=
  { c with bytes := c.bytes ++ bytes }

/-- What the session writes in a step on the connection in use. -/
def bytesOf (s : MasterSession.State) : MasterSession.Action → Str
  | .writeOk =>
      match s.sender with
      | .writing msg => sendMsgToSocket msg
      | _ => []
  | _ => []

def step (t : Transport) : Action → Option Transport
  | .session a =>
      if a = .writeFails ∨ a = .connect then none
      else (MasterSession.step t.session a).map fun s =>
        { t with session := s, current := t.current.write (bytesOf t.session a) }
  | .writeFails part =>
      match t.session.sender with
      | .writing msg =>
          if part <+: sendMsgToSocket msg ∧ part ≠ sendMsgToSocket msg then
            (MasterSession.step t.session .writeFails).map fun s =>
              { t with session := s, current := t.current.write part }
          else none
      | _ => none
  | .connect attempts =>
      match connect J clientUid token attempts [] with
      | .connected opened current =>
          (MasterSession.step t.session .connect).map fun s =>
            { session := s, closed := t.closed ++ t.current :: opened, current := current }
      | _ => none

end Protocol

/-- What a frame can carry. -/
def Sendable (msg : Str) : Prop := msg ≠ [] ∧ msg.length < 2 ^ 32

/-- The bytes are the frames of the hello and of the messages, and maybe a part of the frame
of one more. -/
def Carries (hello : Str) (c : Connection) (messages : List Str) : Prop :=
  ∃ part last, c.bytes = stream sendMsgToSocket (hello :: messages) ++ part ∧ Sendable last ∧
    part <+: sendMsgToSocket last ∧ part ≠ sendMsgToSocket last

/-- The master has accepted the hello. -/
def Accepted (J : JsonLib) (c : Connection) : Prop :=
  ∃ data, J.msgParse c.reply [] ∅ = .ok ("auth_success", data)

/-- The messages the caller gives can be sent. -/
def GivesSendable (_ : Transport) : Action → Prop
  | .session (.asyncSendMsg msg) => Sendable msg
  | _ => True

variable {J : JsonLib} {clientUid token : Str} {attempts : List Attempt}
  {opened opened' : List Connection} {c current : Connection} {t t' : Transport} {a : Action}
  {actions : List Action}

/-- `connect` returns on a connection that the master has accepted, with nothing but the
hello on it and on the connections given up before. -/
lemma connect_eq_connected
    (h : connect J clientUid token attempts opened = .connected opened' current) :
    Accepted J current ∧ current.bytes = sendMsgToSocket (hello J clientUid token) ∧
      ∃ more, opened' = opened ++ more ∧
        ∀ c ∈ more, c.bytes = sendMsgToSocket (hello J clientUid token) := by
  induction attempts generalizing opened with
  | nil => cases h
  | cons attempt attempts ih =>
    cases attempt with
    | refused => exact ih h
    | answered reply =>
      unfold connect at h
      split at h
      · cases h
      · split at h
        · cases h
        · rename_i event data hparse
          dsimp only at h
          split_ifs at h with hsuccess hfailed
          · cases h
            subst hsuccess
            exact ⟨⟨data, hparse⟩, rfl, [], by simp, by simp⟩
          · obtain ⟨haccepted, hbytes, more, hopened, hmore⟩ := ih h
            rw [List.append_assoc, List.singleton_append] at hopened
            refine ⟨haccepted, hbytes, _, hopened, ?_⟩
            intro c hc
            rcases List.mem_cons.mp hc with rfl | hc
            · rfl
            · exact hmore c hc

/-- Raw messages are self-delimiting frames. -/
lemma delimits_msg :
    Delimits sendMsgToSocket recvMsgFromSocket Sendable (fun msg msg' => msg' = msg)
      (.runtimeError "End of file") where
  recv_send msg rest h := ⟨msg, recvMsgFromSocket_send h.1 h.2 rest, rfl⟩
  recv_cut _ _ h hcut hne := recvMsgFromSocket_cut h.2 hcut hne

section Session

open MasterSession

variable {s s' : MasterSession.State} {b : MasterSession.Action} {msg : Str}

/-- Only a new connection puts the send thread to work again. -/
lemma sender_of_step (hb : b ≠ .connect) (h : MasterSession.step s b = some s')
    (hs : s'.sender ≠ .ended) : s.sender ≠ .ended := by
  intro hended
  cases b with
  | connect => exact hb rfl
  | sendLoop | sendDequeue | writeOk | writeFails => simp [MasterSession.step, hended] at h
  | asyncSendMsg | recvLoop | recvOk | recvFails | watch | joinSend | joinRecv =>
    simp only [MasterSession.step] at h
    split_ifs at h
    all_goals
      cases h
      exact hs hended
  | recvMsg =>
    simp only [MasterSession.step] at h
    split at h
    · cases h
      exact hs hended
    · cases h

lemma given_of_step (h : MasterSession.step s b = some s') :
    s'.given = s.given ∨ ∃ msg, b = .asyncSendMsg msg ∧ s'.given = s.given ++ [msg] := by
  cases b with
  | asyncSendMsg msg =>
    simp only [MasterSession.step] at h
    split_ifs at h
    cases h
    exact .inr ⟨msg, rfl, rfl⟩
  | sendLoop | recvLoop | recvOk | recvFails | watch | joinSend | joinRecv | connect =>
    simp only [MasterSession.step] at h
    split_ifs at h
    all_goals
      cases h
      exact .inl rfl
  | recvMsg | sendDequeue | writeOk =>
    simp only [MasterSession.step] at h
    split at h
    · cases h
      exact .inl rfl
    · cases h
  | writeFails =>
    simp only [MasterSession.step] at h
    split at h
    · split_ifs at h
      cases h
      exact .inl rfl
    · cases h

/-- Only a write that returns adds to what is written. -/
lemma written_of_step (hb : b ≠ .writeOk) (hf : b ≠ .writeFails)
    (h : MasterSession.step s b = some s') : s'.written = s.written := by
  have hattempts : s'.attempts = s.attempts := by
    cases b with
    | writeOk => exact absurd rfl hb
    | writeFails => exact absurd rfl hf
    | asyncSendMsg | sendLoop | recvLoop | recvOk | recvFails | watch | joinSend | joinRecv
    | connect =>
      simp only [MasterSession.step] at h
      split_ifs at h
      all_goals
        cases h
        rfl
    | recvMsg | sendDequeue =>
      simp only [MasterSession.step] at h
      split at h
      · cases h
        rfl
      · cases h
  rw [State.written, State.written, hattempts]

lemma mem_given_of_writing (h : s.InOrder) (hs : s.sender = .writing msg) : msg ∈ s.given := by
  rw [← h.order, hs]
  simp [Sender.hand]

end Session

/-- What the connections carry: each its own messages, together those written. The one in
use ends with a whole frame unless a write on it has failed. -/
structure Carried (hello : Str) (t : Transport) (closed : List (List Str)) (last : List Str) :
    Prop where
  ofClosed : List.Forall₂ (Carries hello) t.closed closed
  ofCurrent : Carries hello t.current last
  whole : t.session.sender ≠ .ended → t.current.bytes = stream sendMsgToSocket (hello :: last)
  written : closed.flatten ++ last = t.session.written

structure Inv (J : JsonLib) (hello : Str) (t : Transport) : Prop where
  inOrder : t.session.InOrder
  sendable : ∀ msg ∈ t.session.given, Sendable msg
  accepted : Accepted J t.current
  closedAccepted : ∀ c ∈ t.closed, c.bytes ≠ sendMsgToSocket hello → Accepted J c
  carried : ∃ closed last, Carried hello t closed last

variable {hello' : Str}

lemma sendMsgToSocket_ne_nil (hhello : Sendable hello') : sendMsgToSocket hello' ≠ [] := by
  intro h
  rw [sendMsgToSocket, if_neg hhello.1] at h
  exact absurd (congrArg List.length h) (by simp)

/-- A connection with whole frames. -/
lemma carries_of_whole {messages : List Str} (hhello : Sendable hello')
    (h : c.bytes = stream sendMsgToSocket (hello' :: messages)) : Carries hello' c messages :=
  ⟨[], hello', by rw [h, List.append_nil], hhello, List.nil_prefix,
    (sendMsgToSocket_ne_nil hhello).symm⟩

lemma carries_of_hello (hhello : Sendable hello') (h : c.bytes = sendMsgToSocket hello') :
    Carries hello' c [] := by
  refine carries_of_whole hhello ?_
  rw [h, stream, List.flatMap_cons, List.flatMap_nil, List.append_nil]

@[simp] lemma write_nil (c : Connection) : c.write [] = c := by simp [Connection.write]

/-- A step that writes nothing. -/
lemma Inv.quiet {s : MasterSession.State} {b : MasterSession.Action} (h : Inv J hello' t)
    (hw : b ≠ .writeOk) (hf : b ≠ .writeFails) (hc : b ≠ .connect)
    (hgives : GivesSendable t (.session b)) (hs : MasterSession.step t.session b = some s) :
    Inv J hello' { t with session := s } := by
  refine ⟨h.inOrder.step hs, fun msg hmem => ?_, h.accepted, h.closedAccepted, ?_⟩
  · rcases given_of_step hs with hg | ⟨msg', rfl, hg⟩
    · exact h.sendable msg (hg ▸ hmem)
    · rw [hg] at hmem
      rcases List.mem_append.mp hmem with hmem | hmem
      · exact h.sendable msg hmem
      · rw [List.mem_singleton.mp hmem]
        exact hgives
  · obtain ⟨closed, last, hcarried⟩ := h.carried
    refine ⟨closed, last, hcarried.ofClosed, hcarried.ofCurrent, fun hne => ?_, ?_⟩
    · exact hcarried.whole (sender_of_step hc hs hne)
    · rw [written_of_step hw hf hs]
      exact hcarried.written

lemma stream_append_singleton (messages : List Str) (msg : Str) :
    stream sendMsgToSocket (hello' :: (messages ++ [msg])) =
      stream sendMsgToSocket (hello' :: messages) ++ sendMsgToSocket msg := by
  simp [stream]

/-- A write that returns adds a whole frame. -/
lemma Inv.writeOk {s : MasterSession.State} (hhello : Sendable hello') (h : Inv J hello' t)
    (hs : MasterSession.step t.session .writeOk = some s) :
    Inv J hello' { t with
      session := s, current := t.current.write (bytesOf t.session .writeOk) } := by
  have hnext := h.inOrder.step hs
  simp only [MasterSession.step] at hs
  split at hs
  · rename_i msg hwriting
    cases hs
    have hbytes : bytesOf t.session .writeOk = sendMsgToSocket msg := by
      simp only [bytesOf, hwriting]
    obtain ⟨closed, last, hcarried⟩ := h.carried
    have hwhole := hcarried.whole (by rw [hwriting]; exact MasterSession.Sender.noConfusion)
    have hnew : (t.current.write (sendMsgToSocket msg)).bytes =
        stream sendMsgToSocket (hello' :: (last ++ [msg])) := by
      rw [stream_append_singleton, ← hwhole]
      rfl
    rw [hbytes]
    refine ⟨hnext, h.sendable, h.accepted, h.closedAccepted, closed, last ++ [msg],
      hcarried.ofClosed, carries_of_whole hhello hnew, fun _ => hnew, ?_⟩
    have hwritten := hcarried.written
    simp only [MasterSession.State.written] at hwritten ⊢
    rw [List.filter_append, List.map_append, ← hwritten]
    simp
  · cases hs

/-- A write that fails leaves a part of a frame, and the send thread ends. -/
lemma Inv.writeFails {s : MasterSession.State} {msg part : Str} (h : Inv J hello' t)
    (hwriting : t.session.sender = .writing msg) (hpart : part <+: sendMsgToSocket msg)
    (hne : part ≠ sendMsgToSocket msg)
    (hs : MasterSession.step t.session .writeFails = some s) :
    Inv J hello' { t with session := s, current := t.current.write part } := by
  have hnext := h.inOrder.step hs
  simp only [MasterSession.step, hwriting] at hs
  split_ifs at hs
  cases hs
  obtain ⟨closed, last, hcarried⟩ := h.carried
  have hwhole := hcarried.whole (by rw [hwriting]; exact MasterSession.Sender.noConfusion)
  refine ⟨hnext, h.sendable, h.accepted, h.closedAccepted, closed, last, hcarried.ofClosed,
    ⟨part, msg, ?_, ?_, hpart, hne⟩, fun hended => absurd rfl hended, ?_⟩
  · rw [← hwhole]
    rfl
  · exact h.sendable msg (mem_given_of_writing h.inOrder hwriting)
  · have hwritten := hcarried.written
    simp only [MasterSession.State.written] at hwritten ⊢
    rw [List.filter_append, List.map_append, ← hwritten]
    simp

/-- A new connection carries the hello and no message yet. -/
lemma Inv.connect {s : MasterSession.State} (hhello : Sendable (hello J clientUid token))
    (h : Inv J (hello J clientUid token) t)
    (hconnect : MasterTransport.connect J clientUid token attempts [] = .connected opened current)
    (hs : MasterSession.step t.session .connect = some s) :
    Inv J (hello J clientUid token)
      { session := s, closed := t.closed ++ t.current :: opened, current := current } := by
  obtain ⟨haccepted, hbytes, more, hopened, hmore⟩ := connect_eq_connected hconnect
  rw [List.nil_append] at hopened
  subst hopened
  obtain ⟨closed, last, hcarried⟩ := h.carried
  refine ⟨h.inOrder.step hs, ?_, haccepted, ?_, closed ++ last :: opened.map fun _ => [], [],
    ?_, carries_of_hello hhello hbytes, fun _ => ?_, ?_⟩
  · intro msg hmem
    rcases given_of_step hs with hg | ⟨msg', hb, -⟩
    · exact h.sendable msg (hg ▸ hmem)
    · cases hb
  · intro c hc hne
    rcases List.mem_append.mp hc with hc | hc
    · exact h.closedAccepted c hc hne
    · rcases List.mem_cons.mp hc with rfl | hc
      · exact h.accepted
      · exact absurd (hmore c hc) hne
  · refine List.rel_append hcarried.ofClosed (.cons hcarried.ofCurrent ?_)
    rw [List.forall₂_map_right_iff]
    exact List.forall₂_same.mpr fun c hc => carries_of_hello hhello (hmore c hc)
  · rw [hbytes, stream, List.flatMap_cons, List.flatMap_nil, List.append_nil]
  · rw [written_of_step MasterSession.Action.noConfusion MasterSession.Action.noConfusion hs,
      ← hcarried.written]
    simp

lemma Inv.step (hhello : Sendable (hello J clientUid token))
    (h : Inv J (hello J clientUid token) t) (hgives : GivesSendable t a)
    (hs : MasterTransport.step J clientUid token t a = some t') :
    Inv J (hello J clientUid token) t' := by
  cases a with
  | session b =>
    simp only [MasterTransport.step] at hs
    split_ifs at hs with hb
    obtain ⟨s, hsession, rfl⟩ := Option.map_eq_some_iff.mp hs
    obtain ⟨hf, hc⟩ := not_or.mp hb
    by_cases hw : b = .writeOk
    · subst hw
      exact h.writeOk hhello hsession
    · have hbytes : bytesOf t.session b = [] := by
        cases b <;> first | rfl | exact absurd rfl hw
      rw [hbytes, write_nil]
      exact h.quiet hw hf hc hgives hsession
  | writeFails part =>
    simp only [MasterTransport.step] at hs
    split at hs
    · split_ifs at hs with hpart
      obtain ⟨s, hsession, rfl⟩ := Option.map_eq_some_iff.mp hs
      exact h.writeFails ‹_› hpart.1 hpart.2 hsession
    · cases hs
  | connect attempts =>
    simp only [MasterTransport.step] at hs
    split at hs
    · obtain ⟨s, hsession, rfl⟩ := Option.map_eq_some_iff.mp hs
      exact h.connect hhello ‹_› hsession
    · cases hs

/-- The session after its constructor, which connects before it starts the threads. -/
def start (J : JsonLib) (clientUid token : Str) (attempts : List Attempt) : Option Transport :=
  match connect J clientUid token attempts [] with
  | .connected opened current => some { closed := opened, current := current }
  | _ => none

/-- A refused attempt and one that the master accepts. -/
lemma connect_of_accepted {reply : Str} {data : Data}
    (h : J.msgParse reply [] ∅ = .ok ("auth_success", data)) :
    connect J clientUid token [.refused, .answered (.ok reply)] opened =
      .connected opened ⟨reply, sendMsgToSocket (hello J clientUid token)⟩ := by
  rw [connect, connect]
  simp only [h]
  exact if_pos trivial

lemma inv_start (hhello : Sendable (hello J clientUid token))
    (h : start J clientUid token attempts = some t) : Inv J (hello J clientUid token) t := by
  unfold start at h
  split at h
  · rename_i opened current hconnect
    cases h
    obtain ⟨haccepted, hbytes, more, hopened, hmore⟩ := connect_eq_connected hconnect
    rw [List.nil_append] at hopened
    subst hopened
    refine ⟨MasterSession.inOrder_init, fun msg hmem => absurd hmem List.not_mem_nil, haccepted,
      fun c hc hne => absurd (hmore c hc) hne, opened.map fun _ => [], [], ?_,
      carries_of_hello hhello hbytes, fun _ => ?_, ?_⟩
    · rw [List.forall₂_map_right_iff]
      exact List.forall₂_same.mpr fun c hc => carries_of_hello hhello (hmore c hc)
    · rw [hbytes, stream, List.flatMap_cons, List.flatMap_nil, List.append_nil]
    · simp [MasterSession.State.written]
  · cases h

/-- What is read of the bytes of one connection: nothing, or the hello and the first of its
messages. -/
def Reads (hello : Str) (n : ℕ) (input : Str) (messages : List Str) : Prop :=
  ((receive recvMsgFromSocket n input).1 = [] ∧ messages = []) ∨
    (receive recvMsgFromSocket n input).1 = hello :: messages

lemma reads_of_carries {hello' input : Str} {messages : List Str} (hhello : Sendable hello')
    (hall : ∀ msg ∈ messages, Sendable msg) (hc : Carries hello' c messages)
    (hinput : input <+: c.bytes) (n : ℕ) :
    ∃ received, Reads hello' n input received ∧ received.Sublist messages := by
  obtain ⟨part, last, hbytes, hlast, hpart, hne⟩ := hc
  rw [hbytes] at hinput
  have hgood : ∀ msg ∈ hello' :: messages, Sendable msg := by
    intro msg hmem
    rcases List.mem_cons.mp hmem with rfl | hmem
    · exact hhello
    · exact hall msg hmem
  obtain ⟨k, hk⟩ := receive_prefix delimits_msg hgood hlast hpart hne hinput n
  have hread : (receive recvMsgFromSocket n input).1 = (hello' :: messages).take k := by
    rw [← List.forall₂_eq_eq_eq]
    exact hk.flip
  cases k with
  | zero => exact ⟨[], .inl ⟨hread, rfl⟩, List.nil_sublist _⟩
  | succ k => exact ⟨messages.take k, .inr hread, List.take_sublist k messages⟩

lemma reads_of_connections {hello' : Str} {connections : List Connection} {inputs : List Str}
    {carried : List (List Str)} (hhello : Sendable hello')
    (hall : ∀ msg ∈ carried.flatten, Sendable msg)
    (hc : List.Forall₂ (Carries hello') connections carried)
    (hinputs : List.Forall₂ (fun input (c : Connection) => input <+: c.bytes) inputs connections)
    (n : ℕ) :
    ∃ received, List.Forall₂ (Reads hello' n) inputs received ∧
      received.flatten.Sublist carried.flatten := by
  induction hc generalizing inputs with
  | nil =>
    cases hinputs
    exact ⟨[], .nil, List.Sublist.refl _⟩
  | @cons c messages connections carried hfirst hrest ih =>
    cases hinputs with
    | cons hinput hinputs =>
      rw [List.flatten_cons] at hall
      obtain ⟨first, hreads, hsub⟩ := reads_of_carries hhello
        (fun msg hmem => hall msg (List.mem_append_left _ hmem)) hfirst hinput n
      obtain ⟨received, hall', hsub'⟩ :=
        ih (fun msg hmem => hall msg (List.mem_append_right _ hmem)) hinputs
      refine ⟨first :: received, .cons hreads hall', ?_⟩
      rw [List.flatten_cons, List.flatten_cons]
      exact hsub.append hsub'

/-- What can be read of all connections together. -/
lemma Inv.reads {hello' : Str} {inputs : List Str} (hhello : Sendable hello')
    (h : Inv J hello' t)
    (hinputs : List.Forall₂ (fun input (c : Connection) => input <+: c.bytes) inputs
      t.connections) (n : ℕ) :
    ∃ received, List.Forall₂ (Reads hello' n) inputs received ∧
      received.flatten.Sublist t.session.given := by
  obtain ⟨closed, last, hcarried⟩ := h.carried
  have hall : List.Forall₂ (Carries hello') t.connections (closed ++ [last]) :=
    List.rel_append hcarried.ofClosed (.cons hcarried.ofCurrent .nil)
  have hwritten : (closed ++ [last]).flatten = t.session.written := by
    rw [← hcarried.written]
    simp
  have hsub : t.session.written.Sublist t.session.given := by
    refine (List.filter_sublist.map _).trans ?_
    rw [← h.inOrder.order, List.append_assoc]
    exact List.sublist_append_left _ _
  obtain ⟨received, hreads, hreceived⟩ := reads_of_connections hhello
    (fun msg hmem => h.sendable msg (hsub.subset (hwritten ▸ hmem))) hall hinputs n
  exact ⟨received, hreads, (hwritten ▸ hreceived).trans hsub⟩

lemma step_connect {session : MasterSession.State}
    (hconnect : connect J clientUid token attempts [] = .connected opened current)
    (hs : MasterSession.step t.session .connect = some session) :
    step J clientUid token t (.connect attempts) =
      some ⟨session, t.closed ++ t.current :: opened, current⟩ := by
  simp only [step, hconnect, hs, Option.map_some]

/-- However often the connection breaks, and wherever in a frame: messages go only to a
master that has accepted the hello, and what can be read of all connections together is,
after the hellos, a subsequence of the messages given, none twice and in their order. -/
theorem master_reads_in_order (hhello : Sendable (hello J clientUid token))
    (hstart : start J clientUid token attempts = some t)
    (hgives : AllSteps (step J clientUid token) GivesSendable t actions)
    (hrun : run (step J clientUid token) t actions = some t') :
    (∀ c ∈ t'.connections, c.bytes ≠ sendMsgToSocket (hello J clientUid token) →
      Accepted J c) ∧
    ∀ inputs, List.Forall₂ (fun input (c : Connection) => input <+: c.bytes) inputs
        t'.connections →
      ∀ n, ∃ received, List.Forall₂ (Reads (hello J clientUid token) n) inputs received ∧
        received.flatten.Sublist t'.session.given := by
  have hinv : Inv J (hello J clientUid token) t' :=
    inv_run (fun _ _ _ h hg hs => h.step hhello hg hs) (inv_start hhello hstart) hgives hrun
  constructor
  · intro c hc hne
    rcases List.mem_append.mp hc with hc | hc
    · exact hinv.closedAccepted c hc hne
    · rw [List.mem_singleton.mp hc]
      exact hinv.accepted
  · intro inputs hinputs n
    exact hinv.reads hhello hinputs n

def authSuccess : Str := JsonText.jsonText.msgAssembly "auth_success" ∅

/-- After the constructor, one connection with the hello on it. -/
def sampleTransport : Transport where
  closed := []
  current := ⟨authSuccess, sendMsgToSocket (hello JsonText.jsonText "node_0001" "secret")⟩

/-- The write of the first message fails after its first byte, and the watchdog joins the
threads. -/
def lossOfConnection : List Action :=
  [.session (.asyncSendMsg "a"), .session .sendLoop, .session .sendDequeue,
    .writeFails [Char.ofNat 0], .session (.asyncSendMsg "b"), .session .recvLoop,
    .session .recvFails, .session .watch, .session .joinSend, .session .joinRecv]

/-- The second message goes out on the second connection. -/
def sampleActions : List Action :=
  lossOfConnection ++ .connect [.refused, .answered (.ok authSuccess)] ::
    [.session .sendLoop, .session .sendDequeue, .session .writeOk]

lemma entriesByKey_helloData (clientUid token : Str) :
    JsonLib.entriesByKey (helloData clientUid token) =
      [⟨"client_uid", clientUid⟩, ⟨"token", token⟩] := by
  have hkeys : ("client_uid" : Str) ≤ "token" := by decide
  exact JsonLib.entriesByKey_of_sorted (List.Perm.swap ..) (List.pairwise_pair.mpr hkeys)

lemma sendable_hello_sample : Sendable (hello JsonText.jsonText "node_0001" "secret") := by
  rw [Sendable, hello, JsonLib.msgAssembly, JsonLib.msgObject, entriesByKey_helloData]
  constructor <;> decide +kernel

theorem master_reads_in_order_reconnected :
    start JsonText.jsonText "node_0001" "secret" [.refused, .answered (.ok authSuccess)] =
        some sampleTransport ∧
      ∃ t', run (step JsonText.jsonText "node_0001" "secret") sampleTransport sampleActions =
          some t' ∧
        t'.connections.length = 2 ∧
        ∀ inputs, List.Forall₂ (fun input (c : Connection) => input <+: c.bytes) inputs
            t'.connections →
          ∀ n, ∃ received,
            List.Forall₂ (Reads (hello JsonText.jsonText "node_0001" "secret") n) inputs
              received ∧
            received.flatten.Sublist ["a", "b"] := by
  obtain ⟨data, hparse, -⟩ := JsonLib.msgParse_msgAssembly JsonText.roundTrips_jsonText
    "auth_success" ∅
  have hconnect := @connect_of_accepted JsonText.jsonText "node_0001" "secret" [] authSuccess data
    hparse
  have hstart : start JsonText.jsonText "node_0001" "secret"
      [.refused, .answered (.ok authSuccess)] = some sampleTransport := by
    rw [start, hconnect]
    rfl
  have hrun : run (step JsonText.jsonText "node_0001" "secret") sampleTransport sampleActions =
      some _ :=
    run_append_eq_some.mpr ⟨_, rfl, run_cons_eq_some.mpr ⟨_, step_connect hconnect rfl, rfl⟩⟩
  have hgives : ∀ a ∈ sampleActions, ∀ t, GivesSendable t a := by
    simp [sampleActions, lossOfConnection, GivesSendable, Sendable]
  exact ⟨hstart, _, hrun, rfl,
    (master_reads_in_order sendable_hello_sample hstart (allSteps_of_forall hgives) hrun).2⟩

end JwtRevoker.MasterTransport
