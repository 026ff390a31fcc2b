import JwtRevoker.Cpp
import JwtRevoker.ThreadSafeQueue

/-!
# The session with the master

The send, receive and watchdog threads of `MasterSession`. A message leaves
`sendQueue` before it is written and is not put back when the write fails, so
what is written over all connections is a subsequence of what was given to
`asyncSendMsg`, and a prefix of it as long as nothing is written after a failed
write.
-/
namespace JwtRevoker.MasterSession

open StepRuns
open ThreadSafeQueue (queueDefaultMaxSize)

/-- Where the send thread is; `ended` when it has left its loop. -/
inductive Sender
  | loop
  | dequeuing
  | writing (msg : Str)
  | ended
  deriving DecidableEq

inductive Receiver
  | loop
  | reading
  | ended
  deriving DecidableEq

/-- Where the watchdog is: at its loop, joining a thread, or in `connect`. -/
inductive WatchDog
  | watching
  | joinSend
  | joinRecv
  | connecting
  deriving DecidableEq

/-- The members of the session, as its constructor leaves them. `given` are the
arguments of `asyncSendMsg` and `attempts` the calls of `sendMsgToSocket` with
whether they returned without an exception. -/
structure State where
  sendQueue : List Str := []
  recvQueue : List Str := []
  sender : Sender := .loop
  receiver : Receiver := .loop
  watchDog : WatchDog := .watching
  sendRunFlag : Bool := true
  recvRunFlag : Bool := true
  connErrFlag : Bool := false
  given : List Str := []
  attempts : List (Str × Bool) := []
  deriving DecidableEq

inductive Action
  | asyncSendMsg (msg : Str)
  | recvMsg
  | sendLoop
  | sendDequeue
  | writeOk
  | writeFails
  | recvLoop
  | recvOk (msg : Str)
  | recvFails
  | watch
  | joinSend
  | joinRecv
  | connect
  deriving DecidableEq

def step (s : State) : Action → Option State
  | .asyncSendMsg msg =>
      if s.sendQueue.length < queueDefaultMaxSize then
        some { s with sendQueue := s.sendQueue ++ [msg], given := s.given ++ [msg] }
      else none
  | .recvMsg =>
      match s.recvQueue with
      | _ :: rest => some { s with recvQueue := rest }
      | [] => none
  | .sendLoop =>
      if s.sender = .loop then
        some { s with sender := if s.sendRunFlag then .dequeuing else .ended }
      else none
  | .sendDequeue =>
      match s.sender, s.sendQueue with
      | .dequeuing, msg :: rest => some { s with sender := .writing msg, sendQueue := rest }
      | _, _ => none
  | .writeOk =>
      match s.sender with
      | .writing msg => some { s with sender := .loop, attempts := s.attempts ++ [(msg, true)] }
      | _ => none
  | .writeFails =>
      match s.sender with
      | .writing msg =>
          -- `sendMsgToSocket` returns at once for an empty message
          if msg = [] then none
          else some { s with
            sender := .ended
            connErrFlag := true
            attempts := s.attempts ++ [(msg, false)] }
      | _ => none
  | .recvLoop =>
      if s.receiver = .loop then
        some { s with receiver := if s.recvRunFlag then .reading else .ended }
      else none
  | .recvOk msg =>
      if s.receiver = .reading ∧ s.recvQueue.length < queueDefaultMaxSize then
        some { s with receiver := .loop, recvQueue := s.recvQueue ++ [msg] }
      else none
  | .recvFails =>
      if s.receiver = .reading then some { s with receiver := .ended, connErrFlag := true }
      else none
  | .watch =>
      if s.watchDog = .watching ∧ s.connErrFlag then
        some { s with watchDog := .joinSend, sendRunFlag := false, recvRunFlag := false }
      else none
  | .joinSend =>
      if s.watchDog = .joinSend ∧ s.sender = .ended then some { s with watchDog := .joinRecv }
      else none
  | .joinRecv =>
      if s.watchDog = .joinRecv ∧ s.receiver = .ended then
        some { s with watchDog := .connecting, connErrFlag := false }
      else none
  | .connect =>
      if s.watchDog = .connecting then
        some { s with
          watchDog := .watching
          sendRunFlag := true
          recvRunFlag := true
          sender := .loop
          receiver := .loop }
      else none

/-- The message the send thread has taken and not yet tried to write. -/
def Sender.hand : Sender → List Str
  | .writing msg => [msg]
  | _ => []

/-- The messages whose write returned without an exception, on any connection. -/
def State.written (s : State) : List Str :=
  (s.attempts.filter Prod.snd).map Prod.fst

/-- Every message given is tried once, in order, and then gone. The watchdog
connects only after the send thread has ended, so that no message is in its hand. -/
structure State.InOrder (s : State) : Prop where
  joined : s.watchDog = .joinRecv ∨ s.watchDog = .connecting → s.sender = .ended
  order : s.attempts.map Prod.fst ++ s.sender.hand ++ s.sendQueue = s.given

/-- No message was written after a failed write. -/
def State.NoneSkipped (s : State) : Prop :=
  s.attempts.Pairwise fun first second => second.2 = true → first.2 = true

/-- What a run keeps that never writes after a failed write. -/
structure State.Lossless (s : State) : Prop where
  inOrder : s.InOrder
  noneSkipped : s.NoneSkipped

/-- A message may be written only if no write has failed before. -/
def Careful (s : State) : Action → Prop
  | .writeOk => ∀ attempt ∈ s.attempts, attempt.2 = true
  | _ => True

variable {s s' : State} {a : Action} {actions : List Action}

/-- What a step does to the messages: it takes one in, moves the first of the
queue to the hand of the send thread, tries to write the one in its hand, or
leaves them alone. -/
lemma step_cases (hj : s.watchDog = .connecting → s.sender = .ended) (h : step s a = some s') :
    (∃ msg, s'.given = s.given ++ [msg] ∧ s'.sendQueue = s.sendQueue ++ [msg] ∧
      s'.sender.hand = s.sender.hand ∧ s'.attempts = s.attempts ∧ a ≠ .writeOk) ∨
    (∃ msg, s'.given = s.given ∧ s.sendQueue = msg :: s'.sendQueue ∧
      s.sender.hand = [] ∧ s'.sender.hand = [msg] ∧ s'.attempts = s.attempts ∧ a ≠ .writeOk) ∨
    (∃ msg ok, s'.given = s.given ∧ s'.sendQueue = s.sendQueue ∧ s.sender.hand = [msg] ∧
      s'.sender.hand = [] ∧ s'.attempts = s.attempts ++ [(msg, ok)] ∧
      (ok = true ↔ a = .writeOk)) ∨
    (s'.given = s.given ∧ s'.sendQueue = s.sendQueue ∧ s'.sender.hand = s.sender.hand ∧
      s'.attempts = s.attempts ∧ a ≠ .writeOk) := by
  cases a with
  | asyncSendMsg msg =>
    simp only [step] at h
    split_ifs at h
    cases h
    exact .inl ⟨msg, by simp⟩
  | sendDequeue =>
    simp only [step] at h
    split at h
    · rename_i msg rest hs hq
      cases h
      exact .inr (.inl ⟨msg, by simp [hs, hq, Sender.hand]⟩)
    · cases h
  | writeOk =>
    simp only [step] at h
    split at h
    · rename_i msg hs
      cases h
      exact .inr (.inr (.inl ⟨msg, true, by simp [hs, Sender.hand]⟩))
    · cases h
  | writeFails =>
    simp only [step] at h
    split at h
    · rename_i msg hs
      split_ifs at h
      cases h
      exact .inr (.inr (.inl ⟨msg, false, by simp [hs, Sender.hand]⟩))
    · cases h
  | sendLoop =>
    simp only [step] at h
    split_ifs at h with hs hf
    all_goals
      cases h
      exact .inr (.inr (.inr (by simp [hs, Sender.hand])))
  | connect =>
    simp only [step] at h
    split_ifs at h with hw
    cases h
    exact .inr (.inr (.inr (by simp [hj hw, Sender.hand])))
  | recvMsg =>
    simp only [step] at h
    split at h
    · cases h
      exact .inr (.inr (.inr (by simp)))
    · cases h
  | recvLoop | recvOk | recvFails | watch | joinSend | joinRecv =>
    simp only [step] at h
    split_ifs at h
    all_goals
      cases h
      exact .inr (.inr (.inr (by simp)))

lemma joined_step (hj : s.watchDog = .joinRecv ∨ s.watchDog = .connecting → s.sender = .ended)
    (h : step s a = some s') :
    s'.watchDog = .joinRecv ∨ s'.watchDog = .connecting → s'.sender = .ended := by
  cases a with
  | sendLoop =>
    simp only [step] at h
    split_ifs at h with hs
    all_goals
      cases h
      exact fun hw => absurd ((hj hw).symm.trans hs) Sender.noConfusion
  | sendDequeue =>
    simp only [step] at h
    split at h
    · rename_i hs _
      cases h
      exact fun hw => absurd ((hj hw).symm.trans hs) Sender.noConfusion
    · cases h
  | writeOk =>
    simp only [step] at h
    split at h
    · rename_i hs
      cases h
      exact fun hw => absurd ((hj hw).symm.trans hs) Sender.noConfusion
    · cases h
  | writeFails =>
    simp only [step] at h
    split at h
    · split_ifs at h
      cases h
      exact fun _ => rfl
    · cases h
  | asyncSendMsg | recvLoop | recvOk | recvFails =>
    simp only [step] at h
    split_ifs at h
    all_goals
      cases h
      exact hj
  | recvMsg =>
    simp only [step] at h
    split at h
    · cases h
      exact hj
    · cases h
  | watch =>
    simp only [step] at h
    split_ifs at h
    cases h
    simp
  | joinSend =>
    simp only [step] at h
    split_ifs at h with hw
    cases h
    exact fun _ => hw.2
  | joinRecv =>
    simp only [step] at h
    split_ifs at h with hw
    cases h
    exact fun _ => hj (.inl hw.1)
  | connect =>
    simp only [step] at h
    split_ifs at h
    cases h
    simp

lemma State.InOrder.step (ho : s.InOrder) (h : step s a = some s') : s'.InOrder := by
  refine ⟨joined_step ho.joined h, ?_⟩
  have hord := ho.order
  rcases step_cases (fun hw => ho.joined (.inr hw)) h with
    ⟨msg, hg, hq, hh, ha, -⟩ | ⟨msg, hg, hq, hh, hh', ha, -⟩ | ⟨msg, ok, hg, hq, hh, hh', ha, -⟩ |
    ⟨hg, hq, hh, ha, -⟩
  · rw [hg, hq, hh, ha, ← hord, List.append_assoc _ _ [msg]]
  · rw [hg, hh', ha, ← hord, hq, hh]
    simp
  · rw [hg, hq, hh', ha, ← hord, hh]
    simp
  · rw [hg, hq, hh, ha, hord]

lemma inOrder_init : ({} : State).InOrder where
  joined := by simp
  order := rfl

/-- In every run the messages written are among those given, in their order. -/
theorem written_sublist (hrun : run step {} actions = some s) : s.written.Sublist s.given := by
  have ho : s.InOrder := inv_of_run (fun _ _ _ ho h => ho.step h) inOrder_init hrun
  have htried : (s.attempts.map Prod.fst).Sublist s.given := by
    rw [← ho.order, List.append_assoc]
    exact List.sublist_append_left _ _
  exact (List.filter_sublist.map _).trans htried

/-- Writing only after successful writes is writing a prefix. -/
lemma prefix_map_filter {attempts : List (Str × Bool)}
    (h : attempts.Pairwise fun first second => second.2 = true → first.2 = true) :
    (attempts.filter Prod.snd).map Prod.fst <+: attempts.map Prod.fst := by
  induction attempts with
  | nil => exact List.prefix_rfl
  | cons attempt attempts ih =>
    obtain ⟨hfirst, hrest⟩ := List.pairwise_cons.mp h
    cases hok : attempt.2 with
    | true => simpa [hok] using ih hrest
    | false =>
      have hnone : attempts.filter Prod.snd = [] := by
        refine List.filter_eq_nil_iff.mpr fun later hl ht => ?_
        rw [hfirst later hl ht] at hok
        cases hok
      simp [hok, hnone]

/-- Of distinct messages a prefix is written only after successful writes. -/
lemma pairwise_of_prefix {attempts : List (Str × Bool)} (hnodup : (attempts.map Prod.fst).Nodup)
    (h : (attempts.filter Prod.snd).map Prod.fst <+: attempts.map Prod.fst) :
    attempts.Pairwise fun first second => second.2 = true → first.2 = true := by
  induction attempts with
  | nil => exact .nil
  | cons attempt attempts ih =>
    obtain ⟨hnew, hnodup⟩ := List.nodup_cons.mp hnodup
    cases hok : attempt.2 with
    | true =>
      rw [List.filter_cons_of_pos hok, List.map_cons, List.map_cons,
        List.cons_prefix_cons] at h
      exact .cons (fun _ _ _ => hok) (ih hnodup h.2)
    | false =>
      have hnone : ∀ later ∈ attempts, later.2 = false := by
        rw [List.filter_cons_of_neg (by simp [hok])] at h
        cases hw : attempts.filter Prod.snd with
        | nil => simpa using hw
        | cons later rest =>
          rw [hw, List.map_cons, List.map_cons, List.cons_prefix_cons] at h
          have hmem : later ∈ attempts := List.mem_of_mem_filter (hw ▸ List.mem_cons_self)
          exact absurd (h.1 ▸ List.mem_map_of_mem hmem) hnew
      refine .cons (fun later hl ht => ?_) (List.pairwise_of_forall_mem_list fun _ _ b hb ht => ?_)
      · rw [hnone later hl] at ht
        cases ht
      · rw [hnone b hb] at ht
        cases ht

lemma State.Lossless.prefix_written (hl : s.Lossless) : s.written <+: s.given := by
  rw [← hl.inOrder.order, List.append_assoc]
  exact (prefix_map_filter hl.noneSkipped).trans (List.prefix_append _ _)

lemma State.InOrder.lossless (ho : s.InOrder) (hnodup : s.given.Nodup)
    (hp : s.written <+: s.given) : s.Lossless := by
  have htried : s.attempts.map Prod.fst <+: s.given := by
    rw [← ho.order, List.append_assoc]
    exact List.prefix_append _ _
  have hlen : s.written.length ≤ (s.attempts.map Prod.fst).length :=
    (List.filter_sublist.map _).length_le
  exact ⟨ho, pairwise_of_prefix (hnodup.sublist htried.sublist)
    (List.prefix_of_prefix_length_le hp htried hlen)⟩

lemma noneSkipped_append {attempt : Str × Bool} (ha : s'.attempts = s.attempts ++ [attempt]) :
    s'.NoneSkipped ↔
      s.NoneSkipped ∧ (attempt.2 = true → ∀ earlier ∈ s.attempts, earlier.2 = true) := by
  simp only [State.NoneSkipped, ha, List.pairwise_append, List.pairwise_singleton,
    List.mem_singleton, forall_eq, true_and]
  exact and_congr_right fun _ => ⟨fun h ht b hb => h b hb ht, fun h b hb ht => h ht b hb⟩

lemma careful_of_ne (hw : a ≠ .writeOk) : Careful s a := by
  cases a <;> trivial

/-- A step leaves no message behind exactly when it is careful. -/
lemma State.Lossless.step_iff (hl : s.Lossless) (h : step s a = some s') :
    s'.Lossless ↔ Careful s a := by
  have ho := hl.inOrder.step h
  have hsame (ha : s'.attempts = s.attempts) (hw : a ≠ .writeOk) : s'.Lossless ↔ Careful s a :=
    ⟨fun _ => careful_of_ne hw,
      fun _ => ⟨ho, by simpa [State.NoneSkipped, ha] using hl.noneSkipped⟩⟩
  rcases step_cases (fun hw => hl.inOrder.joined (.inr hw)) h with
    ⟨msg, -, -, -, ha, hw⟩ | ⟨msg, -, -, -, -, ha, hw⟩ | ⟨msg, ok, -, -, -, -, ha, hok⟩ |
    ⟨-, -, -, ha, hw⟩
  · exact hsame ha hw
  · exact hsame ha hw
  · have hiff : s'.Lossless ↔ (ok = true → ∀ earlier ∈ s.attempts, earlier.2 = true) :=
      ⟨fun hl' => ((noneSkipped_append ha).mp hl'.noneSkipped).2,
        fun hn => ⟨ho, (noneSkipped_append ha).mpr ⟨hl.noneSkipped, hn⟩⟩⟩
    rw [hiff, hok]
    by_cases hw : a = .writeOk
    · subst hw
      exact forall_prop_of_true rfl
    · exact ⟨fun _ => careful_of_ne hw, fun _ h => absurd h hw⟩
  · exact hsame ha hw

lemma given_prefix_of_step (ho : s.InOrder) (h : step s a = some s') : s.given <+: s'.given := by
  rcases step_cases (fun hw => ho.joined (.inr hw)) h with
    ⟨msg, hg, -⟩ | ⟨msg, hg, -⟩ | ⟨msg, ok, hg, -⟩ | ⟨hg, -⟩
  · exact ⟨[msg], hg.symm⟩
  all_goals exact hg ▸ List.prefix_rfl

/-- The state is in order and has taken in at least the messages `given`. -/
structure State.Extends (given : List Str) (s : State) : Prop where
  inOrder : s.InOrder
  prefix_given : given <+: s.given

lemma given_prefix_of_run (ho : s.InOrder) (hrun : run step s actions = some s') :
    s.given <+: s'.given := by
  have hext : s'.Extends s.given :=
    inv_of_run (fun _ _ _ he h => ⟨he.inOrder.step h,
      he.prefix_given.trans (given_prefix_of_step he.inOrder h)⟩) ⟨ho, List.prefix_rfl⟩ hrun
  exact hext.prefix_given

/-- In a run in which no message is written after a failed write, what has been
written is a prefix of what was given at every moment; when the messages given
are distinct, only in such a run. -/
theorem written_prefix_of_given (hrun : run step {} actions = some s) :
    (AllSteps step Careful {} actions →
      ∀ before after s₁, actions = before ++ after → run step {} before = some s₁ →
        s₁.written <+: s₁.given) ∧
    (s.given.Nodup →
      ((∀ before after s₁, actions = before ++ after → run step {} before = some s₁ →
        s₁.written <+: s₁.given) ↔ AllSteps step Careful {} actions)) := by
  have hiff : AllSteps step Careful {} actions ↔ ∀ before after s₁, actions = before ++ after →
      run step {} before = some s₁ → s₁.Lossless :=
    allSteps_iff_forall_states (fun _ _ _ hl hc h => (hl.step_iff h).mpr hc)
      (fun _ _ _ hl hc h hl' => hc ((hl.step_iff h).mp hl')) ⟨inOrder_init, .nil⟩ hrun
  have hcareful (hall : AllSteps step Careful {} actions) (before after : List Action) (s₁ : State)
      (heq : actions = before ++ after) (h₁ : run step {} before = some s₁) :
      s₁.written <+: s₁.given :=
    (hiff.mp hall before after s₁ heq h₁).prefix_written
  refine ⟨hcareful, fun hnodup => ⟨fun hp => hiff.mpr ?_, hcareful⟩⟩
  intro before after s₁ heq h₁
  have ho : s₁.InOrder := inv_of_run (fun _ _ _ ho h => ho.step h) inOrder_init h₁
  rw [heq, run_append_eq_some] at hrun
  obtain ⟨s₂, h₂, hafter⟩ := hrun
  cases h₁.symm.trans h₂
  exact ho.lossless (hnodup.sublist (given_prefix_of_run ho hafter).sublist)
    (hp before after s₁ heq h₁)

/-- Two messages with the write of the first one failing, and a new connection. -/
def reconnects : List Action :=
  [.asyncSendMsg "a", .asyncSendMsg "b", .sendLoop, .sendDequeue, .writeFails, .recvLoop,
    .recvFails, .watch, .joinSend, .joinRecv, .connect]

theorem written_prefix_of_given_reconnects :
    ∃ s, run step {} reconnects = some s ∧
      (∀ before after s₁, reconnects = before ++ after → run step {} before = some s₁ →
        s₁.written <+: s₁.given) :=
  ⟨_, rfl, (written_prefix_of_given (show run step {} reconnects = some _ from rfl)).1
    (by simp [reconnects, AllSteps, Careful, step, queueDefaultMaxSize])⟩

/-- After the new connection the second message is written and the first one is not. -/
theorem message_lost :
    ∃ s, run step {} (reconnects ++ [.sendLoop, .sendDequeue, .writeOk]) = some s ∧
      s.given = ["a", "b"] ∧ s.written = [("b" : Str)] ∧ ¬ s.written <+: s.given :=
  ⟨_, rfl, rfl, rfl, by decide⟩

end JwtRevoker.MasterSession
