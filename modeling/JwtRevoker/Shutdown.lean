import JwtRevoker.MasterSession

/-!
# The end of `main`

After `Server::run` the destructors of `Scheduler`, `Engine` and `MasterSession`
clear the flags of the worker threads and join them, one after the other. A thread
tests its flag only between two calls on a queue, and the threads that feed a queue
are joined before the one that empties it.
-/
namespace JwtRevoker.Shutdown

open StepRuns
open ThreadSafeQueue (queueDefaultMaxSize)

inductive Thread
  | msgProc
  | keepalive
  | statusReport
  | rotate
  | log
  | watchDog
  | send
  | recv
  deriving DecidableEq

inductive Queue
  | recvQueue
  | logQueue
  | sendQueue
  deriving DecidableEq

/-- A message of the master by its event, a line for the log, a frame for the master. -/
inductive Entry
  | revokeJwt
  | adjustBloomFilter
  | other
  | line
  | frame
  deriving DecidableEq

/-- Where a thread is: at the test of its flag, in a call on a queue, or at work that
needs no queue; the places from `clearing` to `starting` are the reconnection of the
watchdog. -/
inductive Place
  | loop
  | working
  | handling (entry : Entry)
  | dequeuing (q : Queue)
  | enqueuing (q : Queue) (entry : Entry)
  | clearing (t : Thread)
  | joining (t : Thread)
  | connecting
  | setting (t : Thread)
  | starting (t : Thread)
  | ended
  deriving DecidableEq

/-- What the destructors do with a thread. -/
inductive Instr
  | clear (t : Thread)
  | join (t : Thread)
  deriving DecidableEq

def schedulerDestructor : List Instr :=
  [.clear .msgProc, .join .msgProc, .clear .keepalive, .join .keepalive, .clear .statusReport,
    .join .statusReport]

def engineDestructor : List Instr := [.clear .rotate, .join .rotate, .clear .log, .join .log]

def masterSessionDestructor : List Instr :=
  [.clear .watchDog, .clear .send, .clear .recv, .join .watchDog, .join .send, .join .recv]

def shutdown : List Instr := schedulerDestructor ++ engineDestructor ++ masterSessionDestructor

/-- `main` is what the main thread has still to do. -/
structure State where
  main : List Instr
  runFlag : Thread → Bool
  place : Thread → Place
  connErrFlag : Bool
  queue : Queue → List Entry

namespace State

def goto (s : State) (t : Thread) (p : Place) : State :=
  { s with place := Function.update s.place t p }

def setFlag (s : State) (t : Thread) (b : Bool) : State :=
  { s with runFlag := Function.update s.runFlag t b }

def put (s : State) (q : Queue) (entries : List Entry) : State :=
  { s with queue := Function.update s.queue q entries }

end State

/-- Where a thread goes when its flag is set. -/
def first : Thread → Place
  | .msgProc => .dequeuing .recvQueue
  | .keepalive => .enqueuing .sendQueue .frame
  | .log => .dequeuing .logQueue
  | .send => .dequeuing .sendQueue
  | .statusReport | .rotate | .watchDog | .recv => .working

/-- Where the work of a thread ends: a report, a reconnection, or the next round. -/
def worked (connErrFlag : Bool) : Thread → Place
  | .statusReport => .enqueuing .sendQueue .frame
  | .watchDog => if connErrFlag then .clearing .send else .loop
  | _ => .loop

def taken : Thread → Entry → Place
  | .msgProc, entry => .handling entry
  | _, _ => .working

/-- A revocation is logged, an adjustment acknowledged. -/
def handled : Entry → Place
  | .revokeJwt => .enqueuing .logQueue .line
  | .adjustBloomFilter => .enqueuing .sendQueue .frame
  | _ => .loop

/-- The keepalive thread sleeps after its message. -/
def sent : Thread → Place
  | .keepalive => .working
  | _ => .loop

/-- One step of a worker thread by itself. -/
def State.advance (s : State) (t : Thread) : Option State :=
  match s.place t with
  | .loop => some (s.goto t (if s.runFlag t then first t else .ended))
  | .working => if t = .recv then none else some (s.goto t (worked s.connErrFlag t))
  | .handling entry => some (s.goto t (handled entry))
  | .dequeuing q =>
      match s.queue q with
      | [] => none
      | entry :: rest => some ((s.put q rest).goto t (taken t entry))
  | .enqueuing q entry =>
      if (s.queue q).length < queueDefaultMaxSize then
        some ((s.put q (s.queue q ++ [entry])).goto t (sent t))
      else none
  | .clearing u =>
      some ((s.setFlag u false).goto t (if u = .send then .clearing .recv else .joining .send))
  | .joining u =>
      if s.place u = .ended then
        if u = .send then some (s.goto t (.joining .recv))
        else some { s.goto t .connecting with connErrFlag := false }
      else none
  | .connecting => some (s.goto t (.setting .send))
  | .setting u =>
      some ((s.setFlag u true).goto t (if u = .send then .setting .recv else .starting .send))
  | .starting u =>
      -- a new thread is assigned to a `std::thread` that has been joined
      if s.place u = .ended then
        some ((s.goto u .loop).goto t (if u = .send then .starting .recv else .loop))
      else none
  | .ended => none

/-- The main thread, a worker thread, or what the network does to a call of the send
or the receive thread. -/
inductive Action
  | main
  | advance (t : Thread)
  | writeFails
  | recvOk (entry : Entry)
  | recvFails
  deriving DecidableEq

def step (s : State) : Action → Option State
  | .main =>
      match s.main with
      | [] => none
      | .clear t :: rest => some { s.setFlag t false with main := rest }
      | .join t :: rest => if s.place t = .ended then some { s with main := rest } else none
  | .advance t => s.advance t
  | .writeFails =>
      if s.place .send = .working then some { s.goto .send .ended with connErrFlag := true }
      else none
  | .recvOk entry =>
      if s.place .recv = .working then some (s.goto .recv (.enqueuing .recvQueue entry)) else none
  | .recvFails =>
      if s.place .recv = .working then some { s.goto .recv .ended with connErrFlag := true }
      else none

def consumer : Queue → Thread
  | .recvQueue => .msgProc
  | .logQueue => .log
  | .sendQueue => .send

def producers : Queue → List Thread
  | .recvQueue => [.recv]
  | .logQueue => [.msgProc]
  | .sendQueue => [.msgProc, .keepalive, .statusReport]

/-- The watchdog starts these anew. -/
def Restarted (t : Thread) : Prop := t = .send ∨ t = .recv

instance (t : Thread) : Decidable (Restarted t) := inferInstanceAs (Decidable (_ ∨ _))

instance : Fintype Thread where
  elems := {.msgProc, .keepalive, .statusReport, .rotate, .log, .watchDog, .send, .recv}
  complete := fun t => by cases t <;> decide

instance : Fintype Queue where
  elems := {.recvQueue, .logQueue, .sendQueue}
  complete := fun q => by cases q <;> decide

instance : Fintype Entry where
  elems := {.revokeJwt, .adjustBloomFilter, .other, .line, .frame}
  complete := fun entry => by cases entry <;> decide

/-- The thread is in a call on the queue. -/
def State.CallsOn (s : State) (t : Thread) (q : Queue) : Prop :=
  s.place t = .dequeuing q ∨ ∃ entry, s.place t = .enqueuing q entry

/-- The thread is left for the queue: further steps bring it to a call on it. A thread that
has ended is left only if the watchdog can still start it anew, and a thread that waits for
ever is left for no other queue. -/
def State.Left (s : State) (t : Thread) (q : Queue) : Prop :=
  Leads step (fun s' => s'.CallsOn t q) s

/-- In `dequeue` on an empty queue, or in `enqueue` on a full one, with no thread left
on the other end. -/
def State.Blocked (s : State) (t : Thread) : Prop :=
  (∃ q, s.place t = .dequeuing q ∧ s.queue q = [] ∧ ∀ u ∈ producers q, ¬ s.Left u q) ∨
    ∃ q entry, s.place t = .enqueuing q entry ∧ queueDefaultMaxSize ≤ (s.queue q).length ∧
      ¬ s.Left (consumer q) q

/-- The main thread waits in `join` for the thread, by itself or for the watchdog. -/
def State.Awaits (s : State) (t : Thread) : Prop :=
  s.main.head? = some (.join t) ∨
    s.main.head? = some (.join .watchDog) ∧ s.place .watchDog = .joining t

instance (s : State) (t : Thread) : Decidable (s.Awaits t) := inferInstanceAs (Decidable (_ ∨ _))

def State.Stuck (s : State) : Prop := ∃ t, s.Awaits t ∧ s.Blocked t

/-- Where the code of a thread can be. -/
def possible (t : Thread) : Place → Prop
  | .loop | .working | .ended => True
  | .handling _ => t = .msgProc
  | .dequeuing q => t = consumer q
  | .enqueuing q _ => t ∈ producers q
  | .clearing u | .joining u | .setting u | .starting u => t = .watchDog ∧ Restarted u
  | .connecting => t = .watchDog

/-- The flag of the send or the receive thread, by where the watchdog is. -/
def flagAt : Thread → Place → Bool
  | .send, .clearing .recv | .send, .joining _ | .send, .connecting | .send, .setting .send => false
  | .recv, .joining _ | .recv, .connecting | .recv, .setting _ => false
  | _, _ => true

/-- Where the watchdog has joined the thread and not yet started it anew. -/
def joinedAt : Thread → Place → Bool
  | .send, .joining .recv | .send, .connecting | .send, .setting _ | .send, .starting .send => true
  | .recv, .connecting | .recv, .setting _ | .recv, .starting _ => true
  | _, _ => false

/-- The send or the receive thread has left its loop. -/
def State.Broken (s : State) : Prop := s.place .send = .ended ∨ s.place .recv = .ended

/-- What `connErrFlag` says, by where the watchdog is. -/
def State.reported (s : State) : Place → Prop
  | .loop | .working => s.connErrFlag = true ↔ s.Broken
  | .clearing _ | .joining _ => s.connErrFlag = true ∧ s.Broken
  | .starting .recv => s.connErrFlag = true ↔ s.place .send = .ended
  | _ => s.connErrFlag = false

/-- The flags and the ends of the two threads fit the place of the watchdog: one that has
ended is noticed, or is on its way to a new start. -/
structure State.Coherent (s : State) : Prop where
  flag : ∀ t, Restarted t → s.runFlag t = flagAt t (s.place .watchDog)
  joined : ∀ t, Restarted t → joinedAt t (s.place .watchDog) = true → s.place t = .ended
  reported : s.reported (s.place .watchDog)

/-- The main thread comes back from `Server::run`: only the two threads that the
watchdog starts anew can have ended. The queues hold anything. -/
structure State.Started (s : State) : Prop where
  main : s.main = shutdown
  fits : ∀ t, possible t (s.place t)
  running : ∀ t, ¬ Restarted t → s.place t ≠ .ended ∧ s.runFlag t = true
  coherent : s.Coherent

section

variable {s s' : State} {a : Action} {t u c : Thread} {p : Place} {q : Queue} {entry : Entry}

namespace State

@[simp] lemma goto_place (s : State) (t u : Thread) (p : Place) :
    (s.goto t p).place u = if u = t then p else s.place u := Function.update_apply ..

@[simp] lemma goto_queue (s : State) (t : Thread) (p : Place) : (s.goto t p).queue = s.queue := rfl

@[simp] lemma goto_runFlag (s : State) (t : Thread) (p : Place) :
    (s.goto t p).runFlag = s.runFlag := rfl

@[simp] lemma goto_main (s : State) (t : Thread) (p : Place) : (s.goto t p).main = s.main := rfl

@[simp] lemma goto_connErrFlag (s : State) (t : Thread) (p : Place) :
    (s.goto t p).connErrFlag = s.connErrFlag := rfl

@[simp] lemma setFlag_place (s : State) (t : Thread) (b : Bool) :
    (s.setFlag t b).place = s.place := rfl

@[simp] lemma setFlag_queue (s : State) (t : Thread) (b : Bool) :
    (s.setFlag t b).queue = s.queue := rfl

@[simp] lemma setFlag_runFlag (s : State) (t u : Thread) (b : Bool) :
    (s.setFlag t b).runFlag u = if u = t then b else s.runFlag u := Function.update_apply ..

@[simp] lemma setFlag_main (s : State) (t : Thread) (b : Bool) :
    (s.setFlag t b).main = s.main := rfl

@[simp] lemma setFlag_connErrFlag (s : State) (t : Thread) (b : Bool) :
    (s.setFlag t b).connErrFlag = s.connErrFlag := rfl

@[simp] lemma put_place (s : State) (q : Queue) (entries : List Entry) :
    (s.put q entries).place = s.place := rfl

@[simp] lemma put_queue (s : State) (q r : Queue) (entries : List Entry) :
    (s.put q entries).queue r = if r = q then entries else s.queue r := Function.update_apply ..

@[simp] lemma put_runFlag (s : State) (q : Queue) (entries : List Entry) :
    (s.put q entries).runFlag = s.runFlag := rfl

@[simp] lemma put_main (s : State) (q : Queue) (entries : List Entry) :
    (s.put q entries).main = s.main := rfl

@[simp] lemma put_connErrFlag (s : State) (q : Queue) (entries : List Entry) :
    (s.put q entries).connErrFlag = s.connErrFlag := rfl

end State

/-- The places the watchdog comes to while it reconnects. -/
def reconnects : Place → Prop
  | .clearing u | .joining u | .setting u | .starting u => Restarted u
  | .connecting | .loop => True
  | _ => False

/-- The steps of a worker thread by what they change. -/
inductive Move (s : State) (t : Thread) : State → Prop
  | test (hp : s.place t = .loop) : Move s t (s.goto t (if s.runFlag t then first t else .ended))
  | work (hp : s.place t = .working) (ht : t ≠ .recv) :
      Move s t (s.goto t (worked s.connErrFlag t))
  | handle (entry : Entry) (hp : s.place t = .handling entry) : Move s t (s.goto t (handled entry))
  | take (q : Queue) (entry : Entry) (rest : List Entry) (hp : s.place t = .dequeuing q)
      (hq : s.queue q = entry :: rest) : Move s t ((s.put q rest).goto t (taken t entry))
  | put (q : Queue) (entry : Entry) (hp : s.place t = .enqueuing q entry)
      (hroom : (s.queue q).length < queueDefaultMaxSize) :
      Move s t ((s.put q (s.queue q ++ [entry])).goto t (sent t))
  | flag (u : Thread) (b : Bool) (p : Place) (hp : s.place t = .clearing u ∨ s.place t = .setting u)
      (hnext : reconnects p) : Move s t ((s.setFlag u b).goto t p)
  | wait (b : Bool) (p : Place) (hp : (∃ u, s.place t = .joining u) ∨ s.place t = .connecting)
      (hnext : reconnects p) : Move s t { s.goto t p with connErrFlag := b }
  | start (u : Thread) (p : Place) (hp : s.place t = .starting u) (hended : s.place u = .ended)
      (hnext : reconnects p) :
      Move s t ((s.goto u .loop).goto t p)

lemma move_of_advance (h : s.advance t = some s') : Move s t s' := by
  have hite : ∀ (u : Thread) (p p' : Place), reconnects p → reconnects p' →
      reconnects (if u = .send then p else p') := by
    intro u p p' hp hp'
    split_ifs
    · exact hp
    · exact hp'
  unfold State.advance at h
  cases hp : s.place t with
  | loop =>
    simp only [hp, Option.some.injEq] at h
    exact h ▸ .test hp
  | working =>
    simp only [hp] at h
    split_ifs at h with ht
    exact Option.some.inj h ▸ .work hp ht
  | handling entry =>
    simp only [hp, Option.some.injEq] at h
    exact h ▸ .handle entry hp
  | dequeuing q =>
    simp only [hp] at h
    split at h
    · cases h
    · rename_i entry rest hq
      exact Option.some.inj h ▸ .take q entry rest hp hq
  | enqueuing q entry =>
    simp only [hp] at h
    split_ifs at h with hroom
    exact Option.some.inj h ▸ .put q entry hp hroom
  | clearing u =>
    simp only [hp, Option.some.injEq] at h
    exact h ▸ .flag u false _ (.inl hp) (hite u _ _ (.inr rfl) (.inl rfl))
  | joining u =>
    simp only [hp] at h
    split_ifs at h
    · exact Option.some.inj h ▸ .wait s.connErrFlag (.joining .recv) (.inl ⟨u, hp⟩) (.inr rfl)
    · exact Option.some.inj h ▸ .wait false .connecting (.inl ⟨u, hp⟩) trivial
  | connecting =>
    simp only [hp, Option.some.injEq] at h
    exact h ▸ .wait s.connErrFlag (.setting .send) (.inr hp) (.inl rfl)
  | setting u =>
    simp only [hp, Option.some.injEq] at h
    exact h ▸ .flag u true _ (.inr hp) (hite u _ _ (.inr rfl) (.inl rfl))
  | starting u =>
    simp only [hp] at h
    split_ifs at h with hended
    · exact Option.some.inj h ▸ .start u (.starting .recv) hp hended (.inr rfl)
    · exact Option.some.inj h ▸ .start u .loop hp hended trivial
  | ended =>
    simp only [hp] at h
    cases h

lemma possible_first (t : Thread) : possible t (first t) := by
  cases t <;> simp [possible, first, consumer, producers]

lemma possible_worked (b : Bool) (t : Thread) : possible t (worked b t) := by
  cases t <;> cases b <;> simp [possible, worked, producers, Restarted]

/-- Where a thread other than `msgProc` and the watchdog can be. -/
lemma places_of_possible (h : possible t p) (hm : t ≠ .msgProc) (hw : t ≠ .watchDog) :
    p = .loop ∨ p = .working ∨ p = .ended ∨ (∃ q, p = .dequeuing q ∧ t = consumer q) ∨
      ∃ q entry, p = .enqueuing q entry ∧ t ∈ producers q := by
  cases p with
  | loop => exact .inl rfl
  | working => exact .inr (.inl rfl)
  | ended => exact .inr (.inr (.inl rfl))
  | dequeuing q => exact .inr (.inr (.inr (.inl ⟨q, rfl, h⟩)))
  | enqueuing q entry => exact .inr (.inr (.inr (.inr ⟨q, entry, rfl, h⟩)))
  | handling entry => exact absurd h hm
  | clearing u | joining u | setting u | starting u => exact absurd h.1 hw
  | connecting => exact absurd h hw

lemma possible_of_reconnects (h : reconnects p) : possible .watchDog p := by
  cases p <;> simp_all [possible, reconnects]

lemma fits_goto (hf : ∀ u, possible u (s.place u)) (hp : possible t p) (u : Thread) :
    possible u ((s.goto t p).place u) := by
  rw [State.goto_place]
  split_ifs with h
  · exact h ▸ hp
  · exact hf u

namespace Move

variable (hm : Move s t s')
include hm

lemma main_eq : s'.main = s.main := by cases hm <;> rfl

lemma running : s.place t ≠ .ended := by
  intro hp
  cases hm <;> simp_all

/-- Where the code of the threads can be stays so. -/
lemma fits (hf : ∀ u, possible u (s.place u)) (u : Thread) : possible u (s'.place u) := by
  have ht := hf t
  cases hm with
  | test hp =>
    apply fits_goto hf
    split_ifs
    · exact possible_first t
    · trivial
  | work hp _ => exact fits_goto hf (possible_worked _ t) u
  | handle entry hp =>
    rw [hp] at ht
    cases ht
    apply fits_goto hf
    cases entry <;> simp [possible, handled, producers]
  | take q entry rest hp hq =>
    apply fits_goto hf
    cases t <;> simp [possible, taken]
  | put q entry hp hroom =>
    apply fits_goto hf
    cases t <;> simp [possible, sent]
  | flag v b p hp hnext =>
    have hw : t = .watchDog := by
      rcases hp with hp | hp
      · rw [hp] at ht
        exact ht.1
      · rw [hp] at ht
        exact ht.1
    subst hw
    exact fits_goto hf (possible_of_reconnects hnext) u
  | wait b p hp hnext =>
    have hw : t = .watchDog := by
      rcases hp with ⟨v, hp⟩ | hp
      · rw [hp] at ht
        exact ht.1
      · rw [hp] at ht
        exact ht
    subst hw
    exact fits_goto hf (possible_of_reconnects hnext) u
  | start v p hp hended hnext =>
    rw [hp] at ht
    obtain ⟨rfl, -⟩ := ht
    have hv : ∀ u, possible u ((s.goto v .loop).place u) := fits_goto hf trivial
    exact fits_goto hv (possible_of_reconnects hnext) u

/-- A thread comes to wait on a queue only from the test of its flag. -/
lemma dequeuing (hp : s'.place c = .dequeuing q) :
    c ≠ t ∧ s.place c = .dequeuing q ∨
      c = t ∧ s.place c = .loop ∧ s.runFlag c = true ∧ s'.queue = s.queue := by
  by_cases hc : c = t
  · refine .inr ⟨hc, ?_⟩
    subst hc
    cases hm with
    | test ht =>
      simp only [State.goto_place, if_true] at hp
      split_ifs at hp with hflag
      exact ⟨ht, hflag, rfl⟩
    | work ht _ => cases c <;> cases hb : s.connErrFlag <;> simp [worked, hb] at hp
    | handle entry ht => cases entry <;> simp [handled] at hp
    | take r entry rest ht hr => cases c <;> simp [taken] at hp
    | put r entry ht hroom => cases c <;> simp [sent] at hp
    | flag v b p ht hnext | wait b p ht hnext | start v p ht hended hnext =>
      simp at hp
      simp [hp, reconnects] at hnext
  · refine .inl ⟨hc, ?_⟩
    cases hm <;> simp_all
    split_ifs at hp
    exact hp

/-- A queue runs empty only when a thread that waits on it takes from it. -/
lemma queue_nil (hq : s'.queue q = []) : s.queue q = [] ∨ s.place t = .dequeuing q := by
  cases hm with
  | take r entry rest ht hr =>
    simp only [State.goto_queue, State.put_queue] at hq
    split_ifs at hq with h
    · exact .inr (h ▸ ht)
    · exact .inl hq
  | put r entry ht hroom =>
    simp only [State.goto_queue, State.put_queue] at hq
    split_ifs at hq with h
    · simp at hq
    · exact .inl hq
  | _ => exact .inl hq

/-- `msgProc` comes to `enqueue` on `sendQueue` only with an acknowledgement. -/
lemma acknowledging (hp : s'.place .msgProc = .enqueuing .sendQueue entry) :
    t ≠ .msgProc ∧ s.place .msgProc = .enqueuing .sendQueue entry ∨
      t = .msgProc ∧ s.place .msgProc = .handling .adjustBloomFilter ∧ s'.queue = s.queue := by
  by_cases hc : t = .msgProc
  · refine .inr ⟨hc, ?_⟩
    subst hc
    cases hm with
    | test ht => simp [first] at hp; split_ifs at hp
    | work ht _ => simp [worked] at hp
    | handle message ht => cases message <;> simp_all [handled]
    | take r entry rest ht hr => simp [taken] at hp
    | put r entry ht hroom => simp [sent] at hp
    | flag v b p ht hnext | wait b p ht hnext | start v p ht hended hnext =>
      simp at hp
      simp [hp, reconnects] at hnext
  · refine .inl ⟨hc, ?_⟩
    have hc' := Ne.symm hc
    cases hm <;> simp_all
    split_ifs at hp
    exact hp

/-- A thread ends only at the test of its flag. -/
lemma ended (hp : s'.place c = .ended) :
    s.place c = .ended ∨ c = t ∧ s.place c = .loop ∧ s.runFlag c = false := by
  by_cases hc : c = t
  · refine .inr ⟨hc, ?_⟩
    subst hc
    cases hm with
    | test ht =>
      simp only [State.goto_place, if_true] at hp
      split_ifs at hp with hflag
      · cases c <;> simp [first] at hp
      · exact ⟨ht, Bool.eq_false_iff.mpr hflag⟩
    | work ht _ => cases c <;> cases hb : s.connErrFlag <;> simp [worked, hb] at hp
    | handle entry ht => cases entry <;> simp [handled] at hp
    | take r entry rest ht hr => cases c <;> simp [taken] at hp
    | put r entry ht hroom => cases c <;> simp [sent] at hp
    | flag v b p ht hnext | wait b p ht hnext | start v p ht hended hnext =>
      simp at hp
      simp [hp, reconnects] at hnext
  · refine .inl ?_
    cases hm <;> simp_all
    split_ifs at hp
    exact hp

lemma place_eq (hne : c ≠ t) (hc : s.place c ≠ .ended) : s'.place c = s.place c := by
  cases hm with
  | start v p hp hended hnext =>
    have hcv : c ≠ v := by
      rintro rfl
      exact hc hended
    simp [hne, hcv]
  | _ => simp [hne]

variable (hf : ∀ u, possible u (s.place u))
include hf

/-- Only the watchdog starts a thread, and only the two. -/
lemma stays_ended (hp : s.place c = .ended)
    (hc : Restarted c → s.place .watchDog ≠ .starting c) : s'.place c = .ended := by
  have ht := hf t
  have hne : c ≠ t := by
    rintro rfl
    cases hm <;> simp_all
  cases hm with
  | start v p hstart hended hnext =>
    rw [hstart] at ht
    obtain ⟨rfl, hv⟩ := ht
    have hcv : c ≠ v := by
      rintro rfl
      exact hc hv hstart
    simp [hne, hcv, hp]
  | _ => simp [hne, hp]

lemma runFlag_eq (hc : ¬ Restarted c) : s'.runFlag c = s.runFlag c := by
  have ht := hf t
  cases hm with
  | flag v b p hp hnext =>
    have hcv : c ≠ v := by
      rintro rfl
      rcases hp with hp | hp
      · rw [hp] at ht
        exact hc ht.2
      · rw [hp] at ht
        exact hc ht.2
    simp [hcv]
  | _ => rfl

/-- By a step of its own the receive thread does not come to `enqueue`. -/
lemma recv_enqueuing (hp : s'.place .recv = .enqueuing q entry) :
    t ≠ .recv ∧ s.place .recv = .enqueuing q entry := by
  have ht := hf t
  by_cases hc : t = .recv
  · subst hc
    cases hm with
    | test ht' => simp [first] at hp; split_ifs at hp
    | work ht' hne => exact absurd rfl hne
    | handle entry ht' =>
      rw [ht'] at ht
      cases ht
    | take r entry rest ht' hr => simp [taken] at hp
    | put r entry ht' hroom => simp [sent] at hp
    | flag v b p ht' hnext | wait b p ht' hnext | start v p ht' hended hnext =>
      simp at hp
      simp [hp, reconnects] at hnext
  · refine ⟨hc, ?_⟩
    have hc' := Ne.symm hc
    cases hm <;> simp_all
    split_ifs at hp
    exact hp

/-- Only one of its producers makes a queue longer, and by one entry. -/
lemma length_cases : (s'.queue q).length ≤ (s.queue q).length ∨
    t ∈ producers q ∧ (∃ entry, s.place t = .enqueuing q entry) ∧
      (s'.queue q).length = (s.queue q).length + 1 := by
  have hft := hf t
  cases hm with
  | take r entry rest ht hr =>
    refine .inl ?_
    simp only [State.goto_queue, State.put_queue]
    split_ifs with h
    · rw [h, hr]
      simp
    · exact le_refl _
  | put r entry hp hroom =>
    rw [hp] at hft
    by_cases hr : q = r
    · subst hr
      exact .inr ⟨hft, ⟨entry, hp⟩, by simp⟩
    · exact .inl (by simp [hr])
  | _ => exact .inl (le_refl _)

lemma stays_nil (hq : s.queue q = []) (hp : ∀ u ∈ producers q, s.place u = .ended) :
    s'.queue q = [] := by
  have ht := hf t
  cases hm with
  | take r entry rest htake hr =>
    have hqr : q ≠ r := by
      rintro rfl
      rw [hq] at hr
      cases hr
    simp [hqr, hq]
  | put r entry hput hroom =>
    have hqr : q ≠ r := by
      rintro rfl
      rw [hput] at ht
      have := hp t ht
      rw [hput] at this
      cases this
    simp [hqr, hq]
  | _ => exact hq

/-- A queue from which its consumer does not take does not get shorter. -/
lemma length_le (hc : s.place (consumer q) ≠ .dequeuing q) :
    (s.queue q).length ≤ (s'.queue q).length := by
  have ht := hf t
  cases hm with
  | take r entry rest htake hr =>
    have hqr : q ≠ r := by
      rintro rfl
      rw [htake] at ht
      rw [← show t = consumer q from ht, htake] at hc
      exact hc rfl
    simp [hqr]
  | put r entry hput hroom =>
    simp only [State.goto_queue, State.put_queue]
    split_ifs with hqr
    · simp [hqr]
    · exact le_refl _
  | _ => exact le_refl _

/-- A thread other than the watchdog moves only itself. -/
lemma frame (ht : t ≠ .watchDog) :
    s'.connErrFlag = s.connErrFlag ∧ s'.runFlag = s.runFlag ∧
      ∀ c, c ≠ t → s'.place c = s.place c := by
  have hft := hf t
  cases hm with
  | flag v b p hp hnext =>
    rcases hp with hp | hp
    · rw [hp] at hft
      exact absurd hft.1 ht
    · rw [hp] at hft
      exact absurd hft.1 ht
  | wait b p hp hnext =>
    rcases hp with ⟨v, hp⟩ | hp
    · rw [hp] at hft
      exact absurd hft.1 ht
    · rw [hp] at hft
      exact absurd hft ht
  | start v p hp hended hnext =>
    rw [hp] at hft
    exact absurd hft.1 ht
  | _ => exact ⟨rfl, rfl, fun c hc => by simp [hc]⟩

end Move

end

end JwtRevoker.Shutdown
