import JwtRevoker.StepRuns

/-!
# The queue between coroutines

`CoroutineSafeQueue` with one consumer on a single-threaded `io_context`. A
consumer that finds the queue empty waits for a timer whose expiry was never
set, so the wait may complete at any time; `enqueue` cancels and destroys the
first timer, and a wait cancelled before it completed ends in an exception.
-/
namespace JwtRevoker.CoroutineSafeQueue

open StepRuns

/-- How far an `async_wait` is: not completed, completed because the timer has
expired, completed with `operation_aborted`. -/
inductive Wait
  | pending
  | expired
  | aborted
  deriving DecidableEq, Repr

/-- Where the coroutine is that calls `dequeue` in a loop; `failed` when an
exception has left `dequeue`. -/
inductive Consumer
  | running
  | suspended (timer : ℕ) (wait : Wait)
  | failed
  deriving DecidableEq, Repr

/-- Cancelling a timer completes a wait for it that is still pending. -/
def Consumer.cancel (timer : ℕ) : Consumer → Consumer
  | .suspended t .pending => .suspended t (if t = timer then .aborted else .pending)
  | c => c

/-- The members of the queue, with timers numbered as they are made, and its consumer. -/
structure Queue (α : Type*) where
  queue : List α := []
  waiters : List ℕ := []
  timers : ℕ := 0
  consumer : Consumer := .running
  deriving DecidableEq, Repr

namespace Queue

variable {α : Type*}

def enqueue (q : Queue α) (value : α) : Queue α :=
  match q.waiters with
  | [] => { q with queue := q.queue ++ [value] }
  | timer :: waiters =>
      { q with
        queue := q.queue ++ [value]
        waiters := waiters
        consumer := q.consumer.cancel timer }

/-- One turn of the loop of `dequeue`: it returns a value or suspends the consumer. -/
def dequeue (q : Queue α) : Option (Option α × Queue α) :=
  match q.consumer, q.queue with
  | .running, value :: rest => some (some value, { q with queue := rest })
  | .running, [] =>
      some (none, { q with
        waiters := q.waiters ++ [q.timers]
        timers := q.timers + 1
        consumer := .suspended q.timers .pending })
  | _, _ => none

/-- The timer the consumer waits for completes. -/
def expire (q : Queue α) : Option (Queue α) :=
  match q.consumer with
  | .suspended timer .pending => some { q with consumer := .suspended timer .expired }
  | _ => none

/-- The consumer goes on after its wait has completed. -/
def resume (q : Queue α) : Option (Queue α) :=
  match q.consumer with
  | .suspended _ .expired => some { q with consumer := .running }
  | .suspended _ .aborted => some { q with consumer := .failed }
  | _ => none

/-- The number of consumers suspended in `dequeue`. -/
def suspended (q : Queue α) : ℕ :=
  match q.consumer with
  | .suspended _ _ => 1
  | _ => 0

end Queue

/-- `enqueued` and `returned` record the values of the calls. -/
structure State (α : Type*) where
  q : Queue α := {}
  enqueued : List α := []
  returned : List α := []
  deriving DecidableEq, Repr

inductive Action (α : Type*)
  | enqueue (value : α)
  | dequeue
  | expire
  | resume
  deriving DecidableEq, Repr

variable {α : Type*}

def step (s : State α) : Action α → Option (State α)
  | .enqueue value =>
      some { s with q := s.q.enqueue value, enqueued := s.enqueued ++ [value] }
  | .dequeue => s.q.dequeue.map fun r => { s with q := r.2, returned := s.returned ++ r.1.toList }
  | .expire => s.q.expire.map fun q => { s with q := q }
  | .resume => s.q.resume.map fun q => { s with q := q }

/-- The values returned are the first of those enqueued and the others are in the queue. -/
def State.InOrder (s : State α) : Prop := s.returned ++ s.q.queue = s.enqueued

/-- What is asked of a state: the values are in order, no exception has left
`dequeue`, and there are no more timers than suspended consumers. -/
structure State.Delivers (s : State α) : Prop where
  inOrder : s.InOrder
  not_failed : s.q.consumer ≠ .failed
  waiters_le : s.q.waiters.length ≤ s.q.suspended

/-- A wait must end because its timer has expired, and after an `enqueue` has
taken the timer away. -/
def Careful (s : State α) : Action α → Prop
  | .resume => (∃ timer, s.q.consumer = .suspended timer .expired) ∧ s.q.waiters = []
  | _ => True

variable {s s' : State α} {a : Action α}

lemma enqueue_queue (q : Queue α) (value : α) : (q.enqueue value).queue = q.queue ++ [value] := by
  unfold Queue.enqueue
  split <;> rfl

lemma enqueue_waiters (q : Queue α) (value : α) : (q.enqueue value).waiters = q.waiters.tail := by
  unfold Queue.enqueue
  split <;> simp [*]

lemma cancel_cases (timer : ℕ) (c : Consumer) :
    c.cancel timer = c ∨
      ∃ t, c = .suspended t .pending ∧ c.cancel timer = .suspended t .aborted := by
  unfold Consumer.cancel
  split
  · rename_i t
    split_ifs
    · exact .inr ⟨t, rfl, rfl⟩
    · exact .inl rfl
  · exact .inl rfl

/-- An `enqueue` leaves the consumer where it is, at most with its wait aborted. -/
lemma enqueue_consumer (q : Queue α) (value : α) :
    (q.enqueue value).suspended = q.suspended ∧
      ((q.enqueue value).consumer = .failed ↔ q.consumer = .failed) := by
  unfold Queue.enqueue
  split
  · exact ⟨rfl, Iff.rfl⟩
  · rename_i timer waiters hw
    rcases cancel_cases timer q.consumer with h | ⟨t, ht, h⟩
    · simp [Queue.suspended, h]
    · dsimp only [Queue.suspended]
      rw [h, ht]
      simp

lemma State.InOrder.step (ho : s.InOrder) (h : step s a = some s') : s'.InOrder := by
  unfold InOrder at ho ⊢
  cases a with
  | enqueue value =>
    cases h
    simp only [enqueue_queue, ← List.append_assoc, ho]
  | dequeue =>
    obtain ⟨r, hr, rfl⟩ := Option.map_eq_some_iff.mp h
    unfold Queue.dequeue at hr
    split at hr
    · rename_i value rest _ hq
      cases hr
      rw [hq] at ho
      simpa using ho
    · rename_i hq
      cases hr
      simpa using ho
    · cases hr
  | expire =>
    obtain ⟨q, hq, rfl⟩ := Option.map_eq_some_iff.mp h
    unfold Queue.expire at hq
    split at hq
    · cases hq
      exact ho
    · cases hq
  | resume =>
    obtain ⟨q, hq, rfl⟩ := Option.map_eq_some_iff.mp h
    unfold Queue.resume at hq
    split at hq
    · cases hq
      exact ho
    · cases hq
      exact ho
    · cases hq

lemma delivers_init : ({} : State α).Delivers where
  inOrder := rfl
  not_failed := fun h => Consumer.noConfusion h
  waiters_le := le_rfl

/-- In every run the values come out as they went in. -/
theorem inOrder_of_run {actions : List (Action α)}
    (hrun : run step {} actions = some s) : s.InOrder :=
  inv_of_run (fun _ _ _ ho h => ho.step h) delivers_init.inOrder hrun

/-- A careful step keeps what is asked. -/
lemma State.Delivers.step (hd : s.Delivers) (hc : Careful s a) (h : step s a = some s') :
    s'.Delivers := by
  have ho := hd.inOrder.step h
  cases a with
  | enqueue value =>
    cases h
    obtain ⟨hs, hf⟩ := enqueue_consumer s.q value
    refine ⟨ho, fun hn => hd.not_failed (hf.mp hn), ?_⟩
    have hle := hd.waiters_le
    dsimp only
    rw [enqueue_waiters, hs, List.length_tail]
    omega
  | dequeue =>
    obtain ⟨r, hr, rfl⟩ := Option.map_eq_some_iff.mp h
    have hle := hd.waiters_le
    unfold Queue.dequeue at hr
    split at hr
    · cases hr
      exact ⟨ho, hd.not_failed, hle⟩
    · rename_i hc' _
      cases hr
      have h0 : s.q.suspended = 0 := by rw [Queue.suspended, hc']
      refine ⟨ho, fun hn => Consumer.noConfusion hn, ?_⟩
      dsimp only [Queue.suspended]
      rw [List.length_append, List.length_singleton]
      omega
    · cases hr
  | expire =>
    obtain ⟨q, hq, rfl⟩ := Option.map_eq_some_iff.mp h
    have hle := hd.waiters_le
    unfold Queue.expire at hq
    split at hq
    · rename_i timer hc'
      cases hq
      rw [Queue.suspended, hc'] at hle
      exact ⟨ho, fun hn => Consumer.noConfusion hn, hle⟩
    · cases hq
  | resume =>
    obtain ⟨q, hq, rfl⟩ := Option.map_eq_some_iff.mp h
    obtain ⟨⟨timer, hexp⟩, hw⟩ := hc
    rw [Queue.resume, hexp] at hq
    cases hq
    exact ⟨ho, fun hn => Consumer.noConfusion hn, by dsimp only; rw [hw]; exact Nat.zero_le _⟩

/-- A wait that ends otherwise ends in an exception or leaves its timer behind. -/
lemma not_delivers_of_step (hc : ¬ Careful s a) (h : step s a = some s') : ¬ s'.Delivers := by
  intro hd
  cases a with
  | resume =>
    obtain ⟨q, hq, rfl⟩ := Option.map_eq_some_iff.mp h
    unfold Queue.resume at hq
    split at hq
    · rename_i timer hexp
      cases hq
      have hle := hd.waiters_le
      exact hc ⟨⟨timer, hexp⟩, List.length_eq_zero_iff.mp (Nat.le_zero.mp hle)⟩
    · cases hq
      exact hd.not_failed rfl
    · cases hq
  | enqueue => exact hc trivial
  | dequeue => exact hc trivial
  | expire => exact hc trivial

/-- The queue delivers in every state of a run exactly when every wait of the run
ends with its timer expired and already taken away by an `enqueue`. -/
theorem delivers_iff {actions : List (Action α)} (hrun : run step {} actions = some s) :
    (∀ before after s₁, actions = before ++ after → run step {} before = some s₁ → s₁.Delivers) ↔
      AllSteps step Careful {} actions :=
  (allSteps_iff_forall_states (fun _ _ _ hd hc h => hd.step hc h)
    (fun _ _ _ _ hc h => not_delivers_of_step hc h) delivers_init hrun).symm

theorem delivers_iff_value_waits :
    ∃ s, run step ({} : State ℕ) [.enqueue 5, .dequeue, .dequeue, .expire, .enqueue 7, .resume,
        .dequeue] = some s ∧
      ((∀ before after s₁, [.enqueue 5, .dequeue, .dequeue, .expire, .enqueue 7, .resume,
          .dequeue] = before ++ after → run step {} before = some s₁ → s₁.Delivers) ↔
        AllSteps step Careful {} [.enqueue 5, .dequeue, .dequeue, .expire, .enqueue 7, .resume,
          .dequeue]) :=
  ⟨_, rfl, delivers_iff (show run step ({} : State ℕ) [.enqueue 5, .dequeue, .dequeue, .expire,
    .enqueue 7, .resume, .dequeue] = some _ from rfl)⟩

/-- The first value wakes the consumer with an exception; without a value the
consumer wakes up and makes a second timer. -/
theorem wait_ends_in_exception :
    (∃ s, run step ({} : State ℕ) [.dequeue, .enqueue 7, .resume] = some s ∧
      s.q.consumer = .failed ∧ s.returned = [] ∧ s.enqueued = [7]) ∧
    ∃ s, run step ({} : State ℕ) [.dequeue, .expire, .resume, .dequeue] = some s ∧
      s.q.waiters.length = 2 ∧ s.q.suspended = 1 :=
  ⟨⟨_, rfl, rfl, rfl, rfl⟩, ⟨_, rfl, rfl, rfl⟩⟩

end JwtRevoker.CoroutineSafeQueue
