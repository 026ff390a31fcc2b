import JwtRevoker.StepRuns

/-!
# The bounded queue between threads

`enqueue` and `dequeue` as monitor steps: a thread that has the mutex either
finishes its call and notifies one sleeper, or goes to sleep on the condition
variable the producers share with the consumer. Which sleeper a notification
wakes is up to the run, and so are spurious wake-ups. The invariant counts the
sleeping producers against the elements and the room against the awake ones.
-/
namespace JwtRevoker.ThreadSafeQueue

open StepRuns

/-- `QUEUE_DEFAULT_MAXSIZE`, the bound of the queues of the engine and of the session. -/
def queueDefaultMaxSize : ℕ := 4096

/-- Where a producer is with its calls of `enqueue`. -/
inductive Producer (α : Type*)
  | outside
  | awake (value : α)
  | asleep (value : α)
  deriving DecidableEq

namespace Producer

variable {α : Type*}

def isAwake : Producer α → Bool
  | .awake _ => true
  | _ => false

def isAsleep : Producer α → Bool
  | .asleep _ => true
  | _ => false

end Producer

/-- Where the consumer is with its calls of `dequeue`. -/
inductive Consumer
  | outside
  | awake
  | asleep
  deriving DecidableEq

inductive Thread (ι : Type*)
  | producer (i : ι)
  | consumer

/-- `enqueued` and `dequeued` record the values of the finished calls. -/
structure State (ι α : Type*) where
  queue : List α := []
  producers : ι → Producer α := fun _ => .outside
  consumer : Consumer := .outside
  enqueued : List α := []
  dequeued : List α := []

/-- The steps of the threads. `notified` is the sleeper that the notification of
a finished call wakes; a call that goes to sleep notifies no one. -/
inductive Action (ι α : Type*)
  | callEnqueue (i : ι) (value : α)
  | enqueue (i : ι) (notified : Option (Thread ι))
  | callDequeue
  | dequeue (notified : Option (Thread ι))
  | wakeSpuriously (thread : Thread ι)

variable {ι α : Type*} [Fintype ι] [DecidableEq ι]

/-- A sleeper goes on to wait for the mutex. -/
def wake (s : State ι α) : Thread ι → Option (State ι α)
  | .producer i =>
      match s.producers i with
      | .asleep value => some { s with producers := Function.update s.producers i (.awake value) }
      | _ => none
  | .consumer =>
      match s.consumer with
      | .asleep => some { s with consumer := .awake }
      | _ => none

/-- `notify_one` does nothing only when no thread sleeps. -/
def notifyOne (s : State ι α) : Option (Thread ι) → Option (State ι α)
  | some thread => wake s thread
  | none =>
      if (∀ i, (s.producers i).isAsleep = false) ∧ s.consumer ≠ .asleep then some s else none

def step (maxSize : ℕ) (s : State ι α) : Action ι α → Option (State ι α)
  | .callEnqueue i value =>
      match s.producers i with
      | .outside => some { s with producers := Function.update s.producers i (.awake value) }
      | _ => none
  | .enqueue i notified =>
      match s.producers i with
      | .awake value =>
          if s.queue.length < maxSize then
            notifyOne { s with
              queue := s.queue ++ [value]
              producers := Function.update s.producers i .outside
              enqueued := s.enqueued ++ [value] } notified
          else some { s with producers := Function.update s.producers i (.asleep value) }
      | _ => none
  | .callDequeue =>
      match s.consumer with
      | .outside => some { s with consumer := .awake }
      | _ => none
  | .dequeue notified =>
      match s.consumer, s.queue with
      | .awake, value :: rest =>
          notifyOne { s with
            queue := rest
            consumer := .outside
            dequeued := s.dequeued ++ [value] } notified
      | .awake, [] => some { s with consumer := .asleep }
      | _, _ => none
  | .wakeSpuriously thread => wake s thread

def count (p : Producer α → Bool) (producers : ι → Producer α) : ℕ :=
  (Finset.univ.filter fun i => p (producers i) = true).card

lemma count_update (p : Producer α → Bool) {producers : ι → Producer α} {i : ι}
    {x : Producer α} (hi : producers i = x) (y : Producer α) :
    count p (Function.update producers i y) + (if p x then 1 else 0) =
      count p producers + if p y then 1 else 0 := by
  have hrest : ∑ j ∈ {i}ᶜ, (if p (Function.update producers i y j) = true then 1 else 0) =
      ∑ j ∈ {i}ᶜ, if p (producers j) = true then 1 else 0 := by
    refine Finset.sum_congr rfl fun j hj => ?_
    rw [Function.update_of_ne (by simpa using hj)]
  simp only [count, Finset.card_filter, Fintype.sum_eq_add_sum_compl i, hrest,
    Function.update_self, hi]
  omega

omit [DecidableEq ι] in
lemma count_le (p : Producer α → Bool) (producers : ι → Producer α) :
    count p producers ≤ Fintype.card ι := Finset.card_le_univ _

omit [DecidableEq ι] in
lemma count_pos_iff {p : Producer α → Bool} {producers : ι → Producer α} :
    0 < count p producers ↔ ∃ i, p (producers i) = true := by
  simp [count, Finset.card_pos, Finset.Nonempty]

/-- The invariant: sleeping producers are outnumbered by the elements, and while
one sleeps the room is outnumbered by the awake ones. -/
structure Inv (maxSize : ℕ) (s : State ι α) : Prop where
  sleepers_le : count Producer.isAsleep s.producers ≤ s.queue.length
  room_le : 0 < count Producer.isAsleep s.producers →
    maxSize ≤ s.queue.length + count Producer.isAwake s.producers
  consumer_asleep : s.consumer = .asleep → s.queue = []
  length_le : s.queue.length ≤ maxSize
  order : s.dequeued ++ s.queue = s.enqueued

variable {maxSize : ℕ} {s s' : State ι α} {a : Action ι α} {thread : Thread ι}
  {notified : Option (Thread ι)}

/-- What a wake-up does: one producer less asleep and one more awake, or the
consumer awake. -/
lemma wake_cases (h : wake s thread = some s') :
    (∃ producers, s' = { s with producers := producers } ∧
      count Producer.isAsleep producers + 1 = count Producer.isAsleep s.producers ∧
      count Producer.isAwake producers = count Producer.isAwake s.producers + 1) ∨
    (s.consumer = .asleep ∧ s' = { s with consumer := .awake }) := by
  cases thread with
  | producer i =>
    simp only [wake] at h
    split at h
    · rename_i value hi
      cases h
      exact .inl ⟨_, rfl, count_update Producer.isAsleep hi (.awake value),
        count_update Producer.isAwake hi (.awake value)⟩
    · cases h
  | consumer =>
    simp only [wake] at h
    split at h
    · cases h
      exact .inr ⟨‹_›, rfl⟩
    · cases h

lemma notifyOne_cases (h : notifyOne s notified = some s') :
    (count Producer.isAsleep s.producers = 0 ∧ s.consumer ≠ .asleep ∧ s' = s) ∨
    (∃ producers, s' = { s with producers := producers } ∧
      count Producer.isAsleep producers + 1 = count Producer.isAsleep s.producers ∧
      count Producer.isAwake producers = count Producer.isAwake s.producers + 1) ∨
    (s.consumer = .asleep ∧ s' = { s with consumer := .awake }) := by
  cases notified with
  | some thread => exact .inr (wake_cases h)
  | none =>
    simp only [notifyOne] at h
    split_ifs at h with hn
    cases h
    refine .inl ⟨?_, hn.2, rfl⟩
    by_contra hpos
    obtain ⟨i, hi⟩ := count_pos_iff.mp (Nat.pos_of_ne_zero hpos)
    rw [hn.1 i] at hi
    cases hi

/-- The state between a finished call and its notification, in numbers: it needs
one notified sleeper to satisfy the invariant. -/
lemma inv_of_notifyOne (h : notifyOne s notified = some s')
    (hs : count Producer.isAsleep s.producers ≤ s.queue.length + 1)
    (hr : 0 < count Producer.isAsleep s.producers →
      maxSize ≤ s.queue.length + count Producer.isAwake s.producers + 1)
    (hc : s.consumer = .asleep → count Producer.isAsleep s.producers = 0)
    (hl : s.queue.length ≤ maxSize) (ho : s.dequeued ++ s.queue = s.enqueued) :
    Inv maxSize s' := by
  rcases notifyOne_cases h with ⟨h0, hn, rfl⟩ | ⟨producers, rfl, hd, hi⟩ | ⟨ha, rfl⟩
  · exact ⟨by omega, fun hpos => by omega, fun ha => absurd ha hn, hl, ho⟩
  · refine ⟨by dsimp only; omega, ?_, ?_, hl, ho⟩
    · intro hpos
      have := hr (by omega)
      dsimp only
      omega
    · intro ha
      have := hc ha
      omega
  · have h0 := hc ha
    exact ⟨by dsimp only; omega, fun hpos => by dsimp only at hpos; omega,
      fun hn => Consumer.noConfusion hn, hl, ho⟩

/-- A wake-up that comes from no notification. -/
lemma Inv.wake (h : Inv maxSize s) (hw : wake s thread = some s') : Inv maxSize s' := by
  rcases wake_cases hw with ⟨producers, rfl, hd, hi⟩ | ⟨ha, rfl⟩
  · refine ⟨?_, ?_, h.consumer_asleep, h.length_le, h.order⟩
    · have := h.sleepers_le
      dsimp only
      omega
    · intro hpos
      have := h.room_le (by omega)
      dsimp only
      omega
  · exact ⟨h.sleepers_le, h.room_le, fun hn => Consumer.noConfusion hn, h.length_le, h.order⟩

omit [DecidableEq ι] in
lemma Inv.consumer_asleep_sleepers (h : Inv maxSize s) (hc : s.consumer = .asleep) :
    count Producer.isAsleep s.producers = 0 := by
  have hs := h.sleepers_le
  rw [h.consumer_asleep hc] at hs
  exact Nat.le_zero.mp hs

lemma Inv.callEnqueue (h : Inv maxSize s) {i : ι} (hi : s.producers i = .outside) (value : α) :
    Inv maxSize { s with producers := Function.update s.producers i (.awake value) } := by
  have hs : count Producer.isAsleep (Function.update s.producers i (.awake value)) =
      count Producer.isAsleep s.producers := count_update Producer.isAsleep hi _
  have hw : count Producer.isAwake (Function.update s.producers i (.awake value)) =
      count Producer.isAwake s.producers + 1 := count_update Producer.isAwake hi _
  refine ⟨hs.le.trans h.sleepers_le, ?_, h.consumer_asleep, h.length_le, h.order⟩
  intro hpos
  have := h.room_le (hs ▸ hpos)
  dsimp only
  omega

/-- A full queue has at least as many elements as there are producers. -/
lemma Inv.sleep (hP : Fintype.card ι ≤ maxSize) (h : Inv maxSize s)
    (hfull : maxSize ≤ s.queue.length) (i : ι) (value : α) :
    Inv maxSize { s with producers := Function.update s.producers i (.asleep value) } := by
  have hle := count_le Producer.isAsleep (Function.update s.producers i (.asleep value))
  refine ⟨?_, ?_, h.consumer_asleep, h.length_le, h.order⟩
  · exact (hle.trans hP).trans hfull
  · intro _
    exact hfull.trans (Nat.le_add_right _ _)

/-- One step keeps the invariant when there are no more producers than places. -/
theorem Inv.step (hP : Fintype.card ι ≤ maxSize) (h : Inv maxSize s)
    (hstep : step maxSize s a = some s') : Inv maxSize s' := by
  cases a with
  | callEnqueue i value =>
    simp only [ThreadSafeQueue.step] at hstep
    split at hstep
    · rename_i hi
      cases hstep
      exact h.callEnqueue hi value
    · cases hstep
  | enqueue i notified =>
    simp only [ThreadSafeQueue.step] at hstep
    split at hstep
    · rename_i value hi
      split_ifs at hstep with hroom
      · have hs : count Producer.isAsleep (Function.update s.producers i .outside) =
            count Producer.isAsleep s.producers := count_update Producer.isAsleep hi _
        have hw : count Producer.isAwake (Function.update s.producers i .outside) + 1 =
            count Producer.isAwake s.producers := count_update Producer.isAwake hi _
        have hle := h.sleepers_le
        refine inv_of_notifyOne hstep ?_ (fun hpos => ?_) (fun hc => ?_) ?_ ?_
        · simp only [List.length_append, List.length_singleton]
          omega
        · have := h.room_le (hs ▸ hpos)
          simp only [List.length_append, List.length_singleton]
          omega
        · exact hs.trans (h.consumer_asleep_sleepers hc)
        · simp only [List.length_append, List.length_singleton]
          omega
        · rw [← h.order, List.append_assoc]
      · cases hstep
        exact h.sleep hP (not_lt.mp hroom) i value
    · cases hstep
  | callDequeue =>
    simp only [ThreadSafeQueue.step] at hstep
    split at hstep
    · cases hstep
      exact ⟨h.sleepers_le, h.room_le, fun hn => Consumer.noConfusion hn, h.length_le, h.order⟩
    · cases hstep
  | dequeue notified =>
    simp only [ThreadSafeQueue.step] at hstep
    split at hstep
    · rename_i value rest hc hq
      have hle := h.sleepers_le
      have hmax := h.length_le
      have hord := h.order
      have hroom := h.room_le
      rw [hq] at hle hmax hord hroom
      rw [List.length_cons] at hle hmax hroom
      refine inv_of_notifyOne hstep hle (fun hpos => ?_) (fun hn => Consumer.noConfusion hn) ?_ ?_
      · have := hroom hpos
        dsimp only
        omega
      · dsimp only
        omega
      · rw [← hord, List.append_assoc]
        rfl
    · rename_i hc hq
      cases hstep
      exact ⟨h.sleepers_le, h.room_le, fun _ => hq, h.length_le, h.order⟩
    · cases hstep
  | wakeSpuriously thread => exact h.wake hstep

omit [DecidableEq ι] in
lemma inv_init : Inv maxSize ({} : State ι α) := by
  have h0 : count Producer.isAsleep (fun _ : ι => (.outside : Producer α)) = 0 := by
    simp [count, Producer.isAsleep]
  exact ⟨h0.le, fun hpos => absurd hpos (by rw [h0]; exact lt_irrefl 0),
    fun hn => Consumer.noConfusion hn, Nat.zero_le _, rfl⟩

/-- No wake-up is lost while there are no more producers than places: the
consumer sleeps only on the empty queue, a producer sleeps on a queue with room
only while another one is awake, and the queue is bounded and first in, first
out. -/
theorem no_lost_wakeup (hP : Fintype.card ι ≤ maxSize) {actions : List (Action ι α)}
    (hrun : StepRuns.run (step maxSize) {} actions = some s) :
    (s.consumer = .asleep → s.queue = []) ∧
    (∀ i value, s.producers i = .asleep value → s.queue.length < maxSize →
      ∃ j ≠ i, ∃ value', s.producers j = .awake value') ∧
    s.queue.length ≤ maxSize ∧ s.dequeued ++ s.queue = s.enqueued := by
  have h : Inv maxSize s := inv_of_run (fun _ _ _ hs hstep => hs.step hP hstep) inv_init hrun
  refine ⟨h.consumer_asleep, ?_, h.length_le, h.order⟩
  intro i value hi hroom
  have hpos : 0 < count Producer.isAsleep s.producers :=
    count_pos_iff.mpr ⟨i, by rw [hi]; rfl⟩
  have hle := h.room_le hpos
  obtain ⟨j, hj⟩ := count_pos_iff.mp (show 0 < count Producer.isAwake s.producers by omega)
  cases hp : s.producers j with
  | awake value' =>
    refine ⟨j, ?_, value', hp⟩
    rintro rfl
    rw [hi] at hp
    cases hp
  | outside => rw [hp] at hj; cases hj
  | asleep value' => rw [hp] at hj; cases hj

theorem no_lost_wakeup_two_producers :
    ∃ s : State (Fin 2) ℕ, StepRuns.run (step 2) {}
        [.callDequeue, .dequeue none, .callEnqueue 0 7, .enqueue 0 (some .consumer),
          .callEnqueue 0 8, .enqueue 0 none, .callEnqueue 0 9, .enqueue 0 none] = some s ∧
      (s.consumer = .asleep → s.queue = []) ∧
      (∀ i value, s.producers i = .asleep value → s.queue.length < 2 →
        ∃ j ≠ i, ∃ value', s.producers j = .awake value') ∧
      s.queue.length ≤ 2 ∧ s.dequeued ++ s.queue = s.enqueued :=
  ⟨_, rfl, no_lost_wakeup (by decide) (show StepRuns.run (step 2) {}
    [.callDequeue, .dequeue none, .callEnqueue 0 7, .enqueue 0 (some .consumer),
      .callEnqueue 0 8, .enqueue 0 none, .callEnqueue 0 9, .enqueue 0 none] = some _ from rfl)⟩

/-- Two producers and one place: the notification meant for the consumer wakes a producer. -/
example : ∃ s : State (Fin 2) ℕ, StepRuns.run (step 1) {}
      [.callDequeue, .dequeue none, .callEnqueue 0 7, .enqueue 0 (some .consumer),
        .callEnqueue 0 8, .enqueue 0 none, .callEnqueue 1 9, .enqueue 1 none,
        .dequeue (some (.producer 0)), .callDequeue, .dequeue none,
        .enqueue 0 (some (.producer 1))] = some s ∧
    s.consumer = .asleep ∧ s.queue = [8] :=
  ⟨_, rfl, rfl, rfl⟩

end JwtRevoker.ThreadSafeQueue
