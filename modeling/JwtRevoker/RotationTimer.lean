import JwtRevoker.StepRuns

/-!
# The rotation thread and its timer

`rotateBloomFilterWorker` and `adjustFiltersParam` over `filtersMtx` and
`adjustFiltersCv`, in discrete time. A wait that has timed out still has to get
the mutex back; when an adjustment has the mutex at that time, the time-out of the
old interval rotates the vector that the adjustment installs.
-/
namespace JwtRevoker.RotationTimer

open StepRuns

/-- A call of `wait_for`: when it began and the `rotationInterval` it read. -/
structure WaitFor where
  began : ℕ
  interval : ℕ
  deriving DecidableEq, Repr

def WaitFor.deadline (w : WaitFor) : ℕ := w.began + w.interval

/-- Where the rotation thread is. It has the mutex in `locked` and `returned`; in
`woken` it is on its way back to it. -/
inductive Worker
  | start
  | locked
  | waiting (w : WaitFor)
  | woken (timedOut : Bool) (w : WaitFor)
  | returned (timedOut : Bool) (w : WaitFor)
  deriving DecidableEq, Repr

/-- Where `adjustFiltersParam` is; it has the mutex in `locked` and `swapped`. The new
filters are built and the log is loaded in `stored`. -/
inductive Adjuster
  | idle
  | stored (interval : ℕ)
  | locked (interval : ℕ)
  | swapped
  | unlocked
  deriving DecidableEq, Repr

def Worker.HasMutex : Worker → Prop
  | .locked | .returned _ _ => True
  | _ => False

def Adjuster.HasMutex : Adjuster → Prop
  | .locked _ | .swapped => True
  | _ => False

instance (w : Worker) : Decidable w.HasMutex := by
  cases w <;> unfold Worker.HasMutex <;> infer_instance

instance (a : Adjuster) : Decidable a.HasMutex := by
  cases a <;> unfold Adjuster.HasMutex <;> infer_instance

/-- A vector installed by `adjustFiltersParam`: when, and the interval stored for it. -/
structure Installed where
  time : ℕ
  interval : ℕ
  deriving DecidableEq, Repr

/-- One rotation and the vector it is applied to; `none` is the vector of `init`. -/
structure Rotation where
  time : ℕ
  vector : Option Installed
  deriving DecidableEq, Repr

structure State where
  clock : ℕ := 0
  rotationInterval : ℕ
  worker : Worker := .start
  adjuster : Adjuster := .idle
  vector : Option Installed := none
  rotations : List Rotation := []
  deriving DecidableEq, Repr

inductive Action
  | tick (seconds : ℕ)
  | lockWorker
  | waitFor
  | timeOut
  | wakeSpuriously
  | reacquire
  | rotate
  | waitAgain
  | store (interval : ℕ)
  | lockAdjuster
  | swap
  | unlock
  | notifyAll
  deriving DecidableEq, Repr

def step (s : State) : Action → Option State
  | .tick seconds => some { s with clock := s.clock + seconds }
  | .lockWorker =>
      match s.worker with
      | .start => if s.adjuster.HasMutex then none else some { s with worker := .locked }
      | _ => none
  | .waitFor =>
      match s.worker with
      | .locked => some { s with worker := .waiting ⟨s.clock, s.rotationInterval⟩ }
      | _ => none
  | .timeOut =>
      match s.worker with
      | .waiting w => if w.deadline ≤ s.clock then some { s with worker := .woken true w } else none
      -- The deadline passes before a wait that ended otherwise has the mutex back.
      | .woken false w =>
          if w.deadline ≤ s.clock then some { s with worker := .woken true w } else none
      | _ => none
  | .wakeSpuriously =>
      match s.worker with
      | .waiting w => some { s with worker := .woken false w }
      | _ => none
  | .reacquire =>
      match s.worker with
      | .woken timedOut w =>
          if s.adjuster.HasMutex then none else some { s with worker := .returned timedOut w }
      | _ => none
  | .rotate =>
      match s.worker with
      | .returned true _ =>
          some { s with worker := .start, rotations := s.rotations ++ [⟨s.clock, s.vector⟩] }
      | _ => none
  | .waitAgain =>
      match s.worker with
      | .returned false _ => some { s with worker := .start }
      | _ => none
  | .store interval =>
      match s.adjuster with
      -- An interval of 0 divides by zero.
      | .idle =>
          if interval = 0 then none
          else some { s with rotationInterval := interval, adjuster := .stored interval }
      | _ => none
  | .lockAdjuster =>
      match s.adjuster with
      | .stored interval =>
          if s.worker.HasMutex then none else some { s with adjuster := .locked interval }
      | _ => none
  | .swap =>
      match s.adjuster with
      | .locked interval =>
          some { s with adjuster := .swapped, vector := some ⟨s.clock, interval⟩ }
      | _ => none
  | .unlock =>
      match s.adjuster with
      | .swapped => some { s with adjuster := .unlocked }
      | _ => none
  | .notifyAll =>
      match s.adjuster with
      | .unlocked =>
          match s.worker with
          | .waiting w => some { s with adjuster := .idle, worker := .woken false w }
          | _ => some { s with adjuster := .idle }
      | _ => none

/-- No vector installed by an adjustment was rotated before its interval had elapsed. -/
def State.NotEarly (s : State) : Prop :=
  ∀ r ∈ s.rotations, ∀ v ∈ r.vector, v.time + v.interval ≤ r.time

/-- The wait began after the vector in place was installed, and with its interval or
a longer one. -/
def State.Fresh (s : State) (w : WaitFor) : Prop :=
  ∀ v ∈ s.vector, v.time ≤ w.began ∧ v.interval ≤ w.interval

/-- The waits the rotation thread is in or comes from after they have timed out. -/
def Worker.TimedOut (w : WaitFor) : Worker → Prop
  | .woken true w' | .returned true w' => w' = w
  | _ => False

/-- A vector is not installed while a time-out is under way, and a wait that the
installation has made stale does not time out. -/
def Careful (s : State) : Action → Prop
  | .swap => ∀ w, s.worker ≠ .woken true w
  | .timeOut => ∀ w, s.worker = .waiting w ∨ s.worker = .woken false w → s.Fresh w
  | _ => True

/-- What careful steps keep. -/
structure Inv (s : State) : Prop where
  exclusive : s.worker.HasMutex → ¬ s.adjuster.HasMutex
  timedOut : ∀ w, s.worker.TimedOut w → w.deadline ≤ s.clock ∧ s.Fresh w
  notEarly : s.NotEarly

variable {s s' : State} {a : Action} {actions : List Action}

namespace Inv

/-- The rotation thread goes where it has no mutex and no time-out. -/
lemma unarmed (hi : Inv s) {worker : Worker} (hm : ¬ worker.HasMutex)
    (ht : ∀ w, ¬ worker.TimedOut w) : Inv { s with worker := worker } where
  exclusive := fun hw => absurd hw hm
  timedOut := fun w hw => absurd hw (ht w)
  notEarly := hi.notEarly

lemma tick (hi : Inv s) (seconds : ℕ) : Inv { s with clock := s.clock + seconds } := by
  refine ⟨hi.exclusive, ?_, hi.notEarly⟩
  intro w hw
  obtain ⟨hd, hf⟩ := hi.timedOut w hw
  exact ⟨hd.trans (Nat.le_add_right _ _), hf⟩

/-- A wait that is fresh times out. -/
lemma timeOut (hi : Inv s) {w : WaitFor} (hd : w.deadline ≤ s.clock) (hf : s.Fresh w) :
    Inv { s with worker := .woken true w } := by
  refine ⟨fun hm => hm.elim, ?_, hi.notEarly⟩
  intro w' hw'
  obtain rfl : w = w' := hw'
  exact ⟨hd, hf⟩

lemma reacquire (hi : Inv s) {timedOut : Bool} {w : WaitFor}
    (hw : s.worker = .woken timedOut w) (hm : ¬ s.adjuster.HasMutex) :
    Inv { s with worker := .returned timedOut w } := by
  refine ⟨fun _ => hm, ?_, hi.notEarly⟩
  intro w' hw'
  refine hi.timedOut w' ?_
  rw [hw]
  cases timedOut <;> exact hw'

/-- The rotation comes after a fresh wait. -/
lemma rotate (hi : Inv s) {w : WaitFor} (hw : s.worker = .returned true w) :
    Inv { s with worker := .start, rotations := s.rotations ++ [⟨s.clock, s.vector⟩] } := by
  refine ⟨fun hm => hm.elim, fun w hw => hw.elim, ?_⟩
  intro r hr v hv
  rcases List.mem_append.mp hr with hr | hr
  · exact hi.notEarly r hr v hv
  · obtain rfl := List.mem_singleton.mp hr
    obtain ⟨hd, hf⟩ := hi.timedOut w (by rw [hw]; rfl)
    obtain ⟨hbegan, hinterval⟩ := hf v hv
    calc v.time + v.interval ≤ w.began + w.interval := Nat.add_le_add hbegan hinterval
      _ ≤ s.clock := hd

lemma lockAdjuster (hi : Inv s) (hm : ¬ s.worker.HasMutex) (interval : ℕ) :
    Inv { s with adjuster := .locked interval } :=
  ⟨fun hw => absurd hw hm, hi.timedOut, hi.notEarly⟩

/-- When a vector is installed no time-out is under way or in the critical section. -/
lemma swap (hi : Inv s) {interval : ℕ} (ha : s.adjuster = .locked interval)
    (hc : ∀ w, s.worker ≠ .woken true w) :
    Inv { s with adjuster := .swapped, vector := some ⟨s.clock, interval⟩ } := by
  have hfree : ¬ s.worker.HasMutex := fun hm => hi.exclusive hm (by rw [ha]; trivial)
  refine ⟨fun hm => absurd hm hfree, ?_, hi.notEarly⟩
  intro w hw
  cases hworker : s.worker with
  | woken timedOut w' =>
    rw [hworker] at hw
    cases timedOut with
    | true => exact absurd hworker (hc w')
    | false => exact hw.elim
  | returned timedOut w' => exact absurd (by rw [hworker]; trivial) hfree
  | start | locked | waiting =>
    rw [hworker] at hw
    exact hw.elim

/-- The adjustment goes where it has no mutex. -/
lemma unlock (hi : Inv s) (adjuster : Adjuster) (hm : ¬ adjuster.HasMutex) (interval : ℕ) :
    Inv { s with rotationInterval := interval, adjuster := adjuster } :=
  ⟨fun _ => hm, hi.timedOut, hi.notEarly⟩

lemma step (hi : Inv s) (hc : Careful s a) (h : step s a = some s') : Inv s' := by
  cases a with
  | tick seconds =>
    cases h
    exact hi.tick seconds
  | lockWorker =>
    simp only [RotationTimer.step] at h
    split at h
    · split_ifs at h with hm
      cases h
      exact ⟨fun _ => hm, fun w hw => hw.elim, hi.notEarly⟩
    · cases h
  | waitFor | wakeSpuriously | waitAgain =>
    simp only [RotationTimer.step] at h
    split at h
    · cases h
      exact hi.unarmed id fun _ => id
    · cases h
  | timeOut =>
    simp only [RotationTimer.step] at h
    split at h
    · rename_i w hw
      split_ifs at h with hd
      cases h
      exact hi.timeOut hd (hc w (.inl hw))
    · rename_i w hw
      split_ifs at h with hd
      cases h
      exact hi.timeOut hd (hc w (.inr hw))
    · cases h
  | reacquire =>
    simp only [RotationTimer.step] at h
    split at h
    · rename_i timedOut w hw
      split_ifs at h with hm
      cases h
      exact hi.reacquire hw hm
    · cases h
  | rotate =>
    simp only [RotationTimer.step] at h
    split at h
    · rename_i w hw
      cases h
      exact hi.rotate hw
    · cases h
  | store interval =>
    simp only [RotationTimer.step] at h
    split at h
    · split_ifs at h
      cases h
      exact hi.unlock (.stored interval) id interval
    · cases h
  | lockAdjuster =>
    simp only [RotationTimer.step] at h
    split at h
    · rename_i interval ha
      split_ifs at h with hm
      cases h
      exact hi.lockAdjuster hm interval
    · cases h
  | swap =>
    simp only [RotationTimer.step] at h
    split at h
    · rename_i interval ha
      cases h
      exact hi.swap ha hc
    · cases h
  | unlock =>
    simp only [RotationTimer.step] at h
    split at h
    · cases h
      exact hi.unlock .unlocked id s.rotationInterval
    · cases h
  | notifyAll =>
    simp only [RotationTimer.step] at h
    split at h
    · have hidle : Inv { s with adjuster := .idle } :=
        hi.unlock .idle id s.rotationInterval
      split at h
      · cases h
        exact hidle.unarmed id fun _ => id
      · cases h
        exact hidle
    · cases h

end Inv

lemma inv_init (clock rotationInterval : ℕ) :
    Inv { clock := clock, rotationInterval := rotationInterval } where
  exclusive := fun hm => hm.elim
  timedOut := fun _ hw => hw.elim
  notEarly := fun _ hr => absurd hr List.not_mem_nil

/-- In every run in which no vector is installed while a time-out is under way and
no stale wait times out, no installed vector is rotated early. -/
theorem notEarly_of_careful {clock rotationInterval : ℕ}
    (hrun : run step { clock := clock, rotationInterval := rotationInterval } actions = some s)
    (hall : AllSteps step Careful { clock := clock, rotationInterval := rotationInterval }
      actions) :
    ∀ before after s₁, actions = before ++ after →
      run step { clock := clock, rotationInterval := rotationInterval } before = some s₁ →
      s₁.NotEarly := by
  rintro before after s₁ rfl h₁
  have hinv : Inv s₁ :=
    inv_run (fun _ _ _ hi hc h => Inv.step hi hc h) (inv_init clock rotationInterval)
      (allSteps_left hall) h₁
  exact hinv.notEarly

lemma not_notEarly {r : Rotation} {v : Installed} (hr : r ∈ s.rotations) (hv : v ∈ r.vector)
    (hlt : r.time < v.time + v.interval) : ¬ s.NotEarly :=
  fun h => absurd (h r hr v hv) (not_le.mpr hlt)

/-- A vector installed while a time-out is under way can be rotated at once. -/
theorem rotated_at_once {w : WaitFor} {interval : ℕ} (hw : s.worker = .woken true w)
    (ha : s.adjuster = .locked interval) (hpos : 0 < interval) :
    ∃ s', run step s [.swap, .unlock, .reacquire, .rotate] = some s' ∧ ¬ s'.NotEarly := by
  have hrun : run step s [.swap, .unlock, .reacquire, .rotate] = some { s with
      worker := .start
      adjuster := .unlocked
      vector := some ⟨s.clock, interval⟩
      rotations := s.rotations ++ [⟨s.clock, some ⟨s.clock, interval⟩⟩] } := by
    simp [run, step, hw, ha, Adjuster.HasMutex]
  refine ⟨_, hrun, not_notEarly (List.mem_append_right _ List.mem_cons_self) rfl ?_⟩
  exact Nat.lt_add_of_pos_right hpos

/-- A stale wait that times out before the interval has elapsed rotates early. -/
theorem rotated_by_stale_wait {w : WaitFor} {v : Installed} (hw : s.worker = .waiting w)
    (hm : ¬ s.adjuster.HasMutex) (hd : w.deadline ≤ s.clock) (hv : s.vector = some v)
    (hlt : s.clock < v.time + v.interval) :
    ∃ s', run step s [.timeOut, .reacquire, .rotate] = some s' ∧ ¬ s'.NotEarly := by
  have hrun : run step s [.timeOut, .reacquire, .rotate] = some { s with
      worker := .start
      rotations := s.rotations ++ [⟨s.clock, some v⟩] } := by
    simp [run, step, hw, hd, hm, hv]
  exact ⟨_, hrun, not_notEarly (List.mem_append_right _ List.mem_cons_self) rfl hlt⟩

/-- An adjustment from 10 to 20 seconds that wakes the rotation thread, which then
waits anew and rotates after 20 seconds. -/
def adjustsInTime : List Action :=
  [.lockWorker, .waitFor, .tick 3, .store 20, .lockAdjuster, .swap, .unlock, .notifyAll, .reacquire,
    .waitAgain, .lockWorker, .waitFor, .tick 20, .timeOut, .reacquire, .rotate]

theorem notEarly_of_careful_adjustsInTime :
    ∃ s, run step { rotationInterval := 10 } adjustsInTime = some s ∧ s.rotations.length = 1 ∧
      ∀ before after s₁, adjustsInTime = before ++ after →
        run step { rotationInterval := 10 } before = some s₁ → s₁.NotEarly :=
  ⟨_, rfl, rfl, notEarly_of_careful (show run step { rotationInterval := 10 } adjustsInTime =
    some _ from rfl) (by simp [adjustsInTime, AllSteps, step, Careful, State.Fresh,
      WaitFor.deadline, Worker.HasMutex, Adjuster.HasMutex])⟩

/-- The old interval of 10 seconds ends while the adjustment to 100 seconds has the
mutex; the new vector is rotated in the second it was installed in. -/
theorem new_vector_rotated_at_once :
    ∃ s, run step { rotationInterval := 10 } [.lockWorker, .waitFor, .tick 10, .store 100,
        .lockAdjuster, .timeOut, .swap, .unlock, .reacquire, .rotate] = some s ∧
      s.rotations = [⟨10, some ⟨10, 100⟩⟩] ∧ ¬ s.NotEarly :=
  ⟨_, rfl, rfl, not_notEarly List.mem_cons_self rfl (by decide)⟩

end JwtRevoker.RotationTimer
