import JwtRevoker.ShutdownOrder

/-!
# The watchdog during the shutdown

As long as main has not cleared its flag, the watchdog notices that the send or the
receive thread has ended, joins both and starts them anew. Only a receive thread with a
message that does not fit into `recvQueue` keeps it from that.
-/
namespace JwtRevoker.Shutdown

open StepRuns
open ThreadSafeQueue (queueDefaultMaxSize)

/-- A state in which the watchdog's flag is still set. -/
structure State.Watched (s : State) : Prop where
  inv : s.Inv
  coherent : s.Coherent
  watched : .clear .watchDog ∈ s.main

section

variable {s s' : State} {a : Action} {t u : Thread} {q : Queue} {entry : Entry}

@[simp] lemma forall_restarted {P : Thread → Prop} :
    (∀ t, Restarted t → P t) ↔ P .send ∧ P .recv := by
  simp [Restarted]

lemma coherent_iff : s.Coherent ↔
    (s.runFlag .send = flagAt .send (s.place .watchDog) ∧
      s.runFlag .recv = flagAt .recv (s.place .watchDog)) ∧
    ((joinedAt .send (s.place .watchDog) = true → s.place .send = .ended) ∧
      (joinedAt .recv (s.place .watchDog) = true → s.place .recv = .ended)) ∧
    s.reported (s.place .watchDog) := by
  rw [← forall_restarted (P := fun t => s.runFlag t = flagAt t (s.place .watchDog)),
    ← forall_restarted (P := fun t => joinedAt t (s.place .watchDog) = true → s.place t = .ended)]
  exact ⟨fun h => ⟨h.flag, h.joined, h.reported⟩, fun h => ⟨h.1, h.2.1, h.2.2⟩⟩

/-- The coherence is about these parts of a state. -/
lemma State.Coherent.congr (h : s.Coherent) (hw : s'.place .watchDog = s.place .watchDog)
    (hflag : ∀ t, Restarted t → s'.runFlag t = s.runFlag t)
    (hended : ∀ t, Restarted t → (s'.place t = .ended ↔ s.place t = .ended))
    (herr : s'.connErrFlag = s.connErrFlag) : s'.Coherent := by
  rw [forall_restarted] at hflag hended
  rw [coherent_iff] at h ⊢
  rw [hw, hflag.1, hflag.2, hended.1, hended.2]
  refine ⟨h.1, h.2.1, ?_⟩
  have hrep := h.2.2
  unfold State.reported State.Broken at hrep ⊢
  simpa only [hended.1, hended.2, herr] using hrep

/-- The round of the watchdog. -/
def round : List Place :=
  [.loop, .working, .clearing .send, .clearing .recv, .joining .send, .joining .recv, .connecting,
    .setting .send, .setting .recv, .starting .send, .starting .recv]

lemma State.Watched.place_mem (h : s.Watched) : s.place .watchDog ∈ round := by
  have hfits := h.inv.fits .watchDog
  have halive := (h.inv.alive .watchDog (by decide) h.watched).1
  cases hp : s.place .watchDog with
  | loop | working | connecting => simp [round]
  | clearing u | joining u | setting u | starting u =>
    rw [hp] at hfits
    rcases hfits.2 with rfl | rfl <;> simp [round]
  | handling entry =>
    rw [hp] at hfits
    cases hfits
  | dequeuing q =>
    rw [hp] at hfits
    cases q <;> cases hfits
  | enqueuing q entry =>
    rw [hp] at hfits
    cases q <;> simp [possible, producers] at hfits
  | ended => exact absurd hp halive

lemma State.Watched.round_cases (h : s.Watched) :
    s.place .watchDog = .loop ∨ s.place .watchDog = .working ∨
    s.place .watchDog = .clearing .send ∨ s.place .watchDog = .clearing .recv ∨
    s.place .watchDog = .joining .send ∨ s.place .watchDog = .joining .recv ∨
    s.place .watchDog = .connecting ∨
    s.place .watchDog = .setting .send ∨ s.place .watchDog = .setting .recv ∨
    s.place .watchDog = .starting .send ∨ s.place .watchDog = .starting .recv := by
  simpa [round] using h.place_mem

lemma State.Watched.flag_watchDog (h : s.Watched) : s.runFlag .watchDog = true :=
  (h.inv.alive .watchDog (by decide) h.watched).2

lemma State.Watched.advance_watchDog (h : s.Watched) (hs : s.advance .watchDog = some s') :
    s'.Coherent := by
  have hrun := h.flag_watchDog
  have hc := coherent_iff.mp h.coherent
  rw [coherent_iff]
  unfold State.advance at hs
  rcases h.round_cases with hp | hp | hp | hp | hp | hp | hp | hp | hp | hp | hp
  · simp [hp, hrun, first] at hs
    subst hs
    simpa [hp, flagAt, joinedAt, State.reported, State.Broken] using hc
  · simp [hp] at hs
    subst hs
    cases herr : s.connErrFlag <;>
      simp_all [worked, flagAt, joinedAt, State.reported, State.Broken]
  -- at a join and at a new start the thread has ended
  all_goals
    simp [hp] at hs
    first | subst hs | (obtain ⟨hended, rfl⟩ := hs)
    simp_all [flagAt, joinedAt, State.reported, State.Broken]

/-- One of the two threads ends, by an exception or at the test of its flag. -/
lemma State.Watched.ends (h : s.Watched) (ht : Restarted t) (hrun : s.place t ≠ .ended)
    (hother : ∀ u, u ≠ t → s'.place u = s.place u) (hended : s'.place t = .ended)
    (hflag : s'.runFlag = s.runFlag)
    (herr : s'.connErrFlag = true ∨ s'.connErrFlag = s.connErrFlag ∧ s.runFlag t = false) :
    s'.Coherent := by
  have hc := coherent_iff.mp h.coherent
  have hw : s'.place .watchDog = s.place .watchDog := hother _ (by rintro rfl; revert ht; decide)
  rw [coherent_iff, hw, hflag]
  rcases ht with rfl | rfl
  · have hrecv := hother .recv (by decide)
    rcases h.round_cases with hp | hp | hp | hp | hp | hp | hp | hp | hp | hp | hp <;>
      simp_all [flagAt, joinedAt, State.reported, State.Broken]
  · have hsend := hother .send (by decide)
    rcases h.round_cases with hp | hp | hp | hp | hp | hp | hp | hp | hp | hp | hp <;>
      simp_all [flagAt, joinedAt, State.reported, State.Broken]

/-- What the flags say stays true as long as main leaves the watchdog its flag. -/
lemma watched_step (h : s.Watched) (hs : step s a = some s')
    (hc : .clear .watchDog ∈ s'.main) : s'.Watched := by
  refine ⟨h.inv.step hs, ?_, hc⟩
  cases a with
  | main =>
    have hflag : ∀ t, Restarted t → s'.runFlag t = s.runFlag t := by
      intro t ht
      have hlater := h.inv.ordered.restarts t ht
      simp only [step] at hs
      split at hs
      · cases hs
      · rename_i u rest hmain
        cases hs
        have hut : t ≠ u := by
          rintro rfl
          exact hlater (by rw [hmain]; rfl) h.watched
        simp [hut]
      · split_ifs at hs
        cases hs
        rfl
    have herr : s'.connErrFlag = s.connErrFlag := by
      simp only [step] at hs
      split at hs
      · cases hs
      · cases hs
        rfl
      · split_ifs at hs
        cases hs
        rfl
    obtain ⟨hplace, -⟩ := main_frame hs
    exact h.coherent.congr (by rw [hplace]) hflag (fun t _ => by rw [hplace]) herr
  | advance t =>
    by_cases ht : t = .watchDog
    · subst ht
      exact h.advance_watchDog hs
    · have hm := move_of_advance hs
      obtain ⟨herr, hflag, hother⟩ := hm.frame h.inv.fits ht
      have hw := hother .watchDog (Ne.symm ht)
      have hends : ∀ u, Restarted u → u ≠ t → (s'.place u = .ended ↔ s.place u = .ended) :=
        fun u _ hu => by rw [hother u hu]
      by_cases hended : Restarted t ∧ s'.place t = .ended
      · rcases hm.ended hended.2 with hp | ⟨-, hloop, hclear⟩
        · exact absurd hp hm.running
        · exact h.ends hended.1 hm.running hother hended.2 hflag (.inr ⟨herr, hclear⟩)
      · refine h.coherent.congr hw (fun u _ => by rw [hflag]) (fun u hu => ?_) herr
        by_cases hut : u = t
        · subst hut
          exact iff_of_false (fun hp => hended ⟨hu, hp⟩) hm.running
        · exact hends u hu hut
  | writeFails =>
    simp only [step] at hs
    split_ifs at hs with hp
    cases hs
    exact h.ends (t := .send) (.inl rfl) (by rw [hp]; simp) (fun u hu => by simp [hu]) (by simp) rfl
      (.inl rfl)
  | recvOk entry =>
    simp only [step] at hs
    split_ifs at hs with hp
    cases hs
    refine h.coherent.congr (by simp) (fun _ _ => rfl) (fun u hu => ?_) rfl
    rcases hu with rfl | rfl <;> simp [hp]
  | recvFails =>
    simp only [step] at hs
    split_ifs at hs with hp
    cases hs
    exact h.ends (t := .recv) (.inr rfl) (by rw [hp]; simp) (fun u hu => by simp [hu]) (by simp) rfl
      (.inl rfl)

/-- The invariant and, as long as the watchdog is watching, the coherence. -/
structure State.Kept (s : State) : Prop where
  inv : s.Inv
  coherent : .clear .watchDog ∈ s.main → s.Coherent

lemma kept_step (h : s.Kept) (hs : step s a = some s') : s'.Kept := by
  refine ⟨h.inv.step hs, fun hc => ?_⟩
  have hw : .clear .watchDog ∈ s.main := by
    by_cases ha : a = .main
    · subst ha
      obtain ⟨-, -, instr, hmain⟩ := main_frame hs
      rw [hmain]
      exact List.mem_cons_of_mem _ hc
    · exact main_eq_of_step hs ha ▸ hc
  exact (watched_step ⟨h.inv, h.coherent hw, hw⟩ hs hc).coherent

/-- The threads as the constructors start them, with any entries in the queues. -/
def constructed (queue : Queue → List Entry) : State where
  main := shutdown
  runFlag := fun _ => true
  place := fun _ => .loop
  connErrFlag := false
  queue := queue

lemma constructed_started (queue : Queue → List Entry) : (constructed queue).Started where
  main := rfl
  fits := fun _ => trivial
  running := fun _ _ => ⟨by simp [constructed], rfl⟩
  coherent := coherent_iff.mpr (by
    simp [constructed, flagAt, joinedAt, State.reported, State.Broken])

/-- Whenever `Server::run` returns, the shutdown starts in such a state. -/
theorem started_of_run {queue : Queue → List Entry} {actions : List Action}
    (hrun : run step (constructed queue) actions = some s) (hmain : .main ∉ actions) :
    s.Started := by
  have hstart := constructed_started queue
  have hstep : ∀ s a s', s.Kept ∧ s.main = shutdown → a ≠ .main → step s a = some s' →
      s'.Kept ∧ s'.main = shutdown := by
    rintro s a s' ⟨hk, hs⟩ ha h
    exact ⟨kept_step hk h, (main_eq_of_step h ha).trans hs⟩
  have hall : AllSteps step (fun _ a => a ≠ .main) (constructed queue) actions := by
    refine allSteps_of_forall ?_
    rintro a ha - rfl
    exact hmain ha
  obtain ⟨⟨hi, hc⟩, hs⟩ :=
    inv_run hstep ⟨⟨inv_of_started hstart, fun _ => hstart.coherent⟩, rfl⟩ hall hrun
  refine ⟨hs, hi.fits, fun t ht => hi.alive t ht ?_, hc ?_⟩
  · rw [hs]
    cases t <;> simp_all [Restarted, shutdown, schedulerDestructor, engineDestructor,
      masterSessionDestructor]
  · rw [hs]
    decide

/-- Only a failure of the receive thread makes the watchdog clear the flag of a send thread
that has not ended. -/
lemma recv_ended_of_flag (h : s.Watched) (hflag : s.runFlag .send = false)
    (hrun : s.place .send ≠ .ended) : s.place .recv = .ended := by
  have hc := coherent_iff.mp h.coherent
  rcases h.round_cases with hw | hw | hw | hw | hw | hw | hw | hw | hw | hw | hw <;>
    simp_all [flagAt, joinedAt, State.reported, State.Broken]

lemma not_overfull_of_ended (h : s.place .recv = .ended) : ¬ s.Overfull := by
  rintro ⟨entry, hp, -⟩
  rw [h] at hp
  cases hp

/-- A step that is neither one of main nor brings a message. -/
lemma watched_step_of_ne (h : s.Watched) (hover : ¬ s.Overfull) (hs : step s a = some s')
    (hmain : a ≠ .main) (hrecv : ∀ entry, a ≠ .recvOk entry) :
    s'.Watched ∧ ¬ s'.Overfull := by
  refine ⟨watched_step h hs ?_, fun ho => ?_⟩
  · by_contra hn
    rcases done_of_step hs hn with hn | ⟨ha, -⟩
    · exact hn h.watched
    · exact hmain ha
  · rcases overfull_of_step h.inv hs ho with ho | ⟨⟨entry, ha⟩, -⟩
    · exact hover ho
    · exact hrecv entry ha

/-- Steps of the watchdog up to the new start of the send thread. -/
def toStart : Place → ℕ
  | .starting .recv => 11
  | .loop => 10
  | .working => 9
  | .clearing .send => 8
  | .clearing _ => 7
  | .joining .send => 6
  | .joining _ => 5
  | .connecting => 4
  | .setting .send => 3
  | .setting _ => 2
  | _ => 1

/-- Steps of the receive thread up to its end. -/
def toEnd : Place → ℕ
  | .enqueuing _ _ => 2
  | .loop | .working => 1
  | _ => 0

def State.toRelaunch (s : State) : ℕ :=
  3 * toStart (s.place .watchDog) + toEnd (s.place .recv)

/-- The send thread is at its loop again, and the receive thread about to be. -/
def State.Relaunched (s : State) : Prop :=
  s.place .watchDog = .starting .recv ∧ s.place .send = .loop

lemma recv_places (h : s.Inv) : s.place .recv = .loop ∨ s.place .recv = .working ∨
    s.place .recv = .ended ∨ ∃ entry, s.place .recv = .enqueuing .recvQueue entry := by
  rcases places_of_possible (h.fits .recv) (by decide) (by decide) with hp | hp | hp | ⟨q, -, hq⟩ |
    ⟨q, entry, hp, hq⟩
  · exact .inl hp
  · exact .inr (.inl hp)
  · exact .inr (.inr (.inl hp))
  · cases q <;> cases hq
  · cases q with
    | recvQueue => exact .inr (.inr (.inr ⟨entry, hp⟩))
    | logQueue | sendQueue => simp [producers] at hq

/-- When the send thread has ended, the watchdog comes to start it anew. -/
theorem reconnect (h : s.Watched) (hover : ¬ s.Overfull) (hsend : s.place .send = .ended) :
    Leads step (fun s' => (s'.Watched ∧ ¬ s'.Overfull ∧
      (s'.place .send = .ended ∨ s'.Relaunched)) ∧ s'.Relaunched) s := by
  refine leads_of_decreasing State.toRelaunch ?_ ⟨h, hover, .inl hsend⟩
  rintro s ⟨h, hover, hsend⟩ hnot
  replace hsend : s.place .send = .ended := hsend.resolve_right hnot
  have hrun := h.flag_watchDog
  have hc := coherent_iff.mp h.coherent
  have next {a : Action} {s' : State} (hs : step s a = some s')
      (ha : a = .recvFails ∨ ∃ t, a = .advance t)
      (hsend' : s'.place .send = .ended ∨ s'.Relaunched)
      (hlt : ¬ s'.Relaunched → s'.toRelaunch < s.toRelaunch) :
      ∃ a s', step s a = some s' ∧
        (s'.Watched ∧ ¬ s'.Overfull ∧ (s'.place .send = .ended ∨ s'.Relaunched)) ∧
        (¬ s'.Relaunched → s'.toRelaunch < s.toRelaunch) := by
    obtain ⟨hw, ho⟩ := watched_step_of_ne h hover hs
      (by rcases ha with rfl | ⟨t, rfl⟩ <;> simp) (by rcases ha with rfl | ⟨t, rfl⟩ <;> simp)
    exact ⟨a, s', hs, ⟨hw, ho, hsend'⟩, hlt⟩
  have walk {s' : State} (hs : s.advance .watchDog = some s')
      (hsend' : s'.place .send = .ended ∨ s'.Relaunched)
      (hlt : ¬ s'.Relaunched → s'.toRelaunch < s.toRelaunch) :=
    next (a := .advance .watchDog) hs (.inr ⟨_, rfl⟩) hsend' hlt
  unfold State.toRelaunch at walk next
  rcases h.round_cases with hp | hp | hp | hp | hp | hp | hp | hp | hp | hp | hp
  · exact walk (by simp [State.advance, hp, hrun, first]; rfl)
      (.inl (by simp [hsend])) (by simp [hp, toStart])
  · have herr : s.connErrFlag = true := by
      simpa [hp, State.reported, State.Broken, hsend] using hc.2.2
    exact walk (by simp [State.advance, hp, herr, worked]; rfl)
      (.inl (by simp [hsend])) (by simp [hp, toStart])
  · exact walk (by simp [State.advance, hp]; rfl)
      (.inl (by simp [hsend])) (by simp [hp, toStart])
  · exact walk (by simp [State.advance, hp]; rfl)
      (.inl (by simp [hsend])) (by simp [hp, toStart])
  · exact walk (by simp [State.advance, hp, hsend]; rfl)
      (.inl (by simp [hsend])) (by simp [hp, toStart])
  · -- the receive thread comes to its end
    have hflag : s.runFlag .recv = false := by rw [hc.1.2, hp]; rfl
    rcases recv_places h.inv with hr | hr | hr | ⟨entry, hr⟩
    · exact next (a := .advance .recv) (by simp [step, State.advance, hr, hflag]; rfl)
        (.inr ⟨_, rfl⟩) (.inl (by simp [hsend])) (by simp [hp, hr, toEnd])
    · exact next (a := .recvFails) (by simp [step, hr]; rfl)
        (.inl rfl) (.inl (by simp [hsend])) (by simp [hp, hr, toEnd])
    · exact walk (by simp [State.advance, hp, hr]; rfl)
        (.inl (by simp [hsend])) (by simp [hp, hr, toStart])
    · have hroom : (s.queue .recvQueue).length < queueDefaultMaxSize := by
        rw [← not_le]
        exact fun hfull => hover ⟨entry, hr, hfull⟩
      exact next (a := .advance .recv) (by simp [step, State.advance, hr, hroom]; rfl)
        (.inr ⟨_, rfl⟩) (.inl (by simp [hsend])) (by simp [hp, hr, toEnd, sent])
  · exact walk (by simp [State.advance, hp]; rfl)
      (.inl (by simp [hsend])) (by simp [hp, toStart])
  · exact walk (by simp [State.advance, hp]; rfl)
      (.inl (by simp [hsend])) (by simp [hp, toStart])
  · exact walk (by simp [State.advance, hp]; rfl)
      (.inl (by simp [hsend])) (by simp [hp, toStart])
  · exact walk (by simp [State.advance, hp, hsend]; rfl)
      (.inr ⟨by simp, by simp⟩) (fun hn => absurd ⟨by simp, by simp⟩ hn)
  · have hrecv : s.place .recv = .ended := hc.2.1.2 (by rw [hp]; rfl)
    exact walk (by simp [State.advance, hp, hrecv]; rfl)
      (.inl (by simp [hsend])) (by simp [hp, hrecv, toStart, toEnd])

lemma send_places (h : s.Inv) : s.place .send = .loop ∨ s.place .send = .working ∨
    s.place .send = .ended ∨ s.place .send = .dequeuing .sendQueue := by
  rcases places_of_possible (h.fits .send) (by decide) (by decide) with hp | hp | hp | ⟨q, hp, hq⟩ |
    ⟨q, entry, hp, hq⟩
  · exact .inl hp
  · exact .inr (.inl hp)
  · exact .inr (.inr (.inl hp))
  · cases q with
    | sendQueue => exact .inr (.inr (.inr hp))
    | logQueue | recvQueue => cases hq
  · cases q <;> simp [producers] at hq

lemma send_left_of_flag (hp : s.place .send = .loop) (hflag : s.runFlag .send = true) :
    s.Left .send .sendQueue := by
  refine leads_next (a := .advance .send) (by simp [step, State.advance, hp, hflag]; rfl) ?_
  exact leads_of (.inl (by simp [first]))

lemma send_left_of_ended (h : s.Watched) (hover : ¬ s.Overfull) (hp : s.place .send = .ended) :
    s.Left .send .sendQueue := by
  refine (reconnect h hover hp).trans ?_
  rintro s ⟨⟨h, -, -⟩, hw, hsend⟩
  refine send_left_of_flag hsend ?_
  rw [h.coherent.flag .send (.inl rfl), hw]
  rfl

/-- The send thread comes to take the next message, unless it has ended and the receive
thread keeps the watchdog from starting it anew. -/
theorem send_left (h : s.Watched) (hover : s.place .send = .ended → ¬ s.Overfull) :
    s.Left .send .sendQueue := by
  have hloop {s : State} (h : s.Watched) (hp : s.place .send = .loop) :
      s.Left .send .sendQueue := by
    cases hflag : s.runFlag .send with
    | true => exact send_left_of_flag hp hflag
    | false =>
      have hover := not_overfull_of_ended (recv_ended_of_flag h hflag (by rw [hp]; simp))
      have hs : step s (.advance .send) = some (s.goto .send .ended) := by
        simp [step, State.advance, hp, hflag]
      obtain ⟨h', hover'⟩ := watched_step_of_ne h hover hs (by simp) (by simp)
      exact leads_next hs (send_left_of_ended h' hover' (by simp))
  rcases send_places h.inv with hp | hp | hp | hp
  · exact hloop h hp
  · have hs : step s (.advance .send) = some (s.goto .send .loop) := by
      simp [step, State.advance, hp, worked]
    have h' := watched_step h hs h.watched
    exact leads_next hs (hloop h' (by simp))
  · exact send_left_of_ended h (hover hp) hp
  · exact leads_of (.inl hp)

lemma recv_left_of_working (hp : s.place .recv = .working) : s.Left .recv .recvQueue := by
  refine leads_next (a := .recvOk .other) (by simp [step, hp]; rfl) ?_
  exact leads_of (.inr ⟨.other, by simp⟩)

lemma recv_left_of_flag (hp : s.place .recv = .loop) (hflag : s.runFlag .recv = true) :
    s.Left .recv .recvQueue := by
  refine leads_next (a := .advance .recv) (by simp [step, State.advance, hp, hflag]; rfl) ?_
  exact recv_left_of_working (by simp [first])

/-- The watchdog is about to start the receive thread. -/
lemma recv_left_of_starting (h : s.Watched) (hp : s.place .watchDog = .starting .recv) :
    s.Left .recv .recvQueue := by
  have hended := h.coherent.joined .recv (.inr rfl) (by rw [hp]; rfl)
  have hflag := h.coherent.flag .recv (.inr rfl)
  refine leads_next (a := .advance .watchDog) (by simp [step, State.advance, hp, hended]; rfl) ?_
  refine recv_left_of_flag (by simp) ?_
  simp only [State.goto_runFlag, hflag, hp]
  rfl

/-- Steps of the watchdog up to the join of the send thread. -/
def toJoin : Place → ℕ
  | .loop => 3
  | .working => 2
  | .clearing .send => 1
  | _ => 0

/-- Steps of the keepalive thread up to its message. -/
def toMessage : Place → ℕ
  | .working => 2
  | .loop => 1
  | _ => 0

/-- Steps of the send thread up to its end, when it waits that long for a message. -/
def sendToEnd (wait : ℕ) : Place → ℕ
  | .dequeuing _ => 3 + wait
  | .working => 2
  | .loop => 1
  | _ => 0

def State.toSendEnd (s : State) : ℕ :=
  10 * toJoin (s.place .watchDog) +
    sendToEnd (if s.queue .sendQueue = [] then 1 + toMessage (s.place .keepalive) else 0)
      (s.place .send)

/-- When the receive thread has ended, the send thread ends as well, or both have been
joined already: `keepaliveWorker` does not let it wait for ever. -/
theorem send_ends (h : s.Watched) (hk : .clear .keepalive ∈ s.main)
    (hrecv : s.place .recv = .ended) :
    Leads step (fun s' =>
      (s'.Watched ∧ .clear .keepalive ∈ s'.main ∧ s'.place .recv = .ended) ∧
      (s'.place .send = .ended ∨ s'.place .watchDog = .starting .recv)) s := by
  refine leads_of_decreasing State.toSendEnd ?_ ⟨h, hk, hrecv⟩
  rintro s ⟨h, hk, hrecv⟩ hnot
  rw [not_or] at hnot
  obtain ⟨hsend, hstart⟩ := hnot
  have hrun := h.flag_watchDog
  have hc := coherent_iff.mp h.coherent
  have next {t : Thread} {s' : State} (hs : s.advance t = some s')
      (hrecv' : s'.place .recv = .ended) (hlt : s'.toSendEnd < s.toSendEnd) :
      ∃ a s', step s a = some s' ∧
        (s'.Watched ∧ .clear .keepalive ∈ s'.main ∧ s'.place .recv = .ended) ∧
        (¬ (s'.place .send = .ended ∨ s'.place .watchDog = .starting .recv) →
          s'.toSendEnd < s.toSendEnd) := by
    have hmain := (move_of_advance hs).main_eq
    exact ⟨.advance t, s', hs, ⟨watched_step (a := .advance t) h hs (hmain ▸ h.watched), hmain ▸ hk,
      hrecv'⟩, fun _ => hlt⟩
  -- with its flag cleared the send thread comes to its end
  have finish (hflag : s.runFlag .send = false) :
      ∃ a s', step s a = some s' ∧
        (s'.Watched ∧ .clear .keepalive ∈ s'.main ∧ s'.place .recv = .ended) ∧
        (¬ (s'.place .send = .ended ∨ s'.place .watchDog = .starting .recv) →
          s'.toSendEnd < s.toSendEnd) := by
    rcases send_places h.inv with hp | hp | hp | hp
    · exact next (t := .send) (by simp [State.advance, hp, hflag]; rfl) (by simp [hrecv])
        (by simp [State.toSendEnd, sendToEnd, hp])
    · exact next (t := .send) (by simp [State.advance, hp, worked]; rfl) (by simp [hrecv])
        (by simp [State.toSendEnd, sendToEnd, hp])
    · exact absurd hp hsend
    · obtain hq | ⟨entry, rest, hq⟩ : s.queue .sendQueue = [] ∨
          ∃ entry rest, s.queue .sendQueue = entry :: rest := by
        cases s.queue .sendQueue <;> simp
      · obtain ⟨hka, hkf⟩ := h.inv.alive .keepalive (by decide) hk
        rcases places_of_possible (h.inv.fits .keepalive) (by decide) (by decide) with hkp | hkp |
          hkp | ⟨q, hkp, hkq⟩ | ⟨q, entry, hkp, hkq⟩
        · exact next (t := .keepalive) (by simp [State.advance, hkp, hkf, first]; rfl)
            (by simp [hrecv]) (by simp [State.toSendEnd, sendToEnd, toMessage, hp, hq, hkp])
        · exact next (t := .keepalive) (by simp [State.advance, hkp, worked]; rfl)
            (by simp [hrecv]) (by simp [State.toSendEnd, sendToEnd, toMessage, hp, hq, hkp])
        · exact absurd hkp hka
        · cases q <;> cases hkq
        · cases q with
          | sendQueue =>
            exact next (t := .keepalive)
              (by simp [State.advance, hkp, hq, sent, queueDefaultMaxSize]; rfl)
              (by simp [hrecv]) (by simp [State.toSendEnd, sendToEnd, hp, hq])
          | logQueue | recvQueue => simp [producers] at hkq
      · exact next (t := .send) (by simp [State.advance, hp, hq, taken]; rfl) (by simp [hrecv])
          (by simp [State.toSendEnd, sendToEnd, hp, hq])
  rcases h.round_cases with hp | hp | hp | hp | hp | hp | hp | hp | hp | hp | hp
  · exact next (t := .watchDog) (by simp [State.advance, hp, hrun, first]; rfl) (by simp [hrecv])
      (by simp [State.toSendEnd, toJoin, hp])
  · have herr : s.connErrFlag = true := by
      simpa [hp, State.reported, State.Broken, hrecv] using hc.2.2
    exact next (t := .watchDog) (by simp [State.advance, hp, herr, worked]; rfl) (by simp [hrecv])
      (by simp [State.toSendEnd, toJoin, hp])
  · exact next (t := .watchDog) (by simp [State.advance, hp]; rfl) (by simp [hrecv])
      (by simp [State.toSendEnd, toJoin, hp])
  · exact finish (by rw [hc.1.1, hp]; rfl)
  · exact finish (by rw [hc.1.1, hp]; rfl)
  · exact absurd (hc.2.1.1 (by rw [hp]; rfl)) hsend
  · exact absurd (hc.2.1.1 (by rw [hp]; rfl)) hsend
  · exact absurd (hc.2.1.1 (by rw [hp]; rfl)) hsend
  · exact absurd (hc.2.1.1 (by rw [hp]; rfl)) hsend
  · exact absurd (hc.2.1.1 (by rw [hp]; rfl)) hsend
  · exact absurd hp hstart

lemma recv_left_of_ended (h : s.Watched) (hk : .clear .keepalive ∈ s.main)
    (hp : s.place .recv = .ended) : s.Left .recv .recvQueue := by
  refine (send_ends h hk hp).trans ?_
  rintro s ⟨⟨h, -, hrecv⟩, hsend | hw⟩
  · refine (reconnect h (not_overfull_of_ended hrecv) hsend).trans ?_
    rintro s ⟨⟨h, -, -⟩, hw, -⟩
    exact recv_left_of_starting h hw
  · exact recv_left_of_starting h hw

/-- The receive thread comes to hand a message over, as long as the keepalive thread does
not let the send thread wait for ever. -/
theorem recv_left (h : s.Watched) (hk : .clear .keepalive ∈ s.main) :
    s.Left .recv .recvQueue := by
  rcases recv_places h.inv with hp | hp | hp | ⟨entry, hp⟩
  · cases hflag : s.runFlag .recv with
    | true => exact recv_left_of_flag hp hflag
    | false =>
      have hs : step s (.advance .recv) = some (s.goto .recv .ended) := by
        simp [step, State.advance, hp, hflag]
      exact leads_next hs (recv_left_of_ended (watched_step h hs h.watched) hk (by simp))
  · exact recv_left_of_working hp
  · exact recv_left_of_ended h hk hp
  · exact leads_of (.inr ⟨entry, hp⟩)

/-- As long as its flag is set the log thread comes to take the next record. -/
theorem log_left (h : s.Inv) (hl : .clear .log ∈ s.main) : s.Left .log .logQueue := by
  obtain ⟨halive, hflag⟩ := h.alive .log (by decide) hl
  have hloop {s : State} (hp : s.place .log = .loop) (hflag : s.runFlag .log = true) :
      s.Left .log .logQueue := by
    refine leads_next (a := .advance .log) (by simp [step, State.advance, hp, hflag]; rfl) ?_
    exact leads_of (.inl (by simp [first]))
  rcases places_of_possible (h.fits .log) (by decide) (by decide) with hp | hp | hp | ⟨q, hp, hq⟩ |
    ⟨q, entry, hp, hq⟩
  · exact hloop hp hflag
  · refine leads_next (a := .advance .log) (by simp [step, State.advance, hp, worked]; rfl) ?_
    exact hloop (by simp) hflag
  · exact absurd hp halive
  · cases q with
    | logQueue => exact leads_of (.inl hp)
    | sendQueue | recvQueue => cases hq
  · cases q <;> simp [producers] at hq

end

end JwtRevoker.Shutdown
