import JwtRevoker.Reconnection

/-!
# Runs of the shutdown

A shutdown gets stuck when main clears the flag of a thread that waits on an empty
queue: the flag wakes nobody, and the threads that could put something into the queue
have been joined. It gets stuck as well when `recvQueue` is filled for no one, and in a
circle of `msgProc`, the send and the receive thread, which the watchdog cannot break.
When no step does any of that, no state of the run is stuck; and main gets to its end by
no other runs.
-/
namespace JwtRevoker.Shutdown

open StepRuns
open ThreadSafeQueue (queueDefaultMaxSize)

/-- The consumer of the queue waits on it, and it is empty. -/
def State.Starving (s : State) (q : Queue) : Prop :=
  s.place (consumer q) = .dequeuing q ∧ s.queue q = []

/-- `msgProc` has a frame that does not fit into `sendQueue`. -/
def State.Jammed (s : State) : Prop :=
  ∃ entry, s.place .msgProc = .enqueuing .sendQueue entry ∧
    queueDefaultMaxSize ≤ (s.queue .sendQueue).length

/-- `msgProc` waits for the send thread, which has ended; the watchdog, before it can start
that anew, for the receive thread; and the receive thread for `msgProc`. -/
def State.Circle (s : State) : Prop := s.Jammed ∧ s.place .send = .ended ∧ s.Overfull

/-- The thread has a message for the last place of `sendQueue` in what is a circle then. -/
def State.Fills (s : State) (t : Thread) : Prop :=
  (∃ entry, s.place t = .enqueuing .sendQueue entry) ∧
    queueDefaultMaxSize ≤ (s.queue .sendQueue).length + 1 ∧
    (∃ entry, s.place .msgProc = .enqueuing .sendQueue entry) ∧
    s.place .send = .ended ∧ s.Overfull

/-- Main starts the shutdown in a circle, or the step closes one. -/
def Closes (s : State) : Action → Prop
  | .main => s.main.head? = some (.clear .msgProc) ∧ s.Circle
  | .advance .msgProc =>
      s.place .msgProc = .handling .adjustBloomFilter ∧
        queueDefaultMaxSize ≤ (s.queue .sendQueue).length ∧ s.place .send = .ended ∧ s.Overfull
  | .advance .keepalive => s.Fills .keepalive
  | .advance .statusReport => s.Fills .statusReport
  | .writeFails => s.Jammed ∧ s.Overfull
  | .recvOk _ =>
      s.Jammed ∧ s.place .send = .ended ∧ queueDefaultMaxSize ≤ (s.queue .recvQueue).length
  | _ => False

/-- Main clears a flag while its thread does not wait on an empty queue, a send thread
started after that finds something to send, and `recvQueue` has room for what is
received when its consumer ends or has ended. -/
def Timely (s : State) : Action → Prop
  | .main =>
      (s.main.head? = some (.clear .log) → ¬ s.Starving .logQueue) ∧
        (s.main.head? = some (.clear .send) → ¬ s.Starving .sendQueue)
  | .advance .send =>
      .clear .send ∉ s.main → s.place .send = .loop → s.runFlag .send = true →
        s.queue .sendQueue ≠ []
  | .advance .msgProc =>
      s.place .msgProc = .loop → s.runFlag .msgProc = false → ¬ s.Overfull
  | .recvOk _ =>
      s.place .msgProc = .ended → (s.queue .recvQueue).length < queueDefaultMaxSize
  | _ => True

def Careful (s : State) (a : Action) : Prop := Timely s a ∧ ¬ Closes s a

instance (s : State) (q : Queue) : Decidable (s.Starving q) := inferInstanceAs (Decidable (_ ∧ _))

instance (s : State) : Decidable s.Jammed := inferInstanceAs (Decidable (∃ _ : Entry, _))

instance (s : State) : Decidable s.Circle := inferInstanceAs (Decidable (_ ∧ _))

instance (s : State) (t : Thread) : Decidable (s.Fills t) := inferInstanceAs (Decidable (_ ∧ _))

instance (s : State) : ∀ a, Decidable (Closes s a)
  | .main | .advance .msgProc | .writeFails | .recvOk _ => inferInstanceAs (Decidable (_ ∧ _))
  | .advance .keepalive => inferInstanceAs (Decidable (s.Fills .keepalive))
  | .advance .statusReport => inferInstanceAs (Decidable (s.Fills .statusReport))
  | .advance .rotate | .advance .log | .advance .watchDog | .advance .send | .advance .recv
  | .recvFails => isFalse id

instance (s : State) : ∀ a, Decidable (Timely s a)
  | .main => inferInstanceAs (Decidable (_ ∧ _))
  | .advance .send => inferInstanceAs (Decidable (_ → _))
  | .advance .msgProc => inferInstanceAs (Decidable (_ → _))
  | .recvOk _ => inferInstanceAs (Decidable (_ → _))
  | .advance .keepalive | .advance .statusReport | .advance .rotate | .advance .log
  | .advance .watchDog | .advance .recv | .writeFails | .recvFails => isTrue trivial

instance (s : State) (a : Action) : Decidable (Careful s a) := inferInstanceAs (Decidable (_ ∧ _))

/-- What careful steps keep besides. -/
structure State.Served (s : State) : Prop where
  kept : s.Kept
  log : .clear .log ∉ s.main → ¬ s.Starving .logQueue
  send : .clear .send ∉ s.main → ¬ s.Starving .sendQueue
  recv : s.place .msgProc = .ended → ¬ s.Overfull
  circle : .clear .msgProc ∉ s.main → ¬ s.Circle

section Runs

variable {s s' : State} {a : Action} {t : Thread} {q : Queue} {actions : List Action}

/-- The consumer of a queue comes to starve only when it goes to wait. -/
lemma starving_of_step (hi : s.Inv) (h : step s a = some s') (hq : s'.Starving q) :
    s.Starving q ∨ a = .advance (consumer q) ∧ s.place (consumer q) = .loop ∧
      s.runFlag (consumer q) = true ∧ s.queue q = [] := by
  cases a with
  | main =>
    obtain ⟨hplace, hqueue, -⟩ := main_frame h
    rw [State.Starving, hplace, hqueue] at hq
    exact .inl hq
  | advance t =>
    have hm := move_of_advance h
    rcases hm.dequeuing hq.1 with ⟨hne, hp⟩ | ⟨rfl, hp, hflag, hqueue⟩
    · rcases hm.queue_nil hq.2 with hnil | ht
      · exact .inl ⟨hp, hnil⟩
      · have := hi.fits t
        rw [ht] at this
        exact absurd this.symm hne
    · exact .inr ⟨rfl, hp, hflag, hqueue ▸ hq.2⟩
  | writeFails | recvOk entry | recvFails =>
    simp only [step] at h
    split_ifs at h
    cases h
    obtain ⟨hp, hnil⟩ := hq
    simp only [State.goto_place] at hp
    split_ifs at hp
    exact .inl ⟨hp, hnil⟩

/-- `msgProc` ends only at the test of its flag. -/
lemma ended_of_step (h : step s a = some s') (hp : s'.place .msgProc = .ended) :
    s.place .msgProc = .ended ∨
      a = .advance .msgProc ∧ s.place .msgProc = .loop ∧ s.runFlag .msgProc = false := by
  cases a with
  | main =>
    rw [(main_frame h).1] at hp
    exact .inl hp
  | advance t =>
    rcases (move_of_advance h).ended hp with hp | ⟨rfl, hp⟩
    · exact .inl hp
    · exact .inr ⟨rfl, hp⟩
  | writeFails | recvOk entry | recvFails =>
    simp only [step] at h
    split_ifs at h
    cases h
    exact .inl (by simpa using hp)

/-- While `msgProc` is to be joined, the watchdog has its flag. -/
lemma State.Kept.watched (h : s.Kept) (hp : s.place .msgProc ≠ .ended) : s.Watched := by
  have hc := h.inv.ordered.watched .msgProc (by decide) (by decide) (h.inv.join_mem hp)
  exact ⟨h.inv, h.coherent hc, hc⟩

/-- A circle comes about only by a step that closes it. -/
lemma circle_of_step (hk : s.Kept) (h : step s a = some s') (hc : s'.Circle) :
    s.Circle ∨ Closes s a := by
  obtain ⟨⟨entry, hp, hfull⟩, hsend, hover⟩ := hc
  cases a with
  | main =>
    obtain ⟨hplace, hqueue, -⟩ := main_frame h
    rw [hplace] at hp hsend
    rw [hqueue] at hfull
    rw [State.Overfull, hplace, hqueue] at hover
    exact .inl ⟨⟨entry, hp, hfull⟩, hsend, hover⟩
  | advance t =>
    have hm := move_of_advance h
    have hover' : s.Overfull := by
      rcases overfull_of_step hk.inv h hover with ho | ⟨⟨received, ha⟩, -⟩
      · exact ho
      · cases ha
    have hack := hm.acknowledging hp
    have hrun : s.place .msgProc ≠ .ended := by
      rcases hack with ⟨-, hp⟩ | ⟨-, hp, -⟩ <;> simp [hp]
    have hsend' : s.place .send = .ended := by
      rcases hm.ended hsend with hs | ⟨-, hs, hflag⟩
      · exact hs
      · have hrecv := recv_ended_of_flag (hk.watched hrun) hflag (by simp [hs])
        exact absurd hover' (not_overfull_of_ended hrecv)
    rcases hack with ⟨ht, hp⟩ | ⟨rfl, hp, hqueue⟩
    · rcases hm.length_cases hk.inv.fits (q := .sendQueue) with hlen | ⟨hprod, hput, hlen⟩
      · exact .inl ⟨⟨entry, hp, hfull.trans hlen⟩, hsend', hover'⟩
      · have hfills : s.Fills t := ⟨hput, hlen ▸ hfull, ⟨entry, hp⟩, hsend', hover'⟩
        simp only [producers, List.mem_cons, List.not_mem_nil, or_false] at hprod
        rcases hprod with rfl | rfl | rfl
        · exact absurd rfl ht
        · exact .inr hfills
        · exact .inr hfills
    · exact .inr ⟨hp, hqueue ▸ hfull, hsend', hover'⟩
  | writeFails =>
    simp only [step] at h
    split_ifs at h
    cases h
    exact .inr ⟨⟨entry, by simpa using hp, hfull⟩, by simpa [State.Overfull] using hover⟩
  | recvOk received =>
    simp only [step] at h
    split_ifs at h
    cases h
    obtain ⟨-, -, hfull'⟩ := hover
    exact .inr ⟨⟨entry, by simpa using hp, hfull⟩, by simpa using hsend, hfull'⟩
  | recvFails =>
    simp only [step] at h
    split_ifs at h
    cases h
    exact absurd hover (not_overfull_of_ended (by simp))

lemma State.Served.step (hs : s.Served) (hc : Careful s a) (h : step s a = some s') :
    s'.Served where
  kept := kept_step hs.kept h
  log := fun hdone hq => by
    rcases starving_of_step hs.kept.inv h hq with hstarving | ⟨rfl, -, hflag, -⟩
    · rcases done_of_step h hdone with hdone | ⟨rfl, hhead⟩
      · exact hs.log hdone hstarving
      · exact hc.1.1 hhead hstarving
    · rcases done_of_step h hdone with hdone | ⟨hmain, -⟩
      · have hcleared := hs.kept.inv.cleared .log (by decide) hdone
        exact absurd (hcleared.symm.trans hflag) Bool.false_ne_true
      · cases hmain
  send := fun hdone hq => by
    rcases starving_of_step hs.kept.inv h hq with hstarving | ⟨rfl, hloop, hflag, hnil⟩
    · rcases done_of_step h hdone with hdone | ⟨rfl, hhead⟩
      · exact hs.send hdone hstarving
      · exact hc.1.2 hhead hstarving
    · rcases done_of_step h hdone with hdone | ⟨hmain, -⟩
      · exact hc.1 hdone hloop hflag hnil
      · cases hmain
  recv := fun hended ho => by
    rcases overfull_of_step hs.kept.inv h ho with hover | ⟨⟨entry, rfl⟩, hfull⟩
    · rcases ended_of_step h hended with hended | ⟨rfl, hloop, hflag⟩
      · exact hs.recv hended hover
      · exact hc.1 hloop hflag hover
    · rcases ended_of_step h hended with hended | ⟨hmain, -⟩
      · exact absurd (hc.1 hended) (Nat.not_lt.mpr hfull)
      · cases hmain
  circle := fun hdone hcircle => by
    rcases circle_of_step hs.kept h hcircle with hcircle' | hcloses
    · rcases done_of_step h hdone with hdone | ⟨rfl, hhead⟩
      · exact hs.circle hdone hcircle'
      · exact hc.2 ⟨hhead, hcircle'⟩
    · exact hc.2 hcloses

lemma served_of_started (h : s.Started) : s.Served where
  kept := ⟨inv_of_started h, fun _ => h.coherent⟩
  log := fun hc => absurd hc (by rw [h.main]; decide)
  send := fun hc => absurd hc (by rw [h.main]; decide)
  recv := fun hended => absurd hended (h.running .msgProc (by decide)).1
  circle := fun hc => absurd hc (by rw [h.main]; decide)

lemma State.Inv.head_of_awaits (hi : s.Inv) (h : s.Awaits t) (ht : ¬ Restarted t) :
    s.main.head? = some (.join t) := by
  rcases h with hhead | ⟨-, hwatch⟩
  · exact hhead
  · have hw := hi.fits .watchDog
    rw [hwatch] at hw
    exact absurd hw.2 ht

lemma State.Served.not_stuck (hs : s.Served) : ¬ s.Stuck := by
  have hi := hs.kept.inv
  have hord := hi.ordered
  have hended (t : Thread) (ht : t ≠ .msgProc) (hhead : s.main.head? = some (.join t)) :
      s.place .msgProc = .ended := hi.joined .msgProc (hord.processed t ht hhead)
  rintro ⟨t, hawaits, ⟨q, hp, hnil, hleft⟩ | ⟨q, entry, hp, hfull, hleft⟩⟩
  · -- waiting on an empty queue
    have ht : t = consumer q := by
      have := hi.fits t
      rwa [hp] at this
    subst ht
    cases q with
    | recvQueue =>
      have hhead := hi.head_of_awaits hawaits (by decide)
      have hrun : s.place .msgProc ≠ .ended := by
        intro he
        rw [consumer, he] at hp
        cases hp
      exact hleft .recv List.mem_cons_self (recv_left (hs.kept.watched hrun) (hord.kept hhead))
    | logQueue =>
      have hhead := hi.head_of_awaits hawaits (by decide)
      exact hs.log (hord.cleared .log hhead) ⟨hp, hnil⟩
    | sendQueue =>
      have hdone : .clear .send ∉ s.main := by
        rcases hawaits with hhead | ⟨hhead, -⟩
        · exact hord.cleared .send hhead
        · exact hord.awaited hhead
      exact hs.send hdone ⟨hp, hnil⟩
  · -- waiting on a full queue
    have ht : t ∈ producers q := by
      have := hi.fits t
      rwa [hp] at this
    cases q with
    | recvQueue =>
      obtain rfl := List.mem_singleton.mp ht
      have hmsgProc : s.place .msgProc = .ended := by
        rcases hawaits with hhead | ⟨hhead, -⟩
        · exact hended .recv (by decide) hhead
        · exact hended .watchDog (by decide) hhead
      exact hs.recv hmsgProc ⟨entry, hp, hfull⟩
    | logQueue =>
      obtain rfl := List.mem_singleton.mp ht
      have hhead := List.mem_of_mem_head? (hi.head_of_awaits hawaits (by decide))
      exact hleft (log_left hi (hord.logged hhead).1)
    | sendQueue =>
      have hne : ¬ Restarted t ∧ t ≠ .watchDog := by
        simp only [producers, List.mem_cons, List.not_mem_nil, or_false] at ht
        rcases ht with rfl | rfl | rfl <;> decide
      have hhead := hi.head_of_awaits hawaits hne.1
      have hc := hord.watched t hne.1 hne.2 (List.mem_of_mem_head? hhead)
      refine hleft (send_left ⟨hi, hs.kept.coherent hc, hc⟩ fun hsend hover => ?_)
      by_cases hm : t = .msgProc
      · subst hm
        exact hs.circle (hord.cleared .msgProc hhead) ⟨⟨entry, hp, hfull⟩, hsend, hover⟩
      · exact hs.recv (hended t hm hhead) hover

/-- A shutdown with careful steps only is never stuck. -/
theorem not_stuck_of_careful (hs : s.Started) (hall : AllSteps step Careful s actions)
    (hrun : run step s actions = some s') : ¬ s'.Stuck :=
  (inv_run (fun _ _ _ hserved hc h => hserved.step hc h) (served_of_started hs) hall hrun).not_stuck

/-- A thread waits for ever: on an empty queue whose producers have ended, with a message
for a full one whose consumer has, or in a circle; main has still to join it. -/
def State.Doomed (s : State) : Prop :=
  (∃ q, q ≠ .recvQueue ∧ s.Starving q ∧ (∀ u ∈ producers q, s.place u = .ended) ∧
    .join (consumer q) ∈ s.main) ∨
  (s.Overfull ∧ s.place .msgProc = .ended ∧ .join .recv ∈ s.main) ∨
  (s.Circle ∧ .join .msgProc ∈ s.main)

lemma join_stays (h : step s a = some s') (hj : .join t ∈ s.main) (ht : s.place t ≠ .ended) :
    .join t ∈ s'.main := by
  by_contra hn
  rcases done_of_step h hn with hn | ⟨rfl, hhead⟩
  · exact hn hj
  · simp only [step] at h
    split at h
    · cases h
    · rename_i hmain
      rw [hmain] at hhead
      cases hhead
    · rename_i hmain
      rw [hmain] at hhead
      cases hhead
      rw [if_neg ht] at h
      cases h

lemma not_restarted_of_producer (hq : q ≠ .recvQueue) {u : Thread} (hu : u ∈ producers q) :
    ¬ Restarted u := by
  cases q with
  | recvQueue => exact absurd rfl hq
  | logQueue | sendQueue =>
    simp only [producers, List.mem_cons, List.not_mem_nil, or_false] at hu
    rcases hu with rfl | rfl | rfl <;> decide

lemma starving_stays (hi : s.Inv) (h : step s a = some s') (hs : s.Starving q)
    (hq : q ≠ .recvQueue) (hp : ∀ u ∈ producers q, s.place u = .ended) : s'.Starving q := by
  obtain ⟨hplace, hnil⟩ := hs
  cases a with
  | main =>
    obtain ⟨hplace', hqueue, -⟩ := main_frame h
    rw [State.Starving, hplace', hqueue]
    exact ⟨hplace, hnil⟩
  | advance t =>
    have hm := move_of_advance h
    have hne : consumer q ≠ t := by
      rintro rfl
      cases hm <;> simp_all
    refine ⟨?_, hm.stays_nil hi.fits hnil hp⟩
    rw [hm.place_eq hne (by rw [hplace]; simp), hplace]
  | writeFails =>
    simp only [step] at h
    split_ifs at h with hw
    cases h
    have hne : consumer q ≠ .send := by
      intro hc
      rw [hc, hw] at hplace
      cases hplace
    exact ⟨by simpa [hne] using hplace, hnil⟩
  | recvOk entry | recvFails =>
    simp only [step] at h
    split_ifs at h with hw
    cases h
    have hne : consumer q ≠ .recv := by cases q <;> decide
    exact ⟨by simpa [hne] using hplace, hnil⟩

lemma overfull_stays (hi : s.Inv) (h : step s a = some s') (ho : s.Overfull)
    (hm : s.place .msgProc ≠ .dequeuing .recvQueue) : s'.Overfull := by
  obtain ⟨entry, hplace, hfull⟩ := ho
  cases a with
  | main =>
    obtain ⟨hplace', hqueue, -⟩ := main_frame h
    exact ⟨entry, by rw [hplace', hplace], by rw [hqueue]; exact hfull⟩
  | advance t =>
    have hmove := move_of_advance h
    have hne : .recv ≠ t := by
      rintro rfl
      cases hmove <;> simp_all
      omega
    refine ⟨entry, ?_, hfull.trans (hmove.length_le hi.fits hm)⟩
    rw [hmove.place_eq hne (by rw [hplace]; simp), hplace]
  | writeFails =>
    simp only [step] at h
    split_ifs at h
    cases h
    exact ⟨entry, by simpa using hplace, hfull⟩
  | recvOk received | recvFails =>
    simp only [step] at h
    split_ifs at h with hw
    rw [hw] at hplace
    cases hplace

/-- Nobody in the circle gets on, and the watchdog does not come to start the send thread. -/
lemma circle_stays (hk : s.Kept) (h : step s a = some s') (hc : s.Circle) : s'.Circle := by
  obtain ⟨⟨entry, hplace, hfull⟩, hsend, hover⟩ := hc
  have hover' : s'.Overfull := overfull_stays hk.inv h hover (by rw [hplace]; simp)
  have hwatched := hk.watched (by rw [hplace]; simp)
  cases a with
  | main =>
    obtain ⟨hplace', hqueue, -⟩ := main_frame h
    exact ⟨⟨entry, hplace' ▸ hplace, hqueue ▸ hfull⟩, hplace' ▸ hsend, hover'⟩
  | advance t =>
    have hm := move_of_advance h
    have hne : .msgProc ≠ t := by
      rintro rfl
      cases hm <;> simp_all
      omega
    have hstart : s.place .watchDog ≠ .starting .send := by
      intro hw
      have hrecv := hwatched.coherent.joined .recv (.inr rfl) (by rw [hw]; rfl)
      exact not_overfull_of_ended hrecv hover
    refine ⟨⟨entry, ?_, hfull.trans (hm.length_le hk.inv.fits (by simp [consumer, hsend]))⟩,
      hm.stays_ended hk.inv.fits hsend fun _ => hstart, hover'⟩
    rw [hm.place_eq hne (by rw [hplace]; simp), hplace]
  | writeFails =>
    simp only [step] at h
    split_ifs at h with hw
    rw [hsend] at hw
    cases hw
  | recvOk received | recvFails =>
    simp only [step] at h
    split_ifs at h
    cases h
    exact ⟨⟨entry, by simpa using hplace, hfull⟩, by simpa using hsend, hover'⟩

lemma State.Doomed.step (hk : s.Kept) (hd : s.Doomed) (h : step s a = some s') : s'.Doomed := by
  have hi := hk.inv
  rcases hd with ⟨q, hq, hs, hp, hj⟩ | ⟨ho, hended, hj⟩ | ⟨hc, hj⟩
  · have hwaits : s.place (consumer q) ≠ .ended := by rw [hs.1]; simp
    exact .inl ⟨q, hq, starving_stays hi h hs hq hp, fun u hu => stays_ended_of_step hi h (hp u hu)
      (not_restarted_of_producer hq hu), join_stays h hj hwaits⟩
  · have hwaits : s.place .recv ≠ .ended := by
      obtain ⟨entry, hplace, -⟩ := ho
      rw [hplace]
      simp
    exact .inr (.inl ⟨overfull_stays hi h ho (by rw [hended]; simp),
      stays_ended_of_step hi h hended (by decide), join_stays h hj hwaits⟩)
  · have hwaits : s.place .msgProc ≠ .ended := by
      obtain ⟨⟨entry, hplace, -⟩, -, -⟩ := hc
      rw [hplace]
      simp
    exact .inr (.inr ⟨circle_stays hk h hc, join_stays h hj hwaits⟩)

lemma doomed_run (hk : s.Kept) (hd : s.Doomed) (h : run step s actions = some s') :
    s'.Doomed :=
  (@inv_of_run _ _ step s s' actions (fun s => s.Kept ∧ s.Doomed)
    (fun _ _ _ hinv h => ⟨kept_step hinv.1 h, hinv.2.step hinv.1 h⟩) ⟨hk, hd⟩ h).2

/-- An instruction that main has just cleared the flag for is followed by the join. -/
lemma join_mem_of_clear (hi : s.Inv) (h : step s .main = some s')
    (hhead : s.main.head? = some (.clear t)) : .join t ∈ s'.main := by
  obtain ⟨-, -, instr, hmain⟩ := main_frame h
  have hj := hi.ordered.join_of_clear t (List.mem_of_mem_head? hhead)
  rw [hmain] at hhead hj
  cases hhead
  simpa using hj

/-- An untimely step dooms a thread. -/
lemma doomed_of_untimely (hi : s.Inv) (hnot : ¬ Timely s a) (h : step s a = some s') :
    s'.Doomed := by
  have hord := hi.ordered
  cases a with
  | main =>
    obtain ⟨hplace, hqueue, -⟩ := main_frame h
    have hstarving (q : Queue) : s'.Starving q ↔ s.Starving q := by
      rw [State.Starving, State.Starving, hplace, hqueue]
    simp only [Timely, not_and_or, Classical.not_imp, not_not] at hnot
    rcases hnot with ⟨hhead, hs⟩ | ⟨hhead, hs⟩
    · refine .inl ⟨.logQueue, by decide, (hstarving _).mpr hs, fun u hu => ?_,
        join_mem_of_clear hi h hhead⟩
      obtain rfl := List.mem_singleton.mp hu
      rw [hplace]
      exact hi.joined _ (hord.written (.inr hhead))
    · refine .inl ⟨.sendQueue, by decide, (hstarving _).mpr hs, fun u hu => ?_,
        join_mem_of_clear hi h hhead⟩
      rw [hplace]
      exact hi.joined _ (hord.sent (.inr hhead) u hu)
  | advance t =>
    cases t with
    | send =>
      simp only [Timely, Classical.not_imp, not_not] at hnot
      obtain ⟨hdone, hloop, hflag, hnil⟩ := hnot
      have hj : .join .send ∈ s.main := hi.join_mem (by simp [hloop])
      simp only [step, State.advance, hloop, hflag] at h
      cases h
      refine .inl ⟨.sendQueue, by decide, ⟨by simp [first, consumer], hnil⟩, fun u hu => ?_, hj⟩
      have hu' : u ≠ .send := by
        rintro rfl
        exact absurd hu (by decide)
      simpa [hu'] using hi.joined u (hord.sent (.inl hdone) u hu)
    | msgProc =>
      simp only [Timely, Classical.not_imp, not_not] at hnot
      obtain ⟨hloop, hflag, entry, hplace, hfull⟩ := hnot
      have hj : .join .msgProc ∈ s.main := hi.join_mem (by simp [hloop])
      simp only [step, State.advance, hloop, hflag] at h
      cases h
      exact .inr (.inl ⟨⟨entry, by simpa using hplace, hfull⟩, by simp, (hord.logged hj).2⟩)
    | _ => exact absurd trivial hnot
  | recvOk entry =>
    simp only [Timely, Classical.not_imp, Nat.not_lt] at hnot
    obtain ⟨hended, hfull⟩ := hnot
    simp only [step] at h
    split_ifs at h with hw
    cases h
    have hj : .join .recv ∈ s.main := hi.join_mem (by simp [hw])
    exact .inr (.inl ⟨⟨entry, by simp, hfull⟩, by simpa using hended, hj⟩)
  | writeFails | recvFails => exact absurd trivial hnot

lemma circle_of_fills (hne : t ≠ .msgProc ∧ t ≠ .send ∧ t ≠ .recv) (hf : s.Fills t)
    (h : step s (.advance t) = some s') : s'.Circle := by
  obtain ⟨⟨message, hput⟩, hlen, ⟨entry, hplace⟩, hsend, received, hrecv, hfull⟩ := hf
  simp only [step, State.advance, hput] at h
  split_ifs at h
  cases h
  have h₁ := Ne.symm hne.1
  have h₂ := Ne.symm hne.2.1
  have h₃ := Ne.symm hne.2.2
  exact ⟨⟨entry, by simpa [h₁] using hplace, by simpa using hlen⟩, by simpa [h₂] using hsend,
    received, by simpa [h₃] using hrecv, by simpa using hfull⟩

/-- A step that closes the circle dooms `msgProc`. -/
lemma doomed_of_closes (hi : s.Inv) (hc : Closes s a) (h : step s a = some s') : s'.Doomed := by
  have hjoin (entry : Entry) (hp : s.place .msgProc = .enqueuing .sendQueue entry) :
      .join .msgProc ∈ s.main := hi.join_mem (by rw [hp]; simp)
  cases a with
  | main =>
    obtain ⟨hhead, ⟨entry, hplace, hfull⟩, hsend, hover⟩ := hc
    obtain ⟨hplace', hqueue, -⟩ := main_frame h
    rw [State.Overfull, ← hplace', ← hqueue] at hover
    exact .inr (.inr ⟨⟨⟨entry, hplace' ▸ hplace, hqueue ▸ hfull⟩, hplace' ▸ hsend, hover⟩,
      join_mem_of_clear hi h hhead⟩)
  | advance t =>
    have hmain := (move_of_advance h).main_eq
    cases t with
    | msgProc =>
      obtain ⟨hplace, hfull, hsend, entry, hrecv, hfull'⟩ := hc
      have hj : .join .msgProc ∈ s.main := hi.join_mem (by rw [hplace]; simp)
      simp only [step, State.advance, hplace, handled] at h
      cases h
      exact .inr (.inr ⟨⟨⟨.frame, by simp, hfull⟩, by simpa using hsend, entry,
        by simpa using hrecv, hfull'⟩, hj⟩)
    | keepalive | statusReport =>
      obtain ⟨entry, hplace⟩ := hc.2.2.1
      exact .inr (.inr ⟨circle_of_fills (by decide) hc h, hmain ▸ hjoin entry hplace⟩)
    | _ => exact hc.elim
  | writeFails =>
    obtain ⟨⟨entry, hplace, hfull⟩, received, hrecv, hfull'⟩ := hc
    simp only [step] at h
    split_ifs at h
    cases h
    exact .inr (.inr ⟨⟨⟨entry, by simpa using hplace, hfull⟩, by simp, received,
      by simpa using hrecv, hfull'⟩, hjoin entry hplace⟩)
  | recvOk received =>
    obtain ⟨⟨entry, hplace, hfull⟩, hsend, hfull'⟩ := hc
    simp only [step] at h
    split_ifs at h
    cases h
    exact .inr (.inr ⟨⟨⟨entry, by simpa using hplace, hfull⟩, by simpa using hsend, received,
      by simp, hfull'⟩, hjoin entry hplace⟩)
  | recvFails => exact hc.elim

/-- A careless step dooms a thread. -/
lemma doomed_of_careless (hi : s.Inv) (hnot : ¬ Careful s a) (h : step s a = some s') :
    s'.Doomed := by
  by_cases ht : Timely s a
  · have hc : Closes s a := by
      by_contra hn
      exact hnot ⟨ht, hn⟩
    exact doomed_of_closes hi hc h
  · exact doomed_of_untimely hi ht h

/-- Main gets through the destructors by careful steps only. -/
theorem careful_of_returned (hs : s.Started) (hrun : run step s actions = some s')
    (hend : s'.main = []) : AllSteps step Careful s actions := by
  have hk := (served_of_started hs).kept
  clear hs
  induction actions generalizing s with
  | nil => trivial
  | cons a actions ih =>
    obtain ⟨s₁, h₁, hrun⟩ := run_cons_eq_some.mp hrun
    refine (allSteps_cons h₁).mpr ⟨?_, ih hrun (kept_step hk h₁)⟩
    by_contra hnot
    have hdoomed := doomed_run (kept_step hk h₁) (doomed_of_careless hk.inv hnot h₁) hrun
    rcases hdoomed with ⟨q, -, -, -, hj⟩ | ⟨-, -, hj⟩ | ⟨-, hj⟩
    · rw [hend] at hj
      cases hj
    · rw [hend] at hj
      cases hj
    · rw [hend] at hj
      cases hj

/-- Main waits for a log thread that waits for entries when `msgProc` has ended. -/
lemma stuck_of_starving (hi : s.Inv) (hhead : s.main.head? = some (.join .log))
    (hs : s.Starving .logQueue) (hp : s.place .msgProc = .ended) : s.Stuck := by
  refine ⟨.log, .inl hhead, .inl ⟨.logQueue, hs.1, hs.2, fun u hu => ?_⟩⟩
  obtain rfl := List.mem_singleton.mp hu
  refine not_leads (fun s => s.Inv ∧ s.place .msgProc = .ended) ?_ ?_ ⟨hi, hp⟩
  · rintro s a s' ⟨hi, hp⟩ h
    exact ⟨hi.step h, stays_ended_of_step hi h hp (by decide)⟩
  · rintro s ⟨-, hp⟩ (hd | ⟨entry, he⟩)
    · rw [hp] at hd
      cases hd
    · rw [hp] at he
      cases he

/-- Main waits for `msgProc`, and that in a circle. -/
theorem stuck_of_circle (hk : s.Kept) (hhead : s.main.head? = some (.join .msgProc))
    (hc : s.Circle) : s.Stuck := by
  obtain ⟨⟨entry, hp, hfull⟩, -⟩ := id hc
  refine ⟨.msgProc, .inl hhead, .inr ⟨.sendQueue, entry, hp, hfull, ?_⟩⟩
  refine not_leads (fun s => s.Kept ∧ s.Circle) ?_ ?_ ⟨hk, hc⟩
  · rintro s a s' ⟨hk, hc⟩ h
    exact ⟨kept_step hk h, circle_stays hk h hc⟩
  · rintro s ⟨-, -, hsend, -⟩ (hd | ⟨entry, he⟩)
    · rw [consumer, hsend] at hd
      cases hd
    · rw [consumer, hsend] at he
      cases he

/-- Every thread is at the test of its flag, save the two that wait for entries. -/
def busy : State where
  main := shutdown
  runFlag := fun _ => true
  place
    | .log => .dequeuing .logQueue
    | .send => .dequeuing .sendQueue
    | _ => .loop
  connErrFlag := false
  queue
    | .recvQueue => []
    | .logQueue => [.line]
    | .sendQueue => [.frame]

lemma busy_started : busy.Started where
  main := rfl
  fits := fun t => by cases t <;> simp [possible, busy, consumer]
  running := fun t ht => by cases t <;> simp_all [busy, Restarted]
  coherent := coherent_iff.mpr (by
    simp [busy, flagAt, joinedAt, State.reported, State.Broken])

/-- A shutdown of `busy` in which the log thread and the send thread take their entries
after main has cleared their flags. -/
def orderly : List Action :=
  [.main, .advance .msgProc, .main, .main, .advance .keepalive, .main, .main,
    .advance .statusReport, .main, .main, .advance .rotate, .main, .main, .advance .log,
    .advance .log, .advance .log, .main, .main, .main, .main, .advance .watchDog, .main,
    .advance .send, .advance .send, .advance .send, .main, .advance .recv, .main]

theorem not_stuck_of_careful_busy :
    busy.Started ∧ AllSteps step Careful busy orderly ∧
      ∃ s', run step busy orderly = some s' ∧ s'.main = [] ∧ ¬ s'.Stuck := by
  have hall : AllSteps step Careful busy orderly := by decide +kernel
  exact ⟨busy_started, hall, _, rfl, rfl, not_stuck_of_careful busy_started hall rfl⟩

/-- Nothing is to be done: three threads wait on empty queues. -/
def idle : State where
  main := shutdown
  runFlag := fun _ => true
  place
    | .msgProc => .dequeuing .recvQueue
    | .log => .dequeuing .logQueue
    | .send => .dequeuing .sendQueue
    | _ => .working
  connErrFlag := false
  queue := fun _ => []

/-- A last message lets `msgProc` end; then main comes to clear the flag of the log
thread. -/
def lastMessage : List Action :=
  [.main, .recvOk .other, .advance .recv, .advance .msgProc, .advance .msgProc,
    .advance .msgProc, .main, .main, .advance .keepalive, .advance .keepalive, .main, .main,
    .advance .statusReport, .advance .statusReport, .advance .statusReport, .main, .main,
    .advance .rotate, .advance .rotate, .main, .main]

lemma idle_started : idle.Started where
  main := rfl
  fits := fun t => by cases t <;> simp [possible, idle, consumer]
  running := fun t ht => by cases t <;> simp_all [idle, Restarted]
  coherent := coherent_iff.mpr (by
    simp [idle, flagAt, joinedAt, State.reported, State.Broken])

/-- Main waits for the log thread, and that for an entry nobody is left to make. -/
theorem stuck_at_log :
    idle.Started ∧ ∃ s', run step idle lastMessage = some s' ∧ s'.Stuck := by
  have hend : (run step idle lastMessage).any (fun s => decide (s.main.head? = some (.join .log) ∧
      s.Starving .logQueue ∧ s.place .msgProc = .ended)) = true := by
    decide +kernel
  obtain ⟨s', hrun, hs⟩ := (Option.any_eq_true _ _).mp hend
  obtain ⟨hhead, hstarving, hended⟩ := of_decide_eq_true hs
  have hi : s'.Inv :=
    inv_of_run (fun _ _ _ hi h => hi.step h) (inv_of_started idle_started) hrun
  exact ⟨idle_started, s', hrun, stuck_of_starving hi hhead hstarving hended⟩

end Runs

end JwtRevoker.Shutdown
