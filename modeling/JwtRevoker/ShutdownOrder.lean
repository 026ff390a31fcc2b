import JwtRevoker.Shutdown

/-!
# The order of the destructors

What every step of the shutdown keeps: main has cleared the flags and joined the threads
that its destructors have come to, and no others. The order of the destructors says which
threads are then still alive.
-/
namespace JwtRevoker.Shutdown

open StepRuns
open ThreadSafeQueue (queueDefaultMaxSize)

/-- What holds in every state of the shutdown. -/
structure State.Inv (s : State) : Prop where
  fits : ∀ t, possible t (s.place t)
  suffix : s.main <:+ shutdown
  alive : ∀ t, ¬ Restarted t → .clear t ∈ s.main → s.place t ≠ .ended ∧ s.runFlag t = true
  cleared : ∀ t, ¬ Restarted t → .clear t ∉ s.main → s.runFlag t = false
  joined : ∀ t, .join t ∉ s.main → s.place t = .ended

/-- The receive thread has a message that does not fit into `recvQueue`. -/
def State.Overfull (s : State) : Prop :=
  ∃ entry, s.place .recv = .enqueuing .recvQueue entry ∧
    queueDefaultMaxSize ≤ (s.queue .recvQueue).length

instance (s : State) : Decidable s.Overfull :=
  inferInstanceAs (Decidable (∃ _ : Entry, _))

section Order

variable {s s' : State} {a : Action} {t : Thread} {q : Queue}

/-- What the order of the destructors says of any rest of them. -/
structure Ordered (main : List Instr) : Prop where
  nodup : main.Nodup
  join_of_clear : ∀ t, .clear t ∈ main → .join t ∈ main
  cleared : ∀ t, main.head? = some (.join t) → .clear t ∉ main
  watched : ∀ t, ¬ Restarted t → t ≠ .watchDog → .join t ∈ main → .clear .watchDog ∈ main
  logged : .join .msgProc ∈ main → .clear .log ∈ main ∧ .join .recv ∈ main
  restarted : .join .watchDog ∈ main → .join .send ∈ main ∧ .join .recv ∈ main
  awaited : main.head? = some (.join .watchDog) → .clear .send ∉ main
  restarts : ∀ t, Restarted t → main.head? = some (.clear t) → .clear .watchDog ∉ main
  kept : main.head? = some (.join .msgProc) → .clear .keepalive ∈ main
  processed : ∀ t, t ≠ .msgProc → main.head? = some (.join t) → .join .msgProc ∉ main
  sent : .clear .send ∉ main ∨ main.head? = some (.clear .send) →
    ∀ u ∈ producers .sendQueue, .join u ∉ main
  written : .clear .log ∉ main ∨ main.head? = some (.clear .log) → .join .msgProc ∉ main

lemma ordered_of_suffix {main : List Instr} (h : main <:+ shutdown) : Ordered main := by
  rw [← List.mem_tails] at h
  refine ⟨?_, ?_, ?_, ?_, ?_, ?_, ?_, ?_, ?_, ?_, ?_, ?_⟩ <;> revert main <;> decide

lemma inv_of_started (h : s.Started) : s.Inv where
  fits := h.fits
  suffix := h.main ▸ List.suffix_refl _
  alive := fun t ht _ => h.running t ht
  cleared := fun t _ hc => by
    rw [h.main] at hc
    exact absurd hc (by cases t <;> decide)
  joined := fun t hj => by
    rw [h.main] at hj
    exact absurd hj (by cases t <;> decide)

lemma State.Inv.ordered (hi : s.Inv) : Ordered s.main := ordered_of_suffix hi.suffix

/-- A thread that has not ended is still to be joined. -/
lemma State.Inv.join_mem (hi : s.Inv) (ht : s.place t ≠ .ended) : .join t ∈ s.main := by
  by_contra hn
  exact ht (hi.joined t hn)

/-- What main does leaves the threads and the queues as they are. -/
lemma main_frame (h : step s .main = some s') :
    s'.place = s.place ∧ s'.queue = s.queue ∧ ∃ instr, s.main = instr :: s'.main := by
  simp only [step] at h
  split at h
  · cases h
  · rename_i t rest hmain
    cases h
    exact ⟨rfl, rfl, _, hmain⟩
  · rename_i t rest hmain
    split_ifs at h
    cases h
    exact ⟨rfl, rfl, _, hmain⟩

lemma main_eq_of_step (h : step s a = some s') (ha : a ≠ .main) : s'.main = s.main := by
  cases a with
  | main => exact absurd rfl ha
  | advance t => exact (move_of_advance h).main_eq
  | writeFails | recvOk entry | recvFails =>
    simp only [step] at h
    split_ifs at h
    cases h
    rfl

lemma State.Inv.main_step (hi : s.Inv) (h : step s .main = some s') : s'.Inv := by
  have hnodup := hi.ordered.nodup
  cases hmain : s.main with
  | nil =>
    simp only [step, hmain] at h
    cases h
  | cons instr rest =>
    have hrest : rest <:+ shutdown := (hmain ▸ List.suffix_cons instr rest).trans hi.suffix
    rw [hmain, List.nodup_cons] at hnodup
    cases instr with
    | clear t =>
      simp only [step, hmain, Option.some.injEq] at h
      subst h
      refine ⟨hi.fits, hrest, ?_, ?_, ?_⟩
      · intro u hu hc
        have hut : u ≠ t := by
          rintro rfl
          exact hnodup.1 hc
        have := hi.alive u hu (hmain ▸ List.mem_cons_of_mem _ hc)
        simpa [hut] using this
      · intro u hu hc
        by_cases hut : u = t
        · simp [hut]
        · have := hi.cleared u hu (by simpa [hmain, hut] using hc)
          simpa [hut] using this
      · intro u hj
        exact hi.joined u (by simpa [hmain] using hj)
    | join t =>
      simp only [step, hmain] at h
      split_ifs at h with hended
      cases h
      refine ⟨hi.fits, hrest, ?_, ?_, ?_⟩
      · intro u hu hc
        exact hi.alive u hu (hmain ▸ List.mem_cons_of_mem _ hc)
      · intro u hu hc
        exact hi.cleared u hu (by simpa [hmain] using hc)
      · intro u hj
        by_cases hut : u = t
        · exact hut ▸ hended
        · exact hi.joined u (by simpa [hmain, hut] using hj)

lemma State.Inv.move (hi : s.Inv) (hm : Move s t s') : s'.Inv := by
  have hmain := hm.main_eq
  refine ⟨hm.fits hi.fits, hmain ▸ hi.suffix, ?_, ?_, ?_⟩
  · intro u hu hc
    rw [hmain] at hc
    obtain ⟨hplace, hflag⟩ := hi.alive u hu hc
    rw [hm.runFlag_eq hi.fits hu]
    refine ⟨?_, hflag⟩
    intro hended
    rcases hm.ended hended with h | ⟨-, -, h⟩
    · exact hplace h
    · rw [hflag] at h
      cases h
  · intro u hu hc
    rw [hm.runFlag_eq hi.fits hu]
    exact hi.cleared u hu (hmain ▸ hc)
  · intro u hj
    rw [hmain] at hj
    refine hm.stays_ended hi.fits (hi.joined u hj) ?_
    intro hu
    have hwatchDog : s.place .watchDog = .ended := by
      refine hi.joined .watchDog fun hw => ?_
      obtain ⟨hsend, hrecv⟩ := hi.ordered.restarted hw
      rcases hu with rfl | rfl
      · exact hj hsend
      · exact hj hrecv
    rw [hwatchDog]
    simp

/-- Steps of the network move only the send or the receive thread. -/
lemma State.Inv.goto (hi : s.Inv) {p : Place} (b : Bool) (ht : Restarted t) (hp : possible t p)
    (hworking : s.place t = .working) : { s.goto t p with connErrFlag := b }.Inv := by
  refine ⟨fits_goto hi.fits hp, hi.suffix, ?_, hi.cleared, ?_⟩
  · intro u hu hc
    have hut : u ≠ t := by
      rintro rfl
      exact hu ht
    simpa [hut] using hi.alive u hu hc
  · intro u hj
    have hended := hi.joined u hj
    have hut : u ≠ t := by
      rintro rfl
      rw [hworking] at hended
      cases hended
    simpa [hut] using hended

lemma State.Inv.step (hi : s.Inv) (h : step s a = some s') : s'.Inv := by
  cases a with
  | main => exact hi.main_step h
  | advance t => exact hi.move (move_of_advance h)
  | writeFails =>
    simp only [Shutdown.step] at h
    split_ifs at h with hp
    cases h
    exact hi.goto true (.inl rfl) trivial hp
  | recvOk entry =>
    simp only [Shutdown.step] at h
    split_ifs at h with hp
    cases h
    exact hi.goto s.connErrFlag (.inr rfl) List.mem_cons_self hp
  | recvFails =>
    simp only [Shutdown.step] at h
    split_ifs at h with hp
    cases h
    exact hi.goto true (.inr rfl) trivial hp

/-- A message does not fit only when it did not before, or comes from the network. -/
lemma overfull_of_step (hi : s.Inv) (h : step s a = some s') (ho : s'.Overfull) :
    s.Overfull ∨ (∃ entry, a = .recvOk entry) ∧
      queueDefaultMaxSize ≤ (s.queue .recvQueue).length := by
  obtain ⟨entry, hp, hfull⟩ := ho
  cases a with
  | main =>
    obtain ⟨hplace, hqueue, -⟩ := main_frame h
    rw [hplace] at hp
    rw [hqueue] at hfull
    exact .inl ⟨entry, hp, hfull⟩
  | advance t =>
    have hm := move_of_advance h
    obtain ⟨ht, hp⟩ := hm.recv_enqueuing hi.fits hp
    rcases hm.length_cases hi.fits (q := .recvQueue) with hlen | ⟨hprod, -⟩
    · exact .inl ⟨entry, hp, hfull.trans hlen⟩
    · exact absurd (List.mem_singleton.mp hprod) ht
  | writeFails =>
    simp only [step] at h
    split_ifs at h
    cases h
    exact .inl ⟨entry, by simpa using hp, hfull⟩
  | recvOk received =>
    simp only [step] at h
    split_ifs at h
    cases h
    exact .inr ⟨⟨received, rfl⟩, hfull⟩
  | recvFails =>
    simp only [step] at h
    split_ifs at h
    cases h
    simp at hp

/-- An instruction is done only by main, when it is the next. -/
lemma done_of_step {instr : Instr} (h : step s a = some s') (hi : instr ∉ s'.main) :
    instr ∉ s.main ∨ a = .main ∧ s.main.head? = some instr := by
  cases a with
  | main =>
    obtain ⟨-, -, next, hmain⟩ := main_frame h
    rw [hmain]
    by_cases hn : instr = next
    · exact .inr ⟨rfl, by simp [hn]⟩
    · exact .inl (by simp [hn, hi])
  | advance t => exact .inl ((move_of_advance h).main_eq ▸ hi)
  | writeFails | recvOk entry | recvFails =>
    simp only [step] at h
    split_ifs at h
    cases h
    exact .inl hi

lemma stays_ended_of_step (hi : s.Inv) (h : step s a = some s') (hp : s.place t = .ended)
    (ht : ¬ Restarted t) : s'.place t = .ended := by
  cases a with
  | main => rw [(main_frame h).1, hp]
  | advance u => exact (move_of_advance h).stays_ended hi.fits hp fun hu => absurd hu ht
  | writeFails | recvOk entry | recvFails =>
    simp only [Restarted, not_or] at ht
    simp only [step] at h
    split_ifs at h
    cases h
    simp [ht, hp]

end Order

end JwtRevoker.Shutdown
