import JwtRevoker.ThreadSafeQueue

/-!
# The order of each producer

The values of different producers mix in the queue as the threads happen to get the
mutex. What the consumer takes of one producer's values comes in the order of that
producer's calls, with none lost and none twice, however many producers there are.
-/
namespace JwtRevoker.ThreadSafeQueue

open StepRuns

variable {ι α : Type*} [Fintype ι] [DecidableEq ι]

/-- The value of a call that has not finished. -/
def Producer.pending : Producer α → List α
  | .outside => []
  | .awake value => [value]
  | .asleep value => [value]

/-- The value with which a step begins a call of the producer. -/
def callOf (i : ι) : Action ι α → Option α
  | .callEnqueue j value => if j = i then some value else none
  | _ => none

/-- `owner` tells the producer of every value of the run. -/
def Owned (owner : α → ι) (actions : List (Action ι α)) : Prop :=
  ∀ i value, .callEnqueue i value ∈ actions → owner value = i

/-- The values of the producer. -/
def valuesOf (owner : α → ι) (i : ι) (values : List α) : List α :=
  values.filter fun value => owner value = i

/-- Every call of a producer has its value in one place, in the order of the calls. -/
structure CallsInOrder (owner : α → ι) (calls : ι → List α) (s : State ι α) : Prop where
  order : s.dequeued ++ s.queue = s.enqueued
  owned : ∀ i, ∀ value ∈ (s.producers i).pending, owner value = i
  calls : ∀ i, valuesOf owner i s.enqueued ++ (s.producers i).pending = calls i

variable {owner : α → ι} {calls : ι → List α} {s s' : State ι α} {thread : Thread ι}
  {notified : Option (Thread ι)} {maxSize : ℕ} {a : Action ι α} {actions : List (Action ι α)}

omit [Fintype ι] in
lemma pending_update (producers : ι → Producer α) (i j : ι) (x : Producer α) :
    (Function.update producers i x j).pending =
      if j = i then x.pending else (producers j).pending := by
  by_cases h : j = i
  · subst h
    simp
  · simp [h]

omit [Fintype ι] in
/-- A thread that wakes up or falls asleep keeps the value of its call. -/
lemma CallsInOrder.update (h : CallsInOrder owner calls s) {i : ι} {x : Producer α}
    (hx : x.pending = (s.producers i).pending) (consumer : Consumer) :
    CallsInOrder owner calls
      { s with producers := Function.update s.producers i x, consumer := consumer } := by
  have hsame (j : ι) :
      (Function.update s.producers i x j).pending = (s.producers j).pending := by
    rw [pending_update]
    split_ifs with hj
    · rw [hj, hx]
    · rfl
  refine ⟨h.order, fun j value hmem => ?_, fun j => ?_⟩
  · exact h.owned j value (hsame j ▸ hmem)
  · dsimp only
    rw [hsame]
    exact h.calls j

omit [Fintype ι] in
lemma CallsInOrder.wake (h : CallsInOrder owner calls s) (hw : wake s thread = some s') :
    CallsInOrder owner calls s' := by
  cases thread with
  | producer i =>
    simp only [ThreadSafeQueue.wake] at hw
    split at hw
    · rename_i value hi
      cases hw
      exact h.update (by rw [hi]; rfl) s.consumer
    · cases hw
  | consumer =>
    simp only [ThreadSafeQueue.wake] at hw
    split at hw
    · cases hw
      exact ⟨h.order, h.owned, h.calls⟩
    · cases hw

lemma CallsInOrder.notifyOne (h : CallsInOrder owner calls s)
    (hn : notifyOne s notified = some s') : CallsInOrder owner calls s' := by
  cases notified with
  | some thread => exact h.wake hn
  | none =>
    simp only [ThreadSafeQueue.notifyOne] at hn
    split_ifs at hn
    cases hn
    exact h

omit [Fintype ι] in
/-- A call that begins is the last one of its producer. -/
lemma CallsInOrder.callEnqueue (h : CallsInOrder owner calls s) {i : ι} {value : α}
    (hi : s.producers i = .outside) (howner : owner value = i) :
    CallsInOrder owner (Function.update calls i (calls i ++ [value]))
      { s with producers := Function.update s.producers i (.awake value) } := by
  refine ⟨h.order, fun j value' hmem => ?_, fun j => ?_⟩
  · dsimp only at hmem
    rw [pending_update] at hmem
    split_ifs at hmem with hj
    · rw [List.mem_singleton.mp hmem, hj, howner]
    · exact h.owned j value' hmem
  · have hcalls := h.calls j
    dsimp only
    rw [pending_update]
    split_ifs with hj
    · subst hj
      rw [hi, Producer.pending, List.append_nil] at hcalls
      rw [hcalls, Function.update_self]
      rfl
    · rw [Function.update_of_ne hj, hcalls]

omit [Fintype ι] in
/-- A call that finishes hands its value to the queue. -/
lemma CallsInOrder.enqueue (h : CallsInOrder owner calls s) {i : ι} {value : α}
    (hi : s.producers i = .awake value) :
    CallsInOrder owner calls { s with
      queue := s.queue ++ [value]
      producers := Function.update s.producers i .outside
      enqueued := s.enqueued ++ [value] } := by
  have howner : owner value = i := h.owned i value (by simp [hi, Producer.pending])
  refine ⟨by rw [← h.order, List.append_assoc], fun j value' hmem => ?_, fun j => ?_⟩
  · dsimp only at hmem
    rw [pending_update] at hmem
    split_ifs at hmem with hj
    · exact absurd hmem List.not_mem_nil
    · exact h.owned j value' hmem
  · have hcalls := h.calls j
    dsimp only
    rw [pending_update, valuesOf, List.filter_append]
    split_ifs with hj
    · subst hj
      rw [hi] at hcalls
      simpa [valuesOf, howner, Producer.pending] using hcalls
    · have hne : owner value ≠ j := fun he => hj (he.symm.trans howner)
      simpa [valuesOf, hne] using hcalls

lemma CallsInOrder.step (h : CallsInOrder owner calls s) (howned : Owned owner [a])
    (hs : step maxSize s a = some s') :
    CallsInOrder owner (fun i => calls i ++ (callOf i a).toList) s' := by
  have hsame : (∀ i, callOf i a = none) → (fun i => calls i ++ (callOf i a).toList) = calls := by
    intro hnone
    funext i
    simp [hnone]
  cases a with
  | callEnqueue i value =>
    simp only [ThreadSafeQueue.step] at hs
    split at hs
    · rename_i hi
      cases hs
      have hcalls : (fun j => calls j ++ (callOf j (.callEnqueue i value : Action ι α)).toList) =
          Function.update calls i (calls i ++ [value]) := by
        funext j
        by_cases hj : j = i
        · subst hj
          simp [callOf]
        · simp [callOf, hj, Ne.symm hj]
      rw [hcalls]
      exact h.callEnqueue hi (howned i value List.mem_cons_self)
    · cases hs
  | enqueue i notified =>
    rw [hsame fun _ => rfl]
    simp only [ThreadSafeQueue.step] at hs
    split at hs
    · rename_i value hi
      split_ifs at hs
      · exact (h.enqueue hi).notifyOne hs
      · cases hs
        exact h.update (by rw [hi]; rfl) s.consumer
    · cases hs
  | callDequeue =>
    rw [hsame fun _ => rfl]
    simp only [ThreadSafeQueue.step] at hs
    split at hs
    · cases hs
      exact ⟨h.order, h.owned, h.calls⟩
    · cases hs
  | dequeue notified =>
    rw [hsame fun _ => rfl]
    simp only [ThreadSafeQueue.step] at hs
    split at hs
    · rename_i value rest hc hq
      have horder := h.order
      rw [hq] at horder
      have hnext : CallsInOrder owner calls { s with
          queue := rest
          consumer := .outside
          dequeued := s.dequeued ++ [value] } := by
        refine ⟨?_, h.owned, h.calls⟩
        rw [← horder, List.append_assoc]
        rfl
      exact hnext.notifyOne hs
    · cases hs
      exact ⟨h.order, h.owned, h.calls⟩
    · cases hs
  | wakeSpuriously thread =>
    rw [hsame fun _ => rfl]
    exact h.wake hs

lemma CallsInOrder.run (h : CallsInOrder owner calls s) (howned : Owned owner actions)
    (hrun : run (ThreadSafeQueue.step maxSize) s actions = some s') :
    CallsInOrder owner (fun i => calls i ++ actions.filterMap (callOf i)) s' := by
  induction actions generalizing s calls with
  | nil =>
    cases hrun
    simpa using h
  | cons a actions ih =>
    obtain ⟨s₁, h₁, hrun⟩ := run_cons_eq_some.mp hrun
    have hfirst : Owned owner [a] := fun i value hmem =>
      howned i value (List.mem_cons.mpr (.inl (List.mem_singleton.mp hmem)))
    have hrest := ih (h.step hfirst h₁)
      (fun i value hmem => howned i value (List.mem_cons_of_mem a hmem)) hrun
    have hsplit (i : ι) : (a :: actions).filterMap (callOf i) =
        (callOf i a).toList ++ actions.filterMap (callOf i) := by
      rw [List.filterMap_cons]
      cases callOf i a <;> rfl
    simpa only [hsplit, List.append_assoc] using hrest

omit [Fintype ι] in
lemma callsInOrder_init : CallsInOrder owner (fun _ => []) ({} : State ι α) := by
  refine ⟨rfl, fun i value hmem => ?_, fun i => rfl⟩
  exact absurd hmem List.not_mem_nil

/-- Of each producer the consumer has taken the first values, in the order of its calls;
the next ones are in the queue, and the last may be that of a call under way. -/
theorem taken_in_call_order (howned : Owned owner actions)
    (hrun : run (step maxSize) ({} : State ι α) actions = some s) (i : ι) :
    valuesOf owner i s.dequeued ++ valuesOf owner i s.queue ++ (s.producers i).pending =
      actions.filterMap (callOf i) := by
  have h := callsInOrder_init.run howned hrun
  have hcalls := h.calls i
  rw [← h.order, valuesOf, List.filter_append] at hcalls
  exact hcalls

theorem taken_in_call_order_two_producers :
    ∃ s : State (Fin 2) (Fin 2 × ℕ), run (step 1) {}
        [.callEnqueue 0 (0, 7), .callEnqueue 1 (1, 8), .enqueue 1 none, .enqueue 0 none,
          .callDequeue, .dequeue (some (.producer 0)), .enqueue 0 none] = some s ∧
      valuesOf Prod.fst 0 s.dequeued ++ valuesOf Prod.fst 0 s.queue ++
          (s.producers 0).pending = [(0, 7)] := by
  have howned : Owned (α := Fin 2 × ℕ) Prod.fst
      [.callEnqueue 0 (0, 7), .callEnqueue 1 (1, 8), .enqueue 1 none, .enqueue 0 none,
        .callDequeue, .dequeue (some (.producer 0)), .enqueue 0 none] := by
    intro i value hmem
    simp only [List.mem_cons, Action.callEnqueue.injEq, List.not_mem_nil, or_false,
      reduceCtorEq] at hmem
    rcases hmem with ⟨rfl, rfl⟩ | ⟨rfl, rfl⟩
    · rfl
    · rfl
  exact ⟨_, rfl, taken_in_call_order howned
    (show run (step 1) {} [.callEnqueue 0 (0, 7), .callEnqueue 1 (1, 8), .enqueue 1 none,
      .enqueue 0 none, .callDequeue, .dequeue (some (.producer 0)), .enqueue 0 none] = some _
      from rfl) 0⟩

end JwtRevoker.ThreadSafeQueue
