import JwtRevoker.ProxyQuery
import JwtRevoker.StepRuns

/-!
# A revocation that meets a rotation

`revokeJwt` in steps, one for each slot it writes, with a rotation between two of
them: the rotation thread holds `filtersMtx`, `revokeJwt` does not take it. The walk
goes on by index over the renumbered slots and skips the one that has moved back.
-/
namespace JwtRevoker.TornRevocation

open EngineM Engine StepRuns

/-- A call of `revokeJwt` in its loop: the slots it writes and the next of them. -/
structure Call where
  engine : Engine
  num : ℕ
  i : ℕ := 0
  deriving DecidableEq, Repr

inductive Action
  | add
  | rotate
  deriving DecidableEq, Repr

/-- `revokeJwt` before its loop: how many slots it is going to write. -/
def slotsToWrite (now : ℤ) (e : Engine) (expTime : ℤ) : Except Fault ℕ :=
  let remainingTime := expTime - now
  if remainingTime ≤ 0 then .ok 0
  else if remainingTime > e.maxJwtLifeTime then .ok 0
  else do
    let num ← ceilQuotient remainingTime.toNat e.rotationInterval
    if num > e.filtersNum then return 0
    return num

/-- A step of the walk is over once the loop is; an index out of range is no step. -/
def step (hash : HashCalls) (token : Str) (c : Call) : Action → Option Call
  | .add =>
      if c.i < c.num then
        match addAt hash token c.engine.filters c.i with
        | .ok filters =>
            some { c with engine := { c.engine with filters := filters }, i := c.i + 1 }
        | .error _ => none
      else none
  | .rotate =>
      match c.engine.rotateFilters with
      | .ok engine => some { c with engine := engine }
      | .error _ => none

/-- The rotation comes when `p` of the `num` slots have been written. -/
def interleaving (p num : ℕ) : List Action :=
  List.replicate p .add ++ .rotate :: List.replicate (num - p) .add

/-- Slot `i` contains the token. -/
abbrev ContainsAt (hash : HashCalls) (token : Str) (e : Engine) (i : ℕ) : Prop :=
  RotatingWindow.HoldsAt (fun f => f.contains hash token = true) e.filters i

/-- The slots of `e'` that contain the token are at least those of `e`. -/
def Keeps (hash : HashCalls) (token : Str) (e e' : Engine) : Prop :=
  ∀ i, ContainsAt hash token e i → ContainsAt hash token e' i

variable {hash : HashCalls} {token : Str} {e e' rotated : Engine} {now expTime : ℤ} {c : Call}
  {num p : ℕ}

/-- `revokeJwt` is its loop over the slots to write. -/
lemma revokeJwt_eq_loop (hash : HashCalls) (now : ℤ) (e : Engine) (token : Str) (expTime : ℤ) :
    e.revokeJwt hash now token expTime = (do
      let num ← slotsToWrite now e expTime
      let filters ← addToFirst hash token num e.filters
      return { e with filters := filters }) := by
  unfold Engine.revokeJwt slotsToWrite
  dsimp only
  split_ifs
  · rfl
  · rfl
  · cases ceilQuotient (expTime - now).toNat e.rotationInterval with
    | error fault => rfl
    | ok num =>
      simp only [ok_bind]
      split_ifs <;> rfl

lemma slotsToWrite_le (hnum : slotsToWrite now e expTime = .ok num) : num ≤ e.filtersNum := by
  unfold slotsToWrite at hnum
  dsimp only at hnum
  split_ifs at hnum
  · cases hnum
    exact Nat.zero_le _
  · cases hnum
    exact Nat.zero_le _
  · obtain ⟨q, -, hnum⟩ := bind_eq_ok.mp hnum
    split_ifs at hnum with hle
    · cases hnum
      exact Nat.zero_le _
    · cases hnum
      exact not_lt.mp hle

/-- The number of slots depends on the parameters, so that it is known for any vector. -/
lemma revokeJwt_of_slotsToWrite (hnum : slotsToWrite now e expTime = .ok num)
    {w : List BaseBloomFilter} (hlen : e.filtersNum ≤ w.length) :
    revokeJwt hash now { e with filters := w } token expTime = .ok { e with
      filters := RotatingWindow.putBetween (BaseBloomFilter.add hash) 0 num token w } := by
  have hle := slotsToWrite_le hnum
  have hnum' : slotsToWrite now { e with filters := w } expTime = .ok num := hnum
  rw [revokeJwt_eq_loop, hnum', ok_bind, addToFirst_eq hash token (hle.trans hlen),
    ← RotatingWindow.putBetween_zero]
  rfl

/-- `k` steps of the walk write the next `k` slots. -/
lemma run_adds {k : ℕ} (hk : c.i + k ≤ c.num) (hlen : c.num ≤ c.engine.filters.length) :
    run (step hash token) c (List.replicate k .add) = some { c with
      engine := { c.engine with
        filters := RotatingWindow.putBetween (BaseBloomFilter.add hash) c.i (c.i + k) token
          c.engine.filters }
      i := c.i + k } := by
  induction k generalizing c with
  | zero =>
    rw [List.replicate_zero, Nat.add_zero, RotatingWindow.putBetween_self]
    rfl
  | succ k ih =>
    rw [List.replicate_succ, run_cons_eq_some]
    refine ⟨_, by rw [step, if_pos (by omega), addAt_eq hash token (by omega)], ?_⟩
    rw [ih (by change c.i + 1 + k ≤ c.num; omega)
      (by rw [RotatingWindow.length_putBetween]; exact hlen)]
    have hi : c.i + 1 + k = c.i + (k + 1) := by omega
    simp only [hi, RotatingWindow.putBetween_putBetween _ (Nat.le_succ c.i)
      (show c.i + 1 ≤ c.i + (k + 1) by omega)]

/-- Without a rotation the steps are `revokeJwt`. -/
theorem run_uninterrupted (hlen : e.filtersNum ≤ e.filters.length)
    (hnum : slotsToWrite now e expTime = .ok num)
    (hr : e.revokeJwt hash now token expTime = .ok e') :
    run (step hash token) ⟨e, num, 0⟩ (List.replicate num .add) = some ⟨e', num, num⟩ := by
  have hle := slotsToWrite_le hnum
  have hr' := hr.symm.trans (revokeJwt_of_slotsToWrite hnum hlen)
  cases hr'
  rw [run_adds (by change 0 + num ≤ num; omega) (by change num ≤ e.filters.length; omega)]
  simp only [Nat.zero_add]

lemma i_of_step {c' : Call} {a : Action} (h : step hash token c a = some c') :
    c'.i = c.i + [a].count .add := by
  cases a with
  | add =>
    unfold step at h
    dsimp only at h
    split_ifs at h
    split at h
    · cases h
      rfl
    · cases h
  | rotate =>
    unfold step at h
    dsimp only at h
    split at h
    · cases h
      rfl
    · cases h

lemma i_of_run {c' : Call} {actions : List Action}
    (h : run (step hash token) c actions = some c') : c'.i = c.i + actions.count .add := by
  induction actions generalizing c with
  | nil =>
    cases h
    rfl
  | cons a actions ih =>
    obtain ⟨c₁, hs, h⟩ := run_cons_eq_some.mp h
    have hsplit : (a :: actions).count .add = [a].count .add + actions.count .add := by
      rw [← List.count_append, List.singleton_append]
    rw [ih h, i_of_step hs, hsplit]
    omega

/-- Every finished call with one rotation in it has this form. -/
theorem eq_interleaving {actions : List Action} (hone : actions.count .rotate = 1)
    (hr : run (step hash token) ⟨e, num, 0⟩ actions = some c) (hdone : c.i = num) :
    ∃ p ≤ num, actions = interleaving p num := by
  have hadd (actions : List Action) (hzero : actions.count .rotate = 0) :
      actions = List.replicate (actions.count .add) .add := by
    have hall : ∀ a ∈ actions, a = .add := by
      intro a ha
      cases a with
      | add => rfl
      | rotate => exact absurd ha (List.count_eq_zero.mp hzero)
    exact List.eq_replicate_iff.mpr
      ⟨(List.count_eq_length.mpr fun a ha => (hall a ha).symm).symm, hall⟩
  obtain ⟨before, after, rfl⟩ := List.append_of_mem
    (List.count_pos_iff.mp (by omega : 0 < actions.count .rotate))
  rw [List.count_append, List.count_cons_self] at hone
  have hi := i_of_run hr
  rw [hdone, List.count_append, List.count_cons_of_ne (by decide)] at hi
  dsimp only at hi
  refine ⟨before.count .add, by omega, ?_⟩
  rw [interleaving, ← hadd before (by omega)]
  have hcount : num - before.count .add = after.count .add := by omega
  rw [hcount, ← hadd after (by omega)]

/-- What an interrupted walk leaves: the first `p` slots are written before the
rotation, the others by their index after it. -/
lemma run_interleaving (hlen : e.filtersNum ≤ e.filters.length) (hnum : num ≤ e.filtersNum)
    (hp : p ≤ num) (hr : run (step hash token) ⟨e, num, 0⟩ (interleaving p num) = some c) :
    ∃ filter, BaseBloomFilter.construct e.bloomFilterSize e.hashFunctionNum = .ok filter ∧
      e.filters ≠ [] ∧ c.engine = { e with
        filters := RotatingWindow.putBetween (BaseBloomFilter.add hash) p num token
          (RotatingWindow.rotate filter
            (RotatingWindow.putBetween (BaseBloomFilter.add hash) 0 p token e.filters)) } := by
  obtain ⟨c₁, h₁, hr⟩ := run_append_eq_some.mp hr
  rw [run_adds (by change 0 + p ≤ num; omega) (by change num ≤ e.filters.length; omega)] at h₁
  cases h₁
  obtain ⟨c₂, h₂, hr⟩ := run_cons_eq_some.mp hr
  rw [step] at h₂
  split at h₂
  · rename_i engine hrot
    cases h₂
    obtain ⟨hne, filter, hc, rfl⟩ := rotateFilters_eq_ok hrot
    have hpos := List.length_pos_iff.mpr hne
    have hrotated := RotatingWindow.length_rotate filter hpos
    simp only [RotatingWindow.length_putBetween] at hpos hrotated
    rw [run_adds (by change 0 + p + (num - p) ≤ num; omega)
      ((hnum.trans hlen).trans hrotated.ge)] at hr
    cases hr
    refine ⟨filter, hc, List.length_pos_iff.mp hpos, ?_⟩
    simp only [Nat.zero_add, Nat.add_sub_cancel' hp]
  · cases h₂

/-- A revocation that a rotation interrupts keeps what one of the two orders gives
exactly when the rotation comes first or last, or when the slot that moves back past
the walk contained the token before the call. -/
theorem not_torn_iff (hlen : e.filtersNum ≤ e.filters.length)
    (hnum : slotsToWrite now e expTime = .ok num) {actions : List Action}
    (hone : actions.count .rotate = 1)
    (hr : run (step hash token) ⟨e, num, 0⟩ actions = some c) (hdone : c.i = num) :
    ∃ p ≤ num, actions = interleaving p num ∧
      ∃ before after, (e.rotateFilters >>= fun e => e.revokeJwt hash now token expTime) =
          .ok before ∧
        (e.revokeJwt hash now token expTime >>= rotateFilters) = .ok after ∧
        ((Keeps hash token before c.engine ∨ Keeps hash token after c.engine) ↔
          p = 0 ∨ p = num ∨ ContainsAt hash token e p) := by
  obtain ⟨p, hp, rfl⟩ := eq_interleaving hone hr hdone
  have hle := slotsToWrite_le hnum
  obtain ⟨filter, hc, hne, htorn⟩ := run_interleaving hlen hle hp hr
  have hclear : ¬ filter.contains hash token = true := by
    rw [BaseBloomFilter.contains_of_clear (BaseBloomFilter.construct_eq_ok hc).2.2.2]
    exact Bool.false_ne_true
  have hpos := List.length_pos_iff.mpr hne
  have hrotated := RotatingWindow.length_rotate filter hpos
  refine ⟨p, hp, rfl, ?_⟩
  have hbefore : (e.rotateFilters >>= fun e => e.revokeJwt hash now token expTime) =
      .ok { e with
        filters := RotatingWindow.putBetween (BaseBloomFilter.add hash) 0 num token
          (RotatingWindow.rotate filter e.filters) } := by
    rw [rotateFilters_of_construct hne hc]
    exact revokeJwt_of_slotsToWrite hnum (hlen.trans hrotated.ge)
  have hafter : (e.revokeJwt hash now token expTime >>= rotateFilters) =
      .ok { e with
        filters := RotatingWindow.rotate filter
          (RotatingWindow.putBetween (BaseBloomFilter.add hash) 0 num token e.filters) } := by
    have hr : e.revokeJwt hash now token expTime = _ := revokeJwt_of_slotsToWrite hnum hlen
    rw [hr, ok_bind]
    refine rotateFilters_of_construct (List.length_pos_iff.mp ?_) hc
    rwa [RotatingWindow.length_putBetween]
  refine ⟨_, _, hbefore, hafter, ?_⟩
  simp only [htorn, Keeps, ContainsAt]
  have hadd (f : BaseBloomFilter) : (f.add hash token).contains hash token = true :=
    BaseBloomFilter.contains_add_self hash f token
  exact @RotatingWindow.holdsAt_torn_iff _ _ (BaseBloomFilter.add hash) filter _ token e.filters
    hadd hclear p num hp (hle.trans hlen) hpos

/-- A token revoked a second time, with the rotation after the first slot: the slot
that moves back past the walk contained it already. -/
theorem not_torn_iff_revoked_before :
    ∃ w c, Reachable (fun _ key => key.length) w ∧
      run (step (fun _ key => key.length) "a") ⟨w.engine, 2, 0⟩ [.add, .rotate, .add] = some c ∧
      ContainsAt (fun _ key => key.length) "a" w.engine 1 ∧
      ∃ before after,
        (w.engine.rotateFilters >>= fun e => e.revokeJwt (fun _ key => key.length) 0 "a" 25) =
          .ok before ∧
        (w.engine.revokeJwt (fun _ key => key.length) 0 "a" 25 >>= rotateFilters) = .ok after ∧
        (Keeps (fun _ key => key.length) "a" before c.engine ∨
          Keeps (fun _ key => key.length) "a" after c.engine) := by
  have hi : Returns (init (fun _ key => key.length) 0 0 ⟨30, 10, 8, 1⟩) ⟨{}, fun _ => none⟩ () _ :=
    returns_of_ok rfl
  have hw := Reachable.step (.init hi)
    (show Engine.step _ _ (.revokeJwt "a" 25 0) = _ from rfl)
  obtain ⟨w, c, hw, hlen, hnum, hr, hdone, hsecond⟩ : ∃ w c, Reachable (fun _ key => key.length) w ∧
      w.engine.filtersNum ≤ w.engine.filters.length ∧ slotsToWrite 0 w.engine 25 = .ok 2 ∧
      run (step (fun _ key => key.length) "a") ⟨w.engine, 2, 0⟩ [.add, .rotate, .add] = some c ∧
      c.i = 2 ∧ ContainsAt (fun _ key => key.length) "a" w.engine 1 :=
    ⟨_, _, hw, by decide, rfl, rfl, rfl, by decide⟩
  obtain ⟨p, hp, hactions, before, after, hbefore, hafter, hkeeps⟩ :=
    not_torn_iff hlen hnum (by decide) hr hdone
  refine ⟨w, c, hw, hr, hsecond, before, after, hbefore, hafter, hkeeps.mpr ?_⟩
  interval_cases p
  · exact .inl rfl
  · exact .inr (.inr hsecond)
  · exact .inr (.inl rfl)

/-- With one of two slots written the rotation comes: the first slot, which both orders
leave with the token, is without it. -/
theorem revocation_torn :
    ∃ e c before after,
      Returns (init (fun _ key => key.length) 0 0 ⟨30, 10, 8, 1⟩) ⟨{}, fun _ => none⟩ () e ∧
      slotsToWrite 0 e.engine 25 = .ok 2 ∧
      run (step (fun _ key => key.length) "a") ⟨e.engine, 2, 0⟩ [.add, .rotate, .add] = some c ∧
      c.i = 2 ∧
      (e.engine.rotateFilters >>= fun e => e.revokeJwt (fun _ key => key.length) 0 "a" 25) =
        .ok before ∧
      (e.engine.revokeJwt (fun _ key => key.length) 0 "a" 25 >>= rotateFilters) = .ok after ∧
      ¬ (Keeps (fun _ key => key.length) "a" before c.engine ∨
        Keeps (fun _ key => key.length) "a" after c.engine) := by
  refine ⟨_, _, _, _, returns_of_ok rfl, rfl, rfl, rfl, rfl, rfl, ?_⟩
  rintro (h | h)
  · exact absurd (h 0 (by decide)) (by decide)
  · exact absurd (h 0 (by decide)) (by decide)

end JwtRevoker.TornRevocation
