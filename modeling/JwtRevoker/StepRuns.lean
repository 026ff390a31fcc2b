import Mathlib

/-!
# Runs of a partial step function

A run folds a step function over a list of actions and stops at the first one
that is not enabled. An invariant kept by the allowed steps holds after every
run of allowed steps, also when the steps keep it only up to a point of time.
-/
namespace JwtRevoker.StepRuns

variable {σ α : Type*} (step : σ → α → Option σ)

def run : σ → List α → Option σ
  | s, [] => some s
  | s, a :: actions => (step s a).bind fun s' => run s' actions

/-- Every step of the run is allowed in the state it is taken in. -/
def AllSteps (allowed : σ → α → Prop) : σ → List α → Prop
  | _, [] => True
  | s, a :: actions => allowed s a ∧
      match step s a with
      | none => True
      | some s' => AllSteps allowed s' actions

instance decidableAllSteps (allowed : σ → α → Prop) [∀ s a, Decidable (allowed s a)] :
    ∀ s actions, Decidable (AllSteps step allowed s actions)
  | _, [] => isTrue trivial
  | s, a :: actions =>
      match h : step s a with
      | none => decidable_of_iff (allowed s a) (by simp [AllSteps, h])
      | some s' =>
          have := decidableAllSteps allowed s' actions
          decidable_of_iff (allowed s a ∧ AllSteps step allowed s' actions) (by simp [AllSteps, h])

variable {step} {allowed : σ → α → Prop} {s s' : σ} {a : α} {actions later : List α}

lemma run_cons_eq_some :
    run step s (a :: actions) = some s' ↔
      ∃ s₁, step s a = some s₁ ∧ run step s₁ actions = some s' :=
  Option.bind_eq_some_iff

lemma run_append_eq_some :
    run step s (actions ++ later) = some s' ↔
      ∃ s₁, run step s actions = some s₁ ∧ run step s₁ later = some s' := by
  induction actions generalizing s with
  | nil => simp [run]
  | cons a actions ih =>
    rw [List.cons_append, run_cons_eq_some]
    simp only [ih, run_cons_eq_some]
    constructor
    · rintro ⟨s₁, h₁, s₂, h₂, h₃⟩
      exact ⟨s₂, ⟨s₁, h₁, h₂⟩, h₃⟩
    · rintro ⟨s₂, ⟨s₁, h₁, h₂⟩, h₃⟩
      exact ⟨s₁, h₁, s₂, h₂, h₃⟩

lemma allSteps_cons {s₁ : σ} (h : step s a = some s₁) :
    AllSteps step allowed s (a :: actions) ↔ allowed s a ∧ AllSteps step allowed s₁ actions := by
  simp [AllSteps, h]

lemma allSteps_append {s₁ : σ} (h : run step s actions = some s₁) :
    AllSteps step allowed s (actions ++ later) ↔
      AllSteps step allowed s actions ∧ AllSteps step allowed s₁ later := by
  induction actions generalizing s with
  | nil =>
    cases h
    exact (iff_of_eq (true_and _)).symm
  | cons a actions ih =>
    obtain ⟨s₂, h₂, h⟩ := run_cons_eq_some.mp h
    rw [List.cons_append, allSteps_cons h₂, allSteps_cons h₂, ih h, and_assoc]

lemma allSteps_left (hall : AllSteps step allowed s (actions ++ later)) :
    AllSteps step allowed s actions := by
  induction actions generalizing s with
  | nil => trivial
  | cons a actions ih =>
    obtain ⟨ha, hall⟩ := hall
    refine ⟨ha, ?_⟩
    cases hs : step s a with
    | none => trivial
    | some s₁ =>
      rw [hs] at hall
      exact ih hall

/-- Actions that are allowed in every state. -/
lemma allSteps_of_forall (h : ∀ a ∈ actions, ∀ s, allowed s a) :
    AllSteps step allowed s actions := by
  induction actions generalizing s with
  | nil => trivial
  | cons a actions ih =>
    refine ⟨h a List.mem_cons_self s, ?_⟩
    cases hs : step s a with
    | none => trivial
    | some s₁ => exact ih fun b hb => h b (List.mem_cons_of_mem a hb)

/-- What allowed steps keep, a run of allowed steps keeps. -/
theorem inv_run {Inv : σ → Prop}
    (hstep : ∀ s a s', Inv s → allowed s a → step s a = some s' → Inv s') (hs : Inv s)
    (hall : AllSteps step allowed s actions) (hrun : run step s actions = some s') : Inv s' := by
  induction actions generalizing s with
  | nil =>
    cases hrun
    exact hs
  | cons a actions ih =>
    obtain ⟨s₁, h₁, hrun⟩ := run_cons_eq_some.mp hrun
    obtain ⟨ha, hall⟩ := (allSteps_cons h₁).mp hall
    exact ih (hstep _ _ _ hs ha h₁) hall hrun

/-- What every step keeps, every run keeps. -/
theorem inv_of_run {Inv : σ → Prop} (hstep : ∀ s a s', Inv s → step s a = some s' → Inv s')
    (hs : Inv s) (hrun : run step s actions = some s') : Inv s' := by
  induction actions generalizing s with
  | nil =>
    cases hrun
    exact hs
  | cons a actions ih =>
    obtain ⟨s₁, h₁, hrun⟩ := run_cons_eq_some.mp hrun
    exact ih (hstep _ _ _ hs h₁) hrun

/-- What the steps of a run put out stands in the log in their order while the state is live,
and `sent` is never more than that. No step leaves a state that is not live. -/
theorem outputs_of_run {β : Type*} {Inv live : σ → Prop} {log sent : σ → List β}
    {out : α → Option β}
    (hout : ∀ s a s', Inv s → step s a = some s' →
      (live s' → log s' = log s ++ (out a).toList) ∧ sent s' <+: log s ++ (out a).toList)
    (hlive : ∀ s a s', step s a = some s' → live s)
    (hstep : ∀ s a s', Inv s → step s a = some s' → Inv s')
    (hs : Inv s) (hsent : sent s <+: log s) (hrun : run step s actions = some s') :
    (live s' → log s' = log s ++ actions.filterMap out) ∧
      sent s' <+: log s ++ actions.filterMap out := by
  induction actions generalizing s with
  | nil =>
    cases hrun
    simpa using hsent
  | cons a actions ih =>
    obtain ⟨s₁, h₁, hrun⟩ := run_cons_eq_some.mp hrun
    obtain ⟨hlog, hsent₁⟩ := hout s a s₁ hs h₁
    have hsplit : (a :: actions).filterMap out = (out a).toList ++ actions.filterMap out := by
      rw [List.filterMap_cons]
      cases out a <;> rfl
    rw [hsplit, ← List.append_assoc]
    by_cases hs₁ : live s₁
    · rw [← hlog hs₁] at hsent₁ ⊢
      exact ih (hstep s a s₁ hs h₁) hsent₁ hrun
    · cases actions with
      | nil =>
        cases hrun
        exact ⟨fun h => absurd h hs₁, by simpa using hsent₁⟩
      | cons a' actions =>
        obtain ⟨s₂, h₂, -⟩ := run_cons_eq_some.mp hrun
        exact absurd (hlive s₁ a' s₂ h₂) hs₁

/-- Steps allowed by one rule are allowed by another that follows from an invariant. -/
theorem allSteps_of_inv {Inv : σ → Prop} {allowed' : σ → α → Prop}
    (hstep : ∀ s a s', Inv s → allowed s a → step s a = some s' → Inv s')
    (himp : ∀ s a, Inv s → allowed s a → allowed' s a) (hs : Inv s)
    (hall : AllSteps step allowed s actions) : AllSteps step allowed' s actions := by
  induction actions generalizing s with
  | nil => trivial
  | cons a actions ih =>
    obtain ⟨ha, hall⟩ := hall
    refine ⟨himp s a hs ha, ?_⟩
    cases h : step s a with
    | none => trivial
    | some s₁ =>
      rw [h] at hall
      exact ih (hstep s a s₁ hs ha h) hall

/-- When allowed steps keep `Inv` and the others break it, the steps of a run are
allowed exactly when `Inv` holds in every state of the run. -/
theorem allSteps_iff_forall_states {Inv : σ → Prop}
    (hkeep : ∀ s a s', Inv s → allowed s a → step s a = some s' → Inv s')
    (hbreak : ∀ s a s', Inv s → ¬ allowed s a → step s a = some s' → ¬ Inv s') (hs : Inv s)
    (hrun : run step s actions = some s') :
    AllSteps step allowed s actions ↔
      ∀ before after s₁, actions = before ++ after → run step s before = some s₁ → Inv s₁ := by
  constructor
  · rintro hall before after s₁ rfl hbefore
    exact inv_run hkeep hs (allSteps_left hall) hbefore
  · intro hinv
    induction actions generalizing s with
    | nil => trivial
    | cons a actions ih =>
      obtain ⟨s₁, h₁, hrun⟩ := run_cons_eq_some.mp hrun
      have hs₁ : Inv s₁ := hinv [a] actions s₁ rfl (run_cons_eq_some.mpr ⟨s₁, h₁, rfl⟩)
      refine (allSteps_cons h₁).mpr ⟨?_, ih hs₁ hrun ?_⟩
      · by_contra hn
        exact hbreak s a s₁ hs hn h₁ hs₁
      · rintro before after s₂ rfl h₂
        exact hinv (a :: before) after s₂ rfl (run_cons_eq_some.mpr ⟨s₁, h₁, h₂⟩)

section Leads

variable {P Q : σ → Prop} {s₁ : σ}

variable (step) in
/-- Some further steps lead to such a state. -/
def Leads (P : σ → Prop) (s : σ) : Prop := ∃ actions s', run step s actions = some s' ∧ P s'

lemma leads_of (h : P s) : Leads step P s := ⟨[], s, rfl, h⟩

lemma leads_next (h : step s a = some s₁) (hl : Leads step P s₁) : Leads step P s := by
  obtain ⟨actions, s', hrun, hp⟩ := hl
  exact ⟨a :: actions, s', run_cons_eq_some.mpr ⟨s₁, h, hrun⟩, hp⟩

lemma Leads.trans (h : Leads step P s) (hPQ : ∀ s, P s → Leads step Q s) : Leads step Q s := by
  obtain ⟨actions, s', hrun, hp⟩ := h
  obtain ⟨later, s₂, hlater, hq⟩ := hPQ s' hp
  exact ⟨actions ++ later, s₂, run_append_eq_some.mpr ⟨s', hrun, hlater⟩, hq⟩

/-- An invariant that no such state has. -/
lemma not_leads (Inv : σ → Prop) (hstep : ∀ s a s', Inv s → step s a = some s' → Inv s')
    (hnot : ∀ s, Inv s → ¬ P s) (hs : Inv s) : ¬ Leads step P s := by
  rintro ⟨actions, s', hrun, hp⟩
  exact hnot s' (inv_of_run hstep hs hrun) hp

/-- When every state that is not there yet has a step that brings it nearer, some steps
lead there. -/
theorem leads_of_decreasing {Inv : σ → Prop} (μ : σ → ℕ)
    (hnext : ∀ s, Inv s → ¬ P s → ∃ a s', step s a = some s' ∧ Inv s' ∧ (¬ P s' → μ s' < μ s))
    (hs : Inv s) : Leads step (fun s' => Inv s' ∧ P s') s := by
  induction hn : μ s using Nat.strong_induction_on generalizing s with
  | _ n ih =>
    by_cases hp : P s
    · exact leads_of ⟨hs, hp⟩
    · obtain ⟨a, s₁, h₁, hinv, hlt⟩ := hnext s hs hp
      by_cases hp₁ : P s₁
      · exact leads_next h₁ (leads_of ⟨hinv, hp₁⟩)
      · exact leads_next h₁ (ih (μ s₁) (hn ▸ hlt hp₁) hinv rfl)

end Leads

section Time

variable {τ : Type*} [Preorder τ] {time : σ → τ}

lemma time_le_of_run (hmono : ∀ s a s', step s a = some s' → time s ≤ time s')
    (hrun : run step s actions = some s') : time s ≤ time s' := by
  induction actions generalizing s with
  | nil =>
    cases hrun
    exact le_rfl
  | cons a actions ih =>
    obtain ⟨s₁, h₁, hrun⟩ := run_cons_eq_some.mp hrun
    exact (hmono _ _ _ h₁).trans (ih hrun)

/-- An invariant that steps keep up to a point of time. -/
theorem inv_run_until {Inv : σ → Prop} {t : τ}
    (hmono : ∀ s a s', step s a = some s' → time s ≤ time s')
    (hstep : ∀ s a s', Inv s → allowed s a → step s a = some s' → time s' ≤ t → Inv s')
    (hs : Inv s) (hall : AllSteps step allowed s actions) (hrun : run step s actions = some s')
    (ht : time s' ≤ t) : Inv s' := by
  induction actions generalizing s with
  | nil =>
    cases hrun
    exact hs
  | cons a actions ih =>
    obtain ⟨s₁, h₁, hrun⟩ := run_cons_eq_some.mp hrun
    obtain ⟨ha, hall⟩ := (allSteps_cons h₁).mp hall
    have ht₁ : time s₁ ≤ t := (time_le_of_run hmono hrun).trans ht
    exact ih (hstep _ _ _ hs ha h₁ ht₁) hall hrun

end Time

section Total

variable {next : σ → σ} {final : σ → Prop}

/-- Some number of steps of a total step function leads to a final state. -/
def Finishes (next : σ → σ) (final : σ → Prop) (s : σ) : Prop := ∃ n, final (next^[n] s)

/-- When final states stay as they are, the first step does not matter. -/
lemma finishes_next (hstay : ∀ s, final s → next s = s) (s : σ) :
    Finishes next final (next s) ↔ Finishes next final s := by
  constructor
  · rintro ⟨n, hn⟩
    exact ⟨n + 1, hn⟩
  · rintro ⟨n, hn⟩
    refine ⟨n, ?_⟩
    rw [Function.Commute.iterate_self next n s, hstay _ hn]
    exact hn

/-- An invariant that no final state has keeps a run from finishing. -/
lemma not_finishes (Inv : σ → Prop) (hstep : ∀ s, Inv s → Inv (next s))
    (hnot : ∀ s, Inv s → ¬ final s) (hs : Inv s) : ¬ Finishes next final s := by
  rintro ⟨n, hn⟩
  exact hnot _ (Function.Iterate.rec Inv hs hstep n) hn

end Total

end JwtRevoker.StepRuns
