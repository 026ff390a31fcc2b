import JwtRevoker.RotatingWindow

/-!
# Two windows side by side

What two windows have in common after a run of events. Slots that were shifted in
during the run do not depend on what a window held before it, and a relation of
slots that adding an item keeps is kept by puts on both sides and by puts on one.
-/
namespace JwtRevoker.RotatingWindow

variable {α β : Type*}

/-- The events of the second list are those of the first with some puts in between. -/
inductive MorePuts : List (Event α) → List (Event α) → Prop
  | nil : MorePuts [] []
  | same {es fs : List (Event α)} (e : Event α) : MorePuts es fs → MorePuts (e :: es) (e :: fs)
  | more {es fs : List (Event α)} (depth : ℕ) (item : α) : MorePuts es fs →
      MorePuts es (.put depth item :: fs)

variable {add : β → α → β} {empty : β} {R : β → β → Prop} {v w : List β} {es fs : List (Event α)}

lemma run_cons (e : Event α) : run add empty w (e :: es) = run add empty (apply add empty w e) es :=
  rfl

/-- Windows of one length agree on every slot that comes from a shift of the run. -/
theorem getElem?_run_congr (hlen : v.length = w.length) {i : ℕ} (hi : w.length ≤ i + shifts es) :
    (run add empty v es)[i]? = (run add empty w es)[i]? := by
  rcases Nat.eq_zero_or_pos w.length with hw | hw
  · have hv : v.length = 0 := hlen.trans hw
    rw [List.length_eq_zero_iff.mp hv, List.length_eq_zero_iff.mp hw]
  induction es using List.reverseRecOn generalizing i with
  | nil =>
    simp only [shifts, Nat.add_zero] at hi
    simp [run, hi, hlen]
  | append_singleton es e ih =>
    rw [run_append_singleton, run_append_singleton]
    rw [shifts_append] at hi
    cases e with
    | put depth item =>
      simp only [apply, getElem?_putPrefix]
      rw [ih hi]
    | shift =>
      have hrun : (run add empty v es).length = (run add empty w es).length := by
        rw [length_run add empty (hlen ▸ hw), length_run add empty hw, hlen]
      simp only [shifts, Nat.zero_add] at hi
      simp only [apply, rotate, List.getElem?_append, List.length_tail, List.getElem?_tail, hrun]
      rw [ih (by omega)]

/-- A shift for each slot, and nothing is left of what the windows held before. -/
theorem run_congr (hlen : v.length = w.length) (hshifts : w.length ≤ shifts es) :
    run add empty v es = run add empty w es := by
  apply List.ext_getElem?
  intro i
  exact getElem?_run_congr hlen (by omega)

lemma forall_mem_of_forall₂ {P Q : β → Prop} (h : List.Forall₂ R v w) (hv : ∀ s ∈ v, P s)
    (hR : ∀ s t, R s t → P s → Q t) : ∀ t ∈ w, Q t := by
  induction h with
  | nil => simp
  | cons hst _ ih =>
    simp only [List.forall_mem_cons] at hv ⊢
    exact ⟨hR _ _ hst hv.1, ih hv.2⟩

lemma forall₂_putPrefix_left (hmore : ∀ s t item, R s t → R s (add t item))
    (h : List.Forall₂ R v w) (depth : ℕ) (item : α) :
    List.Forall₂ R v (putPrefix add depth item w) := by
  rw [List.forall₂_iff_get] at h ⊢
  obtain ⟨hlen, hR⟩ := h
  refine ⟨by simpa using hlen, ?_⟩
  intro i hi hi'
  have hs := hR i hi (by simpa using hi')
  simp only [putPrefix, List.get_eq_getElem, List.getElem_mapIdx] at hs ⊢
  split_ifs
  · exact hmore _ _ _ hs
  · exact hs

lemma forall₂_putPrefix (hadd : ∀ s t item, R s t → R (add s item) (add t item))
    (h : List.Forall₂ R v w) (depth : ℕ) (item : α) :
    List.Forall₂ R (putPrefix add depth item v) (putPrefix add depth item w) := by
  rw [List.forall₂_iff_get] at h ⊢
  obtain ⟨hlen, hR⟩ := h
  refine ⟨by simpa using hlen, ?_⟩
  intro i hi hi'
  have hs := hR i (by simpa using hi) (by simpa using hi')
  simp only [putPrefix, List.get_eq_getElem, List.getElem_mapIdx] at hs ⊢
  split_ifs
  · exact hadd _ _ _ hs
  · exact hs

lemma forall₂_rotate (hempty : R empty empty) (h : List.Forall₂ R v w) :
    List.Forall₂ R (rotate empty v) (rotate empty w) := by
  have htail : List.Forall₂ R v.tail w.tail := by
    cases h with
    | nil => exact .nil
    | cons _ hrest => exact hrest
  exact List.rel_append htail (.cons hempty .nil)

/-- A relation of slots through a run, and through puts that only the second window gets. -/
theorem forall₂_run (hadd : ∀ s t item, R s t → R (add s item) (add t item))
    (hmore : ∀ s t item, R s t → R s (add t item)) (hempty : R empty empty)
    (hes : MorePuts es fs) (h : List.Forall₂ R v w) :
    List.Forall₂ R (run add empty v es) (run add empty w fs) := by
  induction hes generalizing v w with
  | nil => exact h
  | same e _ ih =>
    rw [run_cons, run_cons]
    apply ih
    cases e with
    | put depth item => exact forall₂_putPrefix hadd h depth item
    | shift => exact forall₂_rotate hempty h
  | more depth item _ ih =>
    rw [run_cons]
    exact ih (forall₂_putPrefix_left hmore h depth item)

end JwtRevoker.RotatingWindow
