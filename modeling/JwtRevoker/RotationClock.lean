import JwtRevoker.ProxyQuery
import JwtRevoker.Recovery

/-!
# Rotations against the clock

With rotations an interval apart, the number of rotations between two clock
readings exceeds the whole intervals between them by at most one, and not at all
when the first reading is itself an interval before the first rotation. Dividing
the remaining lifetime at both readings then loses at most the last slot, or none.
-/
namespace JwtRevoker

open EngineM

namespace Engine

variable {hash : HashCalls} {e e' : Engine} {token : Str} {utcOffset t₀ t expTime : ℤ} {r : ℕ}
  {before after ops : List Op}

def rotationTimes (ops : List Op) : List ℤ :=
  (ops.filter fun op => op matches .rotate _).map Op.clock

lemma length_rotationTimes (ops : List Op) : (rotationTimes ops).length = rotations ops := by
  induction ops with
  | nil => rfl
  | cons op ops ih =>
    cases op with
    | revokeJwt | isRevoked => exact ih
    | rotate => simpa [rotationTimes, rotations] using ih

lemma mem_rotationTimes {s : ℤ} : s ∈ rotationTimes ops ↔ Op.rotate s ∈ ops := by
  simp only [rotationTimes, List.mem_map, List.mem_filter]
  constructor
  · rintro ⟨op, ⟨hm, hop⟩, rfl⟩
    cases op with
    | revokeJwt | isRevoked => cases hop
    | rotate => exact hm
  · intro h
    exact ⟨_, ⟨h, rfl⟩, rfl⟩

/-- Times at distance `r` from each other, after a start and up to a stop. -/
lemma length_mul_le_of_spaced {start stop : ℤ} {times : List ℤ}
    (hspaced : (start :: times).Pairwise fun (s t : ℤ) => s + r ≤ t)
    (hstop : ∀ s ∈ start :: times, s ≤ stop) : (times.length : ℤ) * r ≤ stop - start := by
  induction times generalizing start with
  | nil =>
    have := hstop start List.mem_cons_self
    simp only [List.length_nil, Nat.cast_zero, zero_mul]
    omega
  | cons next times ih =>
    obtain ⟨hstart, hrest⟩ := List.pairwise_cons.mp hspaced
    have hnext := hstart next List.mem_cons_self
    have hle := ih hrest fun s hs => hstop s (List.mem_cons_of_mem _ hs)
    have hlen : ((next :: times).length : ℤ) * r = times.length * r + r := by
      rw [List.length_cons]
      push_cast
      ring
    omega

/-- In phase: the first rotation comes at an interval's distance from `t₀` or later. -/
lemma rotations_mul_le (htimed : WellTimed r ops)
    (hfirst : ∀ s ∈ (rotationTimes ops).head?, t₀ + r ≤ s)
    (hlast : ∀ op ∈ ops, op.clock ≤ t) (ht : t₀ ≤ t) : (rotations ops : ℤ) * r ≤ t - t₀ := by
  have hspaced : (rotationTimes ops).Pairwise fun (s t : ℤ) => s + r ≤ t := htimed.2
  have hstop : ∀ s ∈ rotationTimes ops, s ≤ t := fun s hs => hlast _ (mem_rotationTimes.mp hs)
  rw [← length_rotationTimes]
  refine length_mul_le_of_spaced (List.pairwise_cons.mpr ⟨fun s hs => ?_, hspaced⟩) ?_
  · cases htimes : rotationTimes ops with
    | nil => simp [htimes] at hs
    | cons s₁ times =>
      rw [htimes] at hs hfirst hspaced
      have h₁ := hfirst s₁ rfl
      rcases List.mem_cons.mp hs with rfl | hs
      · exact h₁
      · have := (List.pairwise_cons.mp hspaced).1 s hs
        omega
  · intro s hs
    rcases List.mem_cons.mp hs with rfl | hs
    · exact ht
    · exact hstop s hs

/-- Floor division is superadditive: `k` rotations cost at most the slots that the
lapse from the larger lifetime `y` to the smaller `x` frees, and `j` more. -/
lemma add_lt_ediv {i j k : ℕ} {x y : ℤ} (hr : 0 < r) (hk : (k : ℤ) * r ≤ y - x + j * r)
    (hi : ((i + j : ℕ) : ℤ) < x / r) : ((i + k : ℕ) : ℤ) < y / r := by
  have hr' : (0 : ℤ) < r := by omega
  have hx : ((i + j + 1 : ℕ) : ℤ) * r ≤ x := by
    refine (Int.le_ediv_iff_mul_le hr').mp ?_
    push_cast at hi ⊢
    omega
  have hy : ((i + k + 1 : ℕ) : ℤ) * r ≤ y := by
    push_cast at hx ⊢
    linarith
  have hle := (Int.le_ediv_iff_mul_le hr').mpr hy
  push_cast at hle ⊢
  omega

/-- The token is in the first `depth` filters. -/
abbrev InFirst (hash : HashCalls) (token : Str) (depth : ℕ) (e : Engine) : Prop :=
  RotatingWindow.Holds (fun f => f.contains hash token = true) depth e.filters

lemma Shaped.inFirst_step {op : Op} {depth : ℕ} (h : e.Shaped) (hin : e.InFirst hash token depth)
    (hs : e.step hash op = .ok e') : e'.InFirst hash token (depth - rotations [op]) := by
  cases op with
  | revokeJwt token' expTime now =>
    rw [Engine.step, revokeJwt_eq h] at hs
    cases hs
    split_ifs
    · exact hin.putPrefix (fun f hf => BaseBloomFilter.contains_add hf token') _
    · exact hin
  | isRevoked token' expTime now =>
    rw [Engine.step, isRevoked_eq h] at hs
    cases hs
    exact hin
  | rotate now =>
    obtain ⟨-, filter, -, rfl⟩ := rotateFilters_eq_ok hs
    exact hin.rotate

/-- Over a run each rotation costs one slot and nothing else does. -/
theorem Shaped.inFirst_run {depth : ℕ} (h : e.Shaped) (hin : e.InFirst hash token depth)
    (hr : e.run hash ops = .ok e') : e'.InFirst hash token (depth - rotations ops) := by
  induction ops generalizing e depth with
  | nil =>
    cases hr
    exact hin
  | cons op ops ih =>
    rw [Engine.run, List.foldlM_cons] at hr
    obtain ⟨e₁, hs, hr⟩ := bind_eq_ok.mp hr
    have hrest := ih (h.step hs) (h.inFirst_step hin hs) hr
    have hsplit : rotations (op :: ops) = rotations [op] + rotations ops :=
      rotations_append [op] ops
    rwa [hsplit, ← Nat.sub_sub]

lemma WellTimed.of_append_cons {op : Op} (h : WellTimed r (before ++ op :: after)) :
    WellTimed r after ∧ ∀ op' ∈ after, op.clock ≤ op'.clock := by
  obtain ⟨hclock, hspaced⟩ := h
  rw [List.map_append, List.map_cons] at hclock
  have hafter := List.pairwise_cons.mp (List.pairwise_append.mp hclock).2.1
  refine ⟨⟨hafter.2, hspaced.sublist ?_⟩, fun op' hop => hafter.1 _ (List.mem_map_of_mem hop)⟩
  have hsub : after.Sublist (before ++ op :: after) :=
    (List.sublist_cons_self op after).trans (List.sublist_append_right _ _)
  exact (hsub.filter _).map _

/-- Out of phase one more rotation fits between the two readings. -/
lemma rotations_mul_le_add {op : Op} (htimed : WellTimed r (before ++ op :: after))
    (hlast : ∀ op' ∈ after, op'.clock ≤ t) (ht : op.clock ≤ t) :
    (rotations after : ℤ) * r ≤ t - op.clock + r := by
  obtain ⟨hafter, hclock⟩ := htimed.of_append_cons
  have hle := @rotations_mul_le (op.clock - r) t r after hafter (fun s hs => ?_) hlast (by omega)
  · omega
  · have := hclock _ (mem_rotationTimes.mp (List.mem_of_mem_head? hs))
    change op.clock ≤ s at this
    omega

/-- A revocation that is accepted reaches every slot of its lifetime. -/
lemma Shaped.inFirst_revokeJwt (h : e.Shaped) (ha : e.Accepts (expTime - t₀))
    (hs : e.step hash (.revokeJwt token expTime t₀) = .ok e') :
    e'.InFirst hash token (e.slots (expTime - t₀)) := by
  rw [Engine.step, revokeJwt_eq h, if_pos ha] at hs
  cases hs
  refine RotatingWindow.holds_putPrefix (fun f => ?_) (slots_le h ha)
  exact BaseBloomFilter.contains_add_self hash f token

/-- Of the slots a query consults at `t`, only the last can lack a token revoked at
`t₀`, whatever happened before the revocation. -/
theorem missed_only_in_last_slot (h : e.Shaped)
    (htimed : WellTimed e.rotationInterval (before ++ .revokeJwt token expTime t₀ :: after))
    (hr : e.run hash (before ++ .revokeJwt token expTime t₀ :: after) = .ok e')
    (ha : 0 < expTime - t₀ ∧ expTime - t₀ ≤ e.maxJwtLifeTime)
    (ht : t₀ ≤ t) (hlast : ∀ op ∈ after, op.clock ≤ t) :
    (∀ i : ℕ, ((i + 1 : ℕ) : ℤ) < (expTime - t) / e.rotationInterval →
      ∃ f, e'.filters[i]? = some f ∧ f.contains hash token = true) ∧
    ∀ (i : ℕ) (f : BaseBloomFilter), (i : ℤ) < (expTime - t) / e.rotationInterval →
      e'.filters[i]? = some f → f.contains hash token = false →
      ((i + 1 : ℕ) : ℤ) = (expTime - t) / e.rotationInterval := by
  have hin : e'.InFirst hash token (e.slots (expTime - t₀) - rotations after) := by
    rw [run_append] at hr
    obtain ⟨e₁, hbefore, hr⟩ := bind_eq_ok.mp hr
    rw [Engine.run, List.foldlM_cons] at hr
    obtain ⟨e₂, hs, hafter⟩ := bind_eq_ok.mp hr
    have hframe := run_frame hbefore
    have h₁ := h.run hbefore
    have ha₁ : e₁.Accepts (expTime - t₀) := by
      rw [hframe]
      exact ha
    have hslots : e₁.slots (expTime - t₀) = e.slots (expTime - t₀) := by
      rw [hframe]
      rfl
    exact hslots ▸ (h₁.step hs).inFirst_run (h₁.inFirst_revokeJwt ha₁ hs) hafter
  have hfound (i : ℕ) (hi : ((i + 1 : ℕ) : ℤ) < (expTime - t) / e.rotationInterval) :
      ∃ f, e'.filters[i]? = some f ∧ f.contains hash token = true := by
    have hk := rotations_mul_le_add htimed hlast ht
    have hcost : (rotations after : ℤ) * e.rotationInterval ≤
        (expTime - t₀) - (expTime - t) + (1 : ℕ) * e.rotationInterval := by
      change _ ≤ t - t₀ + e.rotationInterval at hk
      push_cast
      omega
    have hlt := add_lt_ediv h.interval_pos hcost hi
    rw [natCast_lt_ediv_iff ha.1] at hlt
    change i + rotations after < e.slots (expTime - t₀) at hlt
    exact hin i (by omega)
  refine ⟨hfound, ?_⟩
  intro i f hi hget hmiss
  by_contra hne
  obtain ⟨f', hget', hc⟩ := hfound i (by push_cast at hne ⊢; omega)
  rw [hget] at hget'
  cases hget'
  rw [hmiss] at hc
  cases hc

theorem missed_only_in_last_slot_of_three :
    ∃ w' e, Returns (init (fun _ key => key.length) 0 0 ⟨30, 10, 8, 1⟩) ⟨{}, fun _ => none⟩ () w' ∧
      w'.engine.run (fun _ key => key.length)
        ([.rotate 1] ++ .revokeJwt "a" 38 8 :: [.rotate 11]) = .ok e ∧
      (∀ i : ℕ, ((i + 1 : ℕ) : ℤ) < ((38 : ℤ) - 12) / 10 →
        ∃ f, e.filters[i]? = some f ∧ f.contains (fun _ key => key.length) "a" = true) ∧
      ∀ (i : ℕ) (f : BaseBloomFilter), (i : ℤ) < ((38 : ℤ) - 12) / 10 →
        e.filters[i]? = some f → f.contains (fun _ key => key.length) "a" = false →
        ((i + 1 : ℕ) : ℤ) = ((38 : ℤ) - 12) / 10 := by
  have hi : Returns (init (fun _ key => key.length) 0 0 ⟨30, 10, 8, 1⟩) ⟨{}, fun _ => none⟩ () _ :=
    returns_of_ok rfl
  exact ⟨_, _, hi, rfl, missed_only_in_last_slot (Reachable.init hi).shaped (by decide)
    (show run _ _ ([.rotate 1] ++ .revokeJwt "a" 38 8 :: [.rotate 11]) = _ from rfl)
    (by decide) (by decide) (by decide)⟩

/-- In phase nothing is missed: the rotations cost no more slots than the lapse of
time frees. -/
theorem Shaped.isRevoked_of_inFirst (h : e.Shaped)
    (hin : e.InFirst hash token (e.slots (expTime - t₀)))
    (htimed : WellTimed e.rotationInterval ops)
    (hfirst : ∀ s ∈ (rotationTimes ops).head?, t₀ + e.rotationInterval ≤ s)
    (hr : e.run hash ops = .ok e') (hmax : expTime - t₀ ≤ e.maxJwtLifeTime)
    (ht : t₀ ≤ t) (hlast : ∀ op ∈ ops, op.clock ≤ t) (hexp : t < expTime) :
    e'.isRevoked hash t token expTime = .ok true := by
  have hframe := run_frame hr
  have ha : e'.Accepts (expTime - t) := by
    rw [hframe]
    change 0 < expTime - t ∧ expTime - t ≤ (e.maxJwtLifeTime : ℤ)
    omega
  have hslots : e'.slots (expTime - t) = e.slots (expTime - t) := by
    rw [hframe]
    rfl
  rw [isRevoked_eq_true_iff (h.run hr)]
  refine ⟨ha, fun f hf => ((h.inFirst_run hin hr).mono ?_).of_mem_take hf⟩
  rw [hslots]
  cases hn : e.slots (expTime - t) with
  | zero => exact Nat.zero_le _
  | succ n =>
    have hk := rotations_mul_le htimed hfirst hlast ht
    have hcost : (rotations ops : ℤ) * e.rotationInterval ≤
        (expTime - t₀) - (expTime - t) + (0 : ℕ) * e.rotationInterval := by
      push_cast
      omega
    have hlt : ((n + 0 : ℕ) : ℤ) < (expTime - t) / e.rotationInterval := by
      rw [natCast_lt_ediv_iff ha.1]
      change n + 0 < e.slots (expTime - t)
      omega
    have hlt' := add_lt_ediv h.interval_pos hcost hlt
    rw [natCast_lt_ediv_iff (by omega)] at hlt'
    change n + rotations ops < e.slots (expTime - t₀) at hlt'
    omega

/-- What an import finds in the visited files is reported revoked until it expires,
whatever is revoked later, when the rotations start an interval after the load. -/
theorem loaded_stays_revoked {w : World} {fresh : List BaseBloomFilter}
    (hfresh : w.engine.FreshFilters fresh)
    (hparses : VisitedParse utcOffset t₀ w.logDir) :
    ∃ filters w', Returns (recoverFromLog hash utcOffset t₀ fresh) w filters w' ∧
      ∀ ops e', WellTimed w.engine.rotationInterval ops →
        (∀ s ∈ (rotationTimes ops).head?, t₀ + w.engine.rotationInterval ≤ s) →
        run hash { w.engine with filters := filters } ops = .ok e' →
        ∀ t, t₀ ≤ t → (∀ op ∈ ops, op.clock ≤ t) →
        ∀ token expTime,
          (token, expTime) ∈ recordsOf w.logDir (lookForHourFiles utcOffset t₀ w.logDir) →
          0 < expTime - t₀ ∧ expTime - t₀ ≤ w.engine.maxJwtLifeTime → t < expTime →
          e'.isRevoked hash t token expTime = .ok true := by
  have hsome := isSome_deleteOthers utcOffset t₀ w.logDir
  obtain ⟨filters, hi⟩ := (importFound_isOk_iff hfresh.shaped hash utcOffset t₀ _).mpr hparses
  have hs := (importFiles_run hfresh.shaped hsome hi).1
  rw [importFiles_withFilters] at hi
  refine ⟨filters, _, recoverFromLog_returns.mpr ⟨rfl, hi⟩, ?_⟩
  intro ops e' htimed hfirst hr t ht hlast token expTime hm ha hexp
  refine hs.isRevoked_of_inFirst ?_ htimed hfirst hr ha.2 ht hlast hexp
  refine RotatingWindow.holds_of_take ?_ (slots_le hs ha)
  exact contains_imported hfresh hsome hi (by rwa [recordsOf_deleteOthers]) ha

/-- A record loaded at 3700 is still found after the rotations at 3710 and 3720. -/
theorem loaded_stays_revoked_past_rotations :
    ∃ fresh, getNewFilters 3 8 1 = .ok fresh ∧
      ∃ filters w', Returns (recoverFromLog (fun _ key => key.length) 0 3700 fresh)
          ⟨({} : Engine).withParams ⟨30, 10, 8, 1⟩, writeAll 0 [⟨3690, "a", 3725⟩]⟩ filters w' ∧
        ∃ e', run (fun _ key => key.length)
            { ({} : Engine).withParams ⟨30, 10, 8, 1⟩ with filters := filters }
            [.rotate 3710, .revokeJwt "bb" 3740 3712, .rotate 3720] = .ok e' ∧
          e'.isRevoked (fun _ key => key.length) 3722 "a" 3725 = .ok true := by
  have hclean : ∀ r ∈ [(⟨3690, "a", 3725⟩ : LogEntry)], r.Clean := by
    rintro _ h
    rw [List.mem_singleton.mp h]
    exact ⟨by decide, by decide, by decide⟩
  have hnew : getNewFilters 3 8 1 = .ok _ := rfl
  have hfresh : FreshFilters (({} : Engine).withParams ⟨30, 10, 8, 1⟩) _ :=
    ⟨by decide, by decide, hnew⟩
  obtain ⟨filters, w', hloads, hstays⟩ := @loaded_stays_revoked (fun _ key => key.length) 0 3700
    ⟨({} : Engine).withParams ⟨30, 10, 8, 1⟩, _⟩ _ hfresh (visitedParse_writeAll hclean 0 3700)
  obtain ⟨rfl, hi⟩ := recoverFromLog_returns.mp hloads
  obtain ⟨blank, hist⟩ := hfresh.import_hasHistory (by decide) (isSome_deleteOthers 0 3700 _) hi
  obtain ⟨e', hr⟩ := hist.run_isOk (show 8 < 2 ^ 32 by decide)
    [.rotate 3710, .revokeJwt "bb" 3740 3712, .rotate 3720]
  exact ⟨_, hnew, filters, _, hloads, e', hr, hstays _ e' (by decide) (by decide) hr 3722
    (by decide) (by decide) _ _ (by decide +kernel) (by decide) (by decide)⟩

end Engine

end JwtRevoker
