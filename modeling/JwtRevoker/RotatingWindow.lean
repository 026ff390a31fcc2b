import Mathlib

/-!
# Rotating windows of accumulators

A window is a list of slots. A `put` adds one item to a prefix of the slots, a
`shift` drops the first slot and appends an empty one. After any sequence of
events every slot is the fold of exactly the items that still reach it.
-/
namespace JwtRevoker.RotatingWindow

inductive Event (α : Type*)
  | put (depth : ℕ) (item : α)
  | shift
  deriving DecidableEq, Repr

variable {α β : Type*}

def shifts : List (Event α) → ℕ
  | [] => 0
  | .put _ _ :: later => shifts later
  | .shift :: later => shifts later + 1

/-- Items that reach slot `i` at the end of a chronological sequence: an item
put to depth `d` still reaches slot `i` after `k` shifts when `i + k < d`. -/
def alive (i : ℕ) : List (Event α) → List α
  | [] => []
  | .put depth item :: later =>
      if i + shifts later < depth then item :: alive i later else alive i later
  | .shift :: later => alive i later

@[simp] lemma shifts_append (es fs : List (Event α)) :
    shifts (es ++ fs) = shifts es + shifts fs := by
  induction es with
  | nil => simp [shifts]
  | cons e es ih =>
    cases e with
    | put depth item => simpa [shifts] using ih
    | shift => simp only [List.cons_append, shifts, ih]; omega

lemma alive_append_put (i : ℕ) (es : List (Event α)) (depth : ℕ) (item : α) :
    alive i (es ++ [.put depth item]) = alive i es ++ if i < depth then [item] else [] := by
  induction es with
  | nil => simp [alive, shifts]
  | cons e es ih =>
    cases e with
    | put d a =>
      simp only [List.cons_append, alive, shifts_append, shifts, Nat.add_zero, ih]
      split_ifs <;> rfl
    | shift => simpa [alive] using ih

lemma alive_append_shift (i : ℕ) (es : List (Event α)) :
    alive i (es ++ [.shift]) = alive (i + 1) es := by
  induction es with
  | nil => rfl
  | cons e es ih =>
    cases e with
    | put d a =>
      have hs : i + (shifts es + 1) = i + 1 + shifts es := by omega
      simp only [List.cons_append, alive, shifts_append, shifts, Nat.zero_add, ih, hs]
    | shift => simpa [alive] using ih

lemma alive_eq_nil {n i : ℕ} {es : List (Event α)} (hi : n ≤ i)
    (hd : ∀ depth item, Event.put depth item ∈ es → depth ≤ n) : alive i es = [] := by
  induction es with
  | nil => rfl
  | cons e es ih =>
    have ht : alive i es = [] := ih fun d a h => hd d a (List.mem_cons_of_mem _ h)
    cases e with
    | put d a =>
      have hle := hd d a List.mem_cons_self
      have hn : ¬ i + shifts es < d := by omega
      simp [alive, hn, ht]
    | shift => simpa [alive] using ht

/-- Nesting: what reaches a slot reaches every earlier slot, in the same order. -/
theorem alive_sublist {i j : ℕ} (hij : i ≤ j) (es : List (Event α)) :
    (alive j es).Sublist (alive i es) := by
  induction es with
  | nil => exact List.Sublist.refl _
  | cons e es ih =>
    cases e with
    | put d a =>
      simp only [alive]
      split_ifs with hj hi
      · exact ih.cons_cons a
      · omega
      · exact ih.cons a
      · exact ih
    | shift => exact ih

section Slots

variable (add : β → α → β) (empty : β)

/-- Add one item to the first `depth` slots. -/
def putPrefix (depth : ℕ) (item : α) (w : List β) : List β :=
  w.mapIdx fun i s => if i < depth then add s item else s

def rotate (w : List β) : List β := w.tail ++ [empty]

def apply (w : List β) : Event α → List β
  | .put depth item => putPrefix add depth item w
  | .shift => rotate empty w

def run (w : List β) (es : List (Event α)) : List β := es.foldl (apply add empty) w

@[simp] lemma length_putPrefix (depth : ℕ) (item : α) (w : List β) :
    (putPrefix add depth item w).length = w.length := by
  simp [putPrefix]

lemma getElem?_putPrefix (depth : ℕ) (item : α) (w : List β) (i : ℕ) :
    (putPrefix add depth item w)[i]? =
      w[i]?.map fun s => if i < depth then add s item else s := by
  simp [putPrefix]

/-- Add one item to the slots from `lo` up to but not including `hi`. -/
def putBetween (lo hi : ℕ) (item : α) (w : List β) : List β :=
  w.mapIdx fun i s => if lo ≤ i ∧ i < hi then add s item else s

lemma getElem?_putBetween (lo hi : ℕ) (item : α) (w : List β) (i : ℕ) :
    (putBetween add lo hi item w)[i]? =
      w[i]?.map fun s => if lo ≤ i ∧ i < hi then add s item else s := by
  simp [putBetween]

@[simp] lemma length_putBetween (lo hi : ℕ) (item : α) (w : List β) :
    (putBetween add lo hi item w).length = w.length := by
  simp [putBetween]

lemma putBetween_zero (depth : ℕ) (item : α) (w : List β) :
    putBetween add 0 depth item w = putPrefix add depth item w := by
  simp [putBetween, putPrefix]

lemma putBetween_self (lo : ℕ) (item : α) (w : List β) : putBetween add lo lo item w = w := by
  refine List.ext_getElem? fun i => ?_
  have hn : ¬ (lo ≤ i ∧ i < lo) := by omega
  simp [getElem?_putBetween, hn]

/-- Two adjacent writes are one. -/
theorem putBetween_putBetween {lo mid hi : ℕ} (hlo : lo ≤ mid) (hhi : mid ≤ hi) (item : α)
    (w : List β) :
    putBetween add mid hi item (putBetween add lo mid item w) = putBetween add lo hi item w := by
  refine List.ext_getElem? fun i => ?_
  rw [getElem?_putBetween, getElem?_putBetween, getElem?_putBetween, Option.map_map]
  refine congrArg (Option.map · w[i]?) (funext fun s => ?_)
  rw [Function.comp_apply]
  by_cases hmid : i < mid
  · have h₁ : ¬ (mid ≤ i ∧ i < hi) := by omega
    have h₂ : (lo ≤ i ∧ i < hi) ↔ lo ≤ i ∧ i < mid := by omega
    simp only [h₁, h₂, if_false]
  · have h₁ : ¬ (lo ≤ i ∧ i < mid) := by omega
    have h₂ : (lo ≤ i ∧ i < hi) ↔ mid ≤ i ∧ i < hi := by omega
    simp only [h₁, h₂, if_false]

lemma length_rotate {w : List β} (hw : 0 < w.length) : (rotate empty w).length = w.length := by
  simp only [rotate, List.length_append, List.length_tail, List.length_singleton]
  omega

lemma run_append_singleton (w : List β) (es : List (Event α)) (e : Event α) :
    run add empty w (es ++ [e]) = apply add empty (run add empty w es) e := by
  simp [run, List.foldl_append]

lemma length_apply {w : List β} (hw : 0 < w.length) (e : Event α) :
    (apply add empty w e).length = w.length := by
  cases e with
  | put d a => exact length_putPrefix add d a w
  | shift => exact length_rotate empty hw

lemma length_run {w : List β} (hw : 0 < w.length) (es : List (Event α)) :
    (run add empty w es).length = w.length := by
  induction es using List.reverseRecOn with
  | nil => rfl
  | append_singleton es e ih =>
    rw [run_append_singleton, length_apply add empty (ih ▸ hw), ih]

/-- Slot semantics: started empty, slot `i` folds exactly the items alive in it. -/
theorem getElem?_run {n i : ℕ} (hi : i < n) (es : List (Event α))
    (hd : ∀ depth item, Event.put depth item ∈ es → depth ≤ n) :
    (run add empty (List.replicate n empty) es)[i]? = some ((alive i es).foldl add empty) := by
  induction es using List.reverseRecOn generalizing i with
  | nil => simp [run, alive, hi]
  | append_singleton es e ih =>
    have hd' : ∀ depth item, Event.put depth item ∈ es → depth ≤ n :=
      fun d a h => hd d a (List.mem_append_left _ h)
    have hpos : 0 < (List.replicate n empty).length := by rw [List.length_replicate]; omega
    have hlen : (run add empty (List.replicate n empty) es).length = n := by
      rw [length_run add empty hpos, List.length_replicate]
    rw [run_append_singleton]
    cases e with
    | put d a =>
      simp only [apply, getElem?_putPrefix, ih hi hd', alive_append_put, List.foldl_append,
        Option.map_some]
      split_ifs <;> rfl
    | shift =>
      simp only [apply, rotate, alive_append_shift]
      by_cases hlast : i + 1 < n
      · rw [List.getElem?_append_left (by rw [List.length_tail]; omega), List.getElem?_tail]
        exact ih hlast hd'
      · -- The appended slot: nothing was put deeper than the window is long.
        rw [alive_eq_nil (by omega) hd',
          List.getElem?_append_right (by rw [List.length_tail]; omega)]
        have hz : i - (run add empty (List.replicate n empty) es).tail.length = 0 := by
          rw [List.length_tail]; omega
        rw [hz]
        rfl

/-- Writes commute when adding to one slot does. -/
theorem putPrefix_right_comm (hcomm : ∀ s a b, add (add s a) b = add (add s b) a) (w : List β)
    (d : ℕ) (a : α) (d' : ℕ) (b : α) :
    putPrefix add d' b (putPrefix add d a w) = putPrefix add d a (putPrefix add d' b w) := by
  refine List.ext_getElem? fun i => ?_
  simp only [getElem?_putPrefix, Option.map_map]
  refine congrArg (Option.map · w[i]?) (funext fun s => ?_)
  simp only [Function.comp_apply]
  split_ifs
  · exact hcomm s a b
  · rfl
  · rfl
  · rfl

/-- Slot `i` is there and has the property `P`. -/
def HoldsAt (P : β → Prop) (w : List β) (i : ℕ) : Prop := ∃ s, w[i]? = some s ∧ P s

instance (P : β → Prop) [DecidablePred P] (w : List β) (i : ℕ) : Decidable (HoldsAt P w i) :=
  inferInstanceAs (Decidable (∃ s, s ∈ w[i]? ∧ P s))

/-- The first `depth` slots are there and have the property `P`. -/
def Holds (P : β → Prop) (depth : ℕ) (w : List β) : Prop := ∀ i < depth, HoldsAt P w i

variable {add empty} {P : β → Prop} {depth i : ℕ} {item : α} {w : List β}

lemma HoldsAt.lt_length (h : HoldsAt P w i) : i < w.length := by
  obtain ⟨s, hget, -⟩ := h
  exact (List.getElem?_eq_some_iff.mp hget).1

/-- When an item brings the property, a write adds its own slots and takes none away. -/
theorem holdsAt_putBetween (hadd : ∀ s, P (add s item)) {lo hi : ℕ} :
    HoldsAt P (putBetween add lo hi item w) i ↔
      (lo ≤ i ∧ i < hi ∧ i < w.length) ∨ HoldsAt P w i := by
  by_cases hlen : i < w.length
  · simp only [HoldsAt, getElem?_putBetween, List.getElem?_eq_getElem hlen, Option.map_some,
      Option.some.injEq, exists_eq_left']
    split_ifs with hin
    · simp [hadd, hin, hlen]
    · simp only [hlen, and_true, hin, false_or]
  · have hn : ¬ HoldsAt P w i := fun h => hlen h.lt_length
    have hn' : ¬ HoldsAt P (putBetween add lo hi item w) i := fun h =>
      hlen (length_putBetween add lo hi item w ▸ h.lt_length)
    simp [hn, hn', hlen]

lemma holdsAt_rotate (hempty : ¬ P empty) :
    HoldsAt P (rotate empty w) i ↔ HoldsAt P w (i + 1) := by
  unfold HoldsAt RotatingWindow.rotate
  by_cases hlt : i < w.tail.length
  · rw [List.getElem?_append_left hlt, List.getElem?_tail]
  · have hnone : w[i + 1]? = none := by
      rw [List.length_tail] at hlt
      exact List.getElem?_eq_none (by omega)
    rw [List.getElem?_append_right (by omega), hnone]
    constructor
    · rintro ⟨s, hget, hP⟩
      rw [List.mem_singleton.mp (List.mem_of_getElem? hget)] at hP
      exact absurd hP hempty
    · rintro ⟨s, hget, -⟩
      cases hget

/-- A write of `num` slots, cut by a shift after `p` of them, against the shift coming
before or after the whole write. -/
theorem holdsAt_torn_iff (hadd : ∀ s, P (add s item)) (hempty : ¬ P empty) {p num : ℕ}
    (hp : p ≤ num) (hnum : num ≤ w.length) (hw : 0 < w.length) :
    ((∀ i, HoldsAt P (putBetween add 0 num item (rotate empty w)) i →
        HoldsAt P (putBetween add p num item (rotate empty (putBetween add 0 p item w))) i) ∨
      ∀ i, HoldsAt P (rotate empty (putBetween add 0 num item w)) i →
        HoldsAt P (putBetween add p num item (rotate empty (putBetween add 0 p item w))) i) ↔
      p = 0 ∨ p = num ∨ HoldsAt P w p := by
  have hlen : (rotate empty w).length = w.length := length_rotate empty hw
  have hlen' : (rotate empty (putBetween add 0 p item w)).length = w.length := by
    rw [length_rotate empty (by rwa [length_putBetween]), length_putBetween]
  simp only [holdsAt_putBetween hadd, holdsAt_rotate hempty, hlen, hlen']
  constructor
  · intro h
    by_contra hn
    rw [not_or, not_or] at hn
    obtain ⟨hzero, hlast, hnot⟩ := hn
    -- The slot the shift has moved to `p - 1` is written in both orders, and not here.
    have hmoved : p - 1 + 1 = p := by omega
    rcases h with h | h
    · rcases h (p - 1) (.inl (by omega)) with h | h | h
      · omega
      · omega
      · exact hnot (hmoved ▸ h)
    · rcases h (p - 1) (.inl (by omega)) with h | h | h
      · omega
      · omega
      · exact hnot (hmoved ▸ h)
  · rintro (rfl | rfl | h)
    · exact .inl fun i hi => hi.imp_right .inr
    · exact .inr fun i hi => .inr hi
    · refine .inl fun i hi => ?_
      rcases hi with hi | hi
      · by_cases hip : i + 1 = p
        · exact .inr (.inr (hip ▸ h))
        · omega
      · exact .inr (.inr hi)

lemma Holds.mono (h : Holds P depth w) {d : ℕ} (hd : d ≤ depth) : Holds P d w :=
  fun i hi => h i (hi.trans_le hd)

lemma holds_of_take (h : ∀ s ∈ w.take depth, P s) (hd : depth ≤ w.length) : Holds P depth w := by
  intro i hi
  have hlt : i < (w.take depth).length := by rw [List.length_take]; omega
  refine ⟨w[i], List.getElem?_eq_getElem (by omega), h _ ?_⟩
  rw [← List.getElem_take (h := hlt)]
  exact List.getElem_mem hlt

lemma Holds.of_mem_take (h : Holds P depth w) {s : β} (hs : s ∈ w.take depth) : P s := by
  obtain ⟨i, hi, rfl⟩ := List.mem_take_iff_getElem.mp hs
  obtain ⟨s, hget, hP⟩ := h i (by omega)
  rw [List.getElem?_eq_getElem (by omega)] at hget
  exact Option.some.inj hget ▸ hP

/-- A later put to any depth takes nothing away. -/
theorem Holds.putPrefix (h : Holds P depth w) (hadd : ∀ s, P s → P (add s item)) (d : ℕ) :
    Holds P depth (putPrefix add d item w) := by
  intro i hi
  obtain ⟨s, hget, hP⟩ := h i hi
  refine ⟨_, by rw [getElem?_putPrefix, hget]; rfl, ?_⟩
  split_ifs
  · exact hadd s hP
  · exact hP

theorem holds_putPrefix (hadd : ∀ s, P (add s item)) (hd : depth ≤ w.length) :
    Holds P depth (putPrefix add depth item w) := by
  intro i hi
  rw [← putBetween_zero, holdsAt_putBetween hadd]
  exact .inl ⟨Nat.zero_le i, hi, by omega⟩

/-- A shift costs one slot. -/
theorem Holds.rotate (h : Holds P depth w) : Holds P (depth - 1) (rotate empty w) := by
  intro i hi
  obtain ⟨s, hget, hP⟩ := h (i + 1) (by omega)
  have hlt := (List.getElem?_eq_some_iff.mp hget).1
  refine ⟨s, ?_, hP⟩
  rw [RotatingWindow.rotate, List.getElem?_append_left (by rw [List.length_tail]; omega),
    List.getElem?_tail, hget]

end Slots

end JwtRevoker.RotatingWindow
