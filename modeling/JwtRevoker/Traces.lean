import Mathlib

/-!
# Traces

Two lists of actions are equivalent when swaps of neighbouring independent actions lead
from one to the other. A fold in which independent actions commute does not tell them apart.
-/
namespace JwtRevoker.Traces

variable {α σ ε : Type}

inductive Equivalent (Independent : α → α → Prop) : List α → List α → Prop
  | refl (as : List α) : Equivalent Independent as as
  | swap {a b : α} (as : List α) : Independent a b →
      Equivalent Independent (a :: b :: as) (b :: a :: as)
  | cons {as bs : List α} (a : α) : Equivalent Independent as bs →
      Equivalent Independent (a :: as) (a :: bs)
  | trans {as bs cs : List α} : Equivalent Independent as bs → Equivalent Independent bs cs →
      Equivalent Independent as cs

variable {Independent : α → α → Prop} {step : σ → α → Except ε σ} {Inv : σ → Prop} {s : σ}
  {as bs : List α}

/-- Both orders of two independent actions come to the same, in states that the steps keep. -/
structure Commutes (Independent : α → α → Prop) (step : σ → α → Except ε σ) (Inv : σ → Prop) :
    Prop where
  kept : ∀ s a s', Inv s → step s a = .ok s' → Inv s'
  comm : ∀ s a b, Inv s → Independent a b →
    (step s a >>= fun s => step s b) = (step s b >>= fun s => step s a)

/-- Equivalent lists of actions lead to the same state, or to the same fault. -/
theorem Commutes.foldlM_eq (h : Commutes Independent step Inv) (heq : Equivalent Independent as bs)
    (hs : Inv s) : as.foldlM step s = bs.foldlM step s := by
  induction heq generalizing s with
  | refl => rfl
  | @swap a b as hab =>
    simp only [List.foldlM_cons, ← bind_assoc]
    rw [h.comm s a b hs hab]
  | @cons as bs a _ ih =>
    rw [List.foldlM_cons, List.foldlM_cons]
    cases hstep : step s a with
    | error fault => rfl
    | ok s' => exact ih (h.kept s a s' hs hstep)
  | trans _ _ ih₁ ih₂ => exact (ih₁ hs).trans (ih₂ hs)

end JwtRevoker.Traces
