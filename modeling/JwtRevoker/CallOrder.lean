import JwtRevoker.LoadAgreement
import JwtRevoker.Traces

/-!
# The order of calls

The threads of a node and of its clients call the engine in any order. Revocations commute,
whatever the clock reads at each of them, and a call that writes to no slot commutes even with
a rotation: only the order of revocations and rotations makes a difference.
-/
namespace JwtRevoker.Engine

/-- The call writes to no slot of a window with the parameters of `e`. -/
def Idle (e : Engine) : Op → Prop
  | .revokeJwt _ expTime now => ¬ e.Accepts (expTime - now) ∨ e.slots (expTime - now) = 0
  | .isRevoked _ _ _ => True
  | .rotate _ => False

inductive Independent (e : Engine) : Op → Op → Prop
  | idle {a : Op} (b : Op) : e.Idle a → Independent e a b
  | idle' (a : Op) {b : Op} : e.Idle b → Independent e a b
  | revocations (token token' : Str) (expTime expTime' now now' : ℤ) :
      Independent e (.revokeJwt token expTime now) (.revokeJwt token' expTime' now')

/-- An engine in shape with the parameters of `e`. -/
structure Alike (e s : Engine) : Prop where
  shaped : s.Shaped
  eq : s = { e with filters := s.filters }

variable {hash : HashCalls} {e s s' : Engine} {a b : Op} {ops ops' : List Op}

lemma Alike.step (h : Alike e s) (hs : s.step hash a = .ok s') : Alike e s' := by
  obtain ⟨heq, -⟩ := step_frame hs
  refine ⟨h.shaped.step hs, ?_⟩
  rw [heq, h.eq]

lemma putPrefix_zero (hash : HashCalls) (token : Str) (filters : List BaseBloomFilter) :
    RotatingWindow.putPrefix (BaseBloomFilter.add hash) 0 token filters = filters := by
  apply List.ext_getElem?
  intro i
  simp [RotatingWindow.getElem?_putPrefix]

lemma step_of_idle (h : Alike e s) (ha : e.Idle a) : s.step hash a = .ok s := by
  cases a with
  | revokeJwt token expTime now =>
    have hstep := revokeJwt_eq h.shaped hash now token expTime
    rw [Engine.step, hstep]
    split_ifs with haccepts
    · rw [h.eq] at haccepts
      have hslots : e.slots (expTime - now) = 0 := ha.resolve_left fun hn => hn haccepts
      have hslots' : s.slots (expTime - now) = 0 := by
        rw [h.eq]
        exact hslots
      rw [hslots', putPrefix_zero]
    · rfl
  | isRevoked token expTime now =>
    rw [Engine.step, isRevoked_eq h.shaped]
    rfl
  | rotate now => exact ha.elim

lemma loadRecord_right_comm (hash : HashCalls) (e : Engine) (now now' : ℤ)
    (filters : List BaseBloomFilter) (r r' : Str × ℤ) :
    loadRecord hash now' e (loadRecord hash now e filters r) r' =
      loadRecord hash now e (loadRecord hash now' e filters r') r := by
  unfold loadRecord
  split_ifs
  · exact RotatingWindow.putPrefix_right_comm _ (BaseBloomFilter.add_right_comm hash) ..
  · rfl
  · rfl
  · rfl

/-- Two revocations in either order. -/
lemma revokeJwt_comm (h : s.Shaped) (token token' : Str) (expTime expTime' now now' : ℤ) :
    (s.revokeJwt hash now token expTime >>= fun s => s.revokeJwt hash now' token' expTime') =
      (s.revokeJwt hash now' token' expTime' >>= fun s => s.revokeJwt hash now token expTime) := by
  obtain ⟨hfirst, hshape⟩ := revokeJwt_eq_loadRecord h hash now token expTime
  obtain ⟨hfirst', hshape'⟩ := revokeJwt_eq_loadRecord h hash now' token' expTime'
  have hsecond := (revokeJwt_eq_loadRecord hshape hash now' token' expTime').1
  have hsecond' := (revokeJwt_eq_loadRecord hshape' hash now token expTime).1
  rw [hfirst, hfirst', ok_bind, ok_bind, hsecond, hsecond']
  have hcomm := loadRecord_right_comm hash s now now' s.filters (token, expTime)
    (token', expTime')
  exact congrArg (fun filters => Except.ok { s with filters := filters }) hcomm

/-- A call that writes nothing, before or after another. -/
lemma step_comm_of_idle (h : Alike e s) (ha : e.Idle a) (b : Op) :
    (s.step hash a >>= fun s => s.step hash b) = (s.step hash b >>= fun s => s.step hash a) := by
  rw [step_of_idle h ha, ok_bind]
  cases hb : s.step hash b with
  | error fault => rfl
  | ok s' => exact (step_of_idle (h.step hb) ha).symm

lemma commutes_independent (hash : HashCalls) (e : Engine) :
    Traces.Commutes e.Independent (Engine.step hash) (Alike e) where
  kept s a s' h hs := h.step hs
  comm s a b h hab := by
    cases hab with
    | idle b ha => exact step_comm_of_idle h ha b
    | idle' a hb => exact (step_comm_of_idle h hb a).symm
    | revocations token token' expTime expTime' now now' =>
      exact revokeJwt_comm h.shaped token token' expTime expTime' now now'

/-- However the calls of several threads are interleaved: what is left in the filters depends
only on which revocations that write to a slot come before which rotations. -/
theorem run_of_equivalent (h : e.Shaped) (heq : Traces.Equivalent e.Independent ops ops') :
    e.run hash ops = e.run hash ops' :=
  (commutes_independent hash e).foldlM_eq heq ⟨h, rfl⟩

/-- The last revocation writes to no slot. -/
def sampleCalls : List Op :=
  [.revokeJwt "a" 25 0, .revokeJwt "bc" 29 2, .rotate 10, .revokeJwt "d" 15 10]

lemma sampleCalls_equivalent (hidle : e.Idle (.revokeJwt "d" 15 10)) :
    Traces.Equivalent e.Independent sampleCalls
      [.revokeJwt "bc" 29 2, .revokeJwt "d" 15 10, .revokeJwt "a" 25 0, .rotate 10] := by
  have hlast := Traces.Equivalent.swap [] (Independent.idle' (.rotate 10) hidle)
  have hfirst := Traces.Equivalent.swap [.revokeJwt "d" 15 10, .rotate 10]
    (Independent.revocations (e := e) "a" "bc" 25 29 0 2)
  have hmiddle := Traces.Equivalent.swap [.rotate 10]
    (Independent.idle' (.revokeJwt "a" 25 0) hidle)
  exact ((hlast.cons _).cons _).trans (hfirst.trans (hmiddle.cons _))

theorem run_of_equivalent_sample :
    ∃ w', EngineM.Returns (init (fun _ key => key.length) 0 0 ⟨30, 10, 8, 1⟩)
        ⟨{}, fun _ => none⟩ () w' ∧
      w'.engine.run (fun _ key => key.length) sampleCalls =
        w'.engine.run (fun _ key => key.length)
          [.revokeJwt "bc" 29 2, .revokeJwt "d" 15 10, .revokeJwt "a" 25 0, .rotate 10] := by
  have hi : EngineM.Returns (init (fun _ key => key.length) 0 0 ⟨30, 10, 8, 1⟩)
      ⟨{}, fun _ => none⟩ () _ := EngineM.returns_of_ok rfl
  obtain ⟨-, hbuilt⟩ := init_returns.mp hi
  obtain ⟨-, -, -, hshaped, -⟩ := hbuilt.run
  have hidle : Idle _ (.revokeJwt "d" 15 10) := .inr (by
    rw [slots, hbuilt.hasParams.rotationInterval]
    rfl)
  exact ⟨_, hi, run_of_equivalent hshaped (sampleCalls_equivalent hidle)⟩

end JwtRevoker.Engine
