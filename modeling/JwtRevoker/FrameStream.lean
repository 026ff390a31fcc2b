import Mathlib

/-!
# Streams of self-delimiting frames

A sender turns each message into a list of symbols, a receiver takes one message
off the front of a stream or fails. When the receiver undoes the sender in front
of any rest, and lacks symbols on every proper part of a frame, it gives back a
whole stream of frames, and a stream that is cut off gives back a first part of
the messages and then that failure.
-/
namespace JwtRevoker.FrameStream

variable {μ ν α ε : Type*} (send : μ → List α) (recv : List α → Except ε (ν × List α))

def stream (messages : List μ) : List α := messages.flatMap send

/-- At most `n` receptions, up to the first that fails: what was received, and
the rest of the stream or the failure. -/
def receive : ℕ → List α → List ν × Except ε (List α)
  | 0, rest => ([], .ok rest)
  | n + 1, input =>
      match recv input with
      | .error lack => ([], .error lack)
      | .ok (message, rest) =>
          let later := receive n rest
          (message :: later.1, later.2)

/-- On good messages the receiver takes exactly one frame off the stream, and
fails with `lack` on every proper part of a frame. -/
structure Delimits (good : μ → Prop) (same : μ → ν → Prop) (lack : ε) : Prop where
  recv_send : ∀ m rest, good m → ∃ m', recv (send m ++ rest) = .ok (m', rest) ∧ same m m'
  recv_cut : ∀ m cut, good m → cut <+: send m → cut ≠ send m → recv cut = .error lack

variable {send recv} {good : μ → Prop} {same : μ → ν → Prop} {lack : ε} {messages : List μ}

lemma receive_succ_ok {input rest : List α} {message : ν} (n : ℕ)
    (h : recv input = .ok (message, rest)) :
    receive recv (n + 1) input = (message :: (receive recv n rest).1, (receive recv n rest).2) := by
  simp [receive, h]

/-- A stream of whole frames gives back its messages and is used up. -/
theorem receive_stream (h : Delimits send recv good same lack) (hg : ∀ m ∈ messages, good m)
    (rest : List α) :
    ∃ received, receive recv messages.length (stream send messages ++ rest) =
        (received, .ok rest) ∧ List.Forall₂ same messages received := by
  induction messages with
  | nil => exact ⟨[], rfl, .nil⟩
  | cons m messages ih =>
    obtain ⟨received, hr, hsame⟩ := ih fun m' hm => hg m' (List.mem_cons_of_mem _ hm)
    obtain ⟨m', hm', hs⟩ := h.recv_send m (stream send messages ++ rest) (hg m List.mem_cons_self)
    refine ⟨m' :: received, ?_, .cons hs hsame⟩
    rw [stream, List.flatMap_cons, ← stream, List.append_assoc, List.length_cons,
      receive_succ_ok _ hm', hr]

lemma prefix_append_split {cut xs ys : List α} (h : cut <+: xs ++ ys) :
    (cut <+: xs ∧ cut ≠ xs) ∨ ∃ cut', cut = xs ++ cut' ∧ cut' <+: ys := by
  rcases List.prefix_or_prefix_of_prefix h (List.prefix_append xs ys) with hc | ⟨cut', rfl⟩
  · by_cases he : cut = xs
    · exact .inr ⟨[], by simp [he], List.nil_prefix⟩
    · exact .inl ⟨hc, he⟩
  · exact .inr ⟨cut', rfl, (List.prefix_append_right_inj xs).mp h⟩

/-- A stream that is cut off gives back the first `k` messages and then fails,
however often it is read. -/
theorem receive_cut (h : Delimits send recv good same lack) (hg : ∀ m ∈ messages, good m)
    {cut : List α} (hcut : cut <+: stream send messages) (hne : cut ≠ stream send messages) :
    ∃ k < messages.length, ∃ received, List.Forall₂ same (messages.take k) received ∧
      ∀ n, k < n → receive recv n cut = (received, .error lack) := by
  induction messages generalizing cut with
  | nil => exact absurd (List.prefix_nil.mp hcut) hne
  | cons m messages ih =>
    have hgm := hg m List.mem_cons_self
    rw [stream, List.flatMap_cons, ← stream] at hcut hne
    rcases prefix_append_split hcut with ⟨hc, hn⟩ | ⟨cut', rfl, hc⟩
    · refine ⟨0, Nat.succ_pos _, [], by simp, ?_⟩
      intro n hpos
      obtain ⟨n, rfl⟩ := Nat.exists_eq_succ_of_ne_zero hpos.ne'
      simp [receive, h.recv_cut m cut hgm hc hn]
    · obtain ⟨k, hk, received, hsame, hr⟩ := ih (fun m' hm => hg m' (List.mem_cons_of_mem _ hm)) hc
        fun he => hne (by rw [he])
      obtain ⟨m', hm', hs⟩ := h.recv_send m cut' hgm
      refine ⟨k + 1, Nat.succ_lt_succ hk, m' :: received, .cons hs hsame, ?_⟩
      intro n hlt
      obtain ⟨n, rfl⟩ := Nat.exists_eq_succ_of_ne_zero (Nat.ne_zero_of_lt hlt)
      rw [receive_succ_ok n hm', hr n (by omega)]

/-- What arrives of a stream that may end in a part of a frame gives back first messages. -/
theorem receive_prefix (h : Delimits send recv good same lack) (hg : ∀ m ∈ messages, good m)
    {tail : μ} (htail : good tail) {torn input : List α} (htorn : torn <+: send tail)
    (hne : torn ≠ send tail) (hinput : input <+: stream send messages ++ torn) (n : ℕ) :
    ∃ k, List.Forall₂ same (messages.take k) (receive recv n input).1 := by
  induction messages generalizing input n with
  | nil =>
    have hpart : input ≠ send tail := by
      rintro rfl
      exact hne (htorn.eq_of_length (le_antisymm htorn.length_le hinput.length_le))
    refine ⟨0, ?_⟩
    cases n with
    | zero => exact .nil
    | succ n =>
      have hcut := h.recv_cut tail input htail (hinput.trans htorn) hpart
      simp [receive, hcut]
  | cons m messages ih =>
    have hgm := hg m List.mem_cons_self
    rw [stream, List.flatMap_cons, ← stream, List.append_assoc] at hinput
    cases n with
    | zero => exact ⟨0, .nil⟩
    | succ n =>
      rcases prefix_append_split hinput with ⟨hc, hn⟩ | ⟨rest, rfl, hrest⟩
      · exact ⟨0, by simp [receive, h.recv_cut m input hgm hc hn]⟩
      · obtain ⟨k, hk⟩ := ih (fun m' hm => hg m' (List.mem_cons_of_mem _ hm)) hrest n
        obtain ⟨m', hm', hs⟩ := h.recv_send m rest hgm
        refine ⟨k + 1, ?_⟩
        rw [receive_succ_ok n hm']
        exact .cons hs hk

end JwtRevoker.FrameStream
