import JwtRevoker.FrameStream
import JwtRevoker.JsonText

/-!
# Message frames on a socket

A frame is the length of the message as four bytes, most significant first, and
the message. What is sent on one end of a connection is the stream of frames the
other end reads, for both the blocking functions and the coroutines.
-/
namespace JwtRevoker

open FrameStream JsonText

/-- `htonl` and the copy into the first four bytes of the frame. -/
def msgLengthBE (n : ℕ) : Str :=
  [n / 2 ^ 24 % 256, n / 2 ^ 16 % 256, n / 2 ^ 8 % 256, n % 256].map Char.ofNat

/-- The copy out of the header and `ntohl`. -/
def msgBodyLength (msgHeaderBE : Str) : ℕ :=
  msgHeaderBE.foldl (fun length byte => 256 * length + byte.toNat) 0

/-- `boost::asio::read` of `n` bytes and the rest of the stream. -/
def readBytes (n : ℕ) (input : Str) : Except Fault (Str × Str) :=
  if n ≤ input.length then .ok (input.take n, input.drop n)
  else .error (.runtimeError "End of file")

/-- The bytes written; `size()` is narrowed to 32 bits. -/
def sendMsgToSocket (msg : Str) : Str :=
  if msg = [] then [] else msgLengthBE (toUnsignedInt msg.length) ++ msg

def recvMsgFromSocket (input : Str) : Except Fault (Str × Str) := do
  let (msgHeaderBE, input) ← readBytes 4 input
  if msgBodyLength msgHeaderBE = 0 then return ([], input)
  readBytes (msgBodyLength msgHeaderBE) input

def asyncSendMsgToSocket (msg : Str) : Str :=
  if msg = [] then [] else msgLengthBE (toUnsignedInt msg.length) ++ msg

def asyncRecvMsgFromSocket (input : Str) : Except Fault (Str × Str) := do
  let (msgHeaderBE, input) ← readBytes 4 input
  if msgBodyLength msgHeaderBE = 0 then return ([], input)
  readBytes (msgBodyLength msgHeaderBE) input

@[simp] lemma length_msgLengthBE (n : ℕ) : (msgLengthBE n).length = 4 := rfl

lemma toNat_ofNat_byte (n : ℕ) : (Char.ofNat (n % 256)).toNat = n % 256 := by
  have hvalid : (n % 256).isValidChar := .inl (by omega)
  rw [Char.ofNat, dif_pos hvalid]
  rfl

lemma msgBodyLength_msgLengthBE {n : ℕ} (hn : n < 2 ^ 32) :
    msgBodyLength (msgLengthBE n) = n := by
  simp only [msgBodyLength, msgLengthBE, List.map_cons, List.map_nil, List.foldl_cons,
    List.foldl_nil, toNat_ofNat_byte]
  omega

lemma readBytes_append {n : ℕ} {bytes : Str} (hn : bytes.length = n) (rest : Str) :
    readBytes n (bytes ++ rest) = .ok (bytes, rest) := by
  subst hn
  simp [readBytes]

lemma readBytes_of_lt {n : ℕ} {input : Str} (hn : input.length < n) :
    readBytes n input = .error (.runtimeError "End of file") :=
  if_neg (not_le.mpr hn)

/-- A message between 1 and 2^32 - 1 bytes comes back from the front of a stream. -/
theorem recvMsgFromSocket_send {msg : Str} (hne : msg ≠ []) (hlen : msg.length < 2 ^ 32)
    (rest : Str) : recvMsgFromSocket (sendMsgToSocket msg ++ rest) = .ok (msg, rest) := by
  have hpos : msg.length ≠ 0 := fun h => hne (List.length_eq_zero_iff.mp h)
  rw [sendMsgToSocket, if_neg hne, toUnsignedInt, Nat.mod_eq_of_lt hlen, List.append_assoc,
    recvMsgFromSocket, readBytes_append (length_msgLengthBE _), ok_bind]
  dsimp only
  rw [msgBodyLength_msgLengthBE hlen, if_neg hpos]
  exact readBytes_append rfl rest

/-- On a proper part of a frame bytes are missing. -/
theorem recvMsgFromSocket_cut {msg cut : Str} (hlen : msg.length < 2 ^ 32)
    (hcut : cut <+: sendMsgToSocket msg) (hne : cut ≠ sendMsgToSocket msg) :
    recvMsgFromSocket cut = .error (.runtimeError "End of file") := by
  rw [sendMsgToSocket] at hcut hne
  split_ifs at hcut hne with hnil
  · exact absurd (List.prefix_nil.mp hcut) hne
  rw [toUnsignedInt, Nat.mod_eq_of_lt hlen] at hcut hne
  have hpos : msg.length ≠ 0 := fun h => hnil (List.length_eq_zero_iff.mp h)
  rcases prefix_append_split hcut with ⟨hc, hn⟩ | ⟨body, rfl, hbody⟩
  · have hlt : cut.length < 4 := by
      refine lt_of_le_of_ne hc.length_le fun h => hn ?_
      exact hc.eq_of_length h
    rw [recvMsgFromSocket, readBytes_of_lt hlt]
    rfl
  · have hlt : body.length < msg.length := by
      refine lt_of_le_of_ne hbody.length_le fun h => hne ?_
      rw [hbody.eq_of_length h]
    rw [recvMsgFromSocket, readBytes_append (length_msgLengthBE _), ok_bind]
    dsimp only
    rw [msgBodyLength_msgLengthBE hlen, if_neg hpos]
    exact readBytes_of_lt hlt

section Messages

variable (J : JsonLib)

def sendMessage (message : Str × Data) : Str :=
  sendMsgToSocket (J.msgAssembly message.1 message.2)

/-- A reception and the parse of what it returns into empty outputs. -/
def recvMessage (input : Str) : Except Fault ((Str × Data) × Str) := do
  let (msg, rest) ← recvMsgFromSocket input
  let message ← J.msgParse msg [] ∅
  return (message, rest)

/-- The same event, and the same map as a function of its keys. -/
def SameMessage (sent received : Str × Data) : Prop :=
  received.1 = sent.1 ∧ ∀ key, received.2.lookup key = sent.2.lookup key

variable {J}

lemma msgAssembly_ne_nil (hJ : J.RoundTrips) (hnil : ∀ value, J.parse [] ≠ .ok value)
    (event : Str) (data : Data) : J.msgAssembly event data ≠ [] := by
  intro h
  have hparse := hJ event data
  rw [h] at hparse
  exact hnil _ hparse

/-- Assembled messages of less than 2^32 bytes are self-delimiting frames. -/
theorem delimits_message (hJ : J.RoundTrips) (hnil : ∀ value, J.parse [] ≠ .ok value) :
    Delimits (sendMessage J) (recvMessage J)
      (fun message => (J.msgAssembly message.1 message.2).length < 2 ^ 32) SameMessage
      (.runtimeError "End of file") where
  recv_send := by
    rintro ⟨event, data⟩ rest hlen
    obtain ⟨data', hparse, hdata⟩ := JsonLib.msgParse_msgAssembly hJ event data
    refine ⟨(event, data'), ?_, rfl, hdata⟩
    rw [recvMessage, sendMessage, recvMsgFromSocket_send (msgAssembly_ne_nil hJ hnil _ _) hlen,
      ok_bind]
    dsimp only
    rw [hparse]
    rfl
  recv_cut := by
    rintro ⟨event, data⟩ cut hlen hcut hne
    rw [recvMessage, recvMsgFromSocket_cut hlen hcut hne]
    rfl

/-- The codec over whole streams: all messages come back and the stream is used
up; a stream that is cut off gives a first part of the messages and then the end
of the file. The coroutines write and read the same bytes. -/
theorem messages_come_back (hJ : J.RoundTrips) (hnil : ∀ value, J.parse [] ≠ .ok value)
    (messages : List (Str × Data))
    (hlen : ∀ message ∈ messages, (J.msgAssembly message.1 message.2).length < 2 ^ 32) :
    (asyncSendMsgToSocket = sendMsgToSocket ∧ asyncRecvMsgFromSocket = recvMsgFromSocket) ∧
    (∃ received, receive (recvMessage J) messages.length (stream (sendMessage J) messages) =
        (received, .ok []) ∧ List.Forall₂ SameMessage messages received) ∧
    ∀ cut, cut <+: stream (sendMessage J) messages → cut ≠ stream (sendMessage J) messages →
      ∃ k < messages.length, ∃ received,
        List.Forall₂ SameMessage (messages.take k) received ∧
        ∀ n, k < n → receive (recvMessage J) n cut =
          (received, .error (.runtimeError "End of file")) := by
  have hd := delimits_message hJ hnil
  refine ⟨⟨rfl, rfl⟩, ?_, fun cut hcut hne => receive_cut hd hlen hcut hne⟩
  obtain ⟨received, hr, hsame⟩ := receive_stream hd hlen []
  rw [List.append_nil] at hr
  exact ⟨received, hr, hsame⟩

theorem messages_come_back_two_messages :
    jsonText.RoundTrips ∧ (∀ value, jsonText.parse [] ≠ .ok value) ∧
      (∃ received, receive (recvMessage jsonText) 2 (stream (sendMessage jsonText)
            [("keepalive", AList.insert ("client_uid" : Str) ("node_0001" : Str) ∅),
              ("revoke_jwt", ∅)]) =
          (received, .ok []) ∧
        List.Forall₂ SameMessage
          [("keepalive", AList.insert ("client_uid" : Str) ("node_0001" : Str) ∅),
            ("revoke_jwt", ∅)] received) := by
  have hnil : ∀ value, jsonText.parse [] ≠ .ok value := by
    intro value h
    cases h
  refine ⟨roundTrips_jsonText, hnil, ?_⟩
  have hlen : ∀ message ∈ [(("keepalive" : Str),
        (AList.insert ("client_uid" : Str) ("node_0001" : Str) ∅ : Data)), ("revoke_jwt", ∅)],
      (jsonText.msgAssembly message.1 message.2).length < 2 ^ 32 := by
    decide +kernel
  exact (messages_come_back roundTrips_jsonText hnil _ hlen).2.1

end Messages

end JwtRevoker
