import Megatron.Http.Handshake
import Megatron.Http.WebSocket
import Megatron.Library.Search

/-!
The WebSocket client (`modules/webSocketClient/webSocketClientService.cpp`) with the server
of this project (`WebSocket_makeFrame` of `modules/http/httpService.cpp`) at the other end. The
answer is found however the bytes come (`clientReceive_handshake`); a message is received if its
frame is there when its event is handled (`frames_received_iff`, `client_receives_iff`).
-/

namespace Megatron.Http

open Library Library.Http List

/-- `WebSocket_makeFrame` for a text message. -/
def webSocketMakeFrame (msg : Bytes) : Except Fault Bytes :=
  let size := toInt32 msg.length
  -- `malloc(msg_length + 1000)` and `memcpy(…, msg, size)`
  if 2 ^ 31 ≤ size + 1000 ∨ size < 0 then .error .undefined
  else
    let n := size.toNat
    .ok (0x81#8 ::
      (if n ≤ 125 then [BitVec.ofNat 8 n]
      else if n ≤ 65535 then [126#8, BitVec.ofNat 8 (n >>> 8), BitVec.ofNat 8 n]
      else [127#8, 0#8, 0#8, 0#8, 0#8, BitVec.ofNat 8 (n >>> 24), BitVec.ofNat 8 (n >>> 16),
        BitVec.ofNat 8 (n >>> 8), BitVec.ofNat 8 n]) ++ msg.take n)

structure ClientState where
  awaitingHandshake : Bool := true
  inBuffer : Bytes := []
  deriving DecidableEq, Repr

inductive ClientEvent where
  | connected
  | received (msg : Bytes)
  deriving DecidableEq, Repr

inductive ClientFault where
  /-- The behaviour is undefined. -/
  | undefined
  | outOfRange
  deriving DecidableEq, Repr

/-- `StreamRead` before the answer is there. -/
def clientHandshake (buffer : Bytes) : ClientState × List ClientEvent :=
  let (head, rest) := match find (crlf ++ crlf) buffer with
    | some pz => (buffer.take pz, buffer.drop (pz + 4))
    | none => ([], buffer)
  if (find (ascii "Connection: Upgrade") head).isSome then (⟨false, rest⟩, [.connected])
  else (⟨true, rest⟩, [])

/-- `StreamRead` after it. The byte behind the buffer is zero. -/
def clientFrame (buffer : Bytes) : Except ClientFault (Bytes × Bytes) :=
  if buffer.getD 0 0#8 &&& 0x0F#8 = 0x01#8 then
    let payloadLength := (buffer.getD 1 0#8 &&& 0x7F#8).toNat
    if buffer.length + 1 < 2 + payloadLength then .error .undefined
    -- `buffer.substr(2+payload_length)`
    else if buffer.length < 2 + payloadLength then .error .outOfRange
    else .ok ((buffer.drop 2).take payloadLength, buffer.drop (2 + payloadLength))
  else .ok ([], buffer)

def clientStreamRead (st : ClientState) : Except ClientFault (ClientState × List ClientEvent) :=
  if st.awaitingHandshake then .ok (clientHandshake st.inBuffer)
  else do
    let (msg, rest) ← clientFrame st.inBuffer
    pure ({ st with inBuffer := rest }, [.received msg])

/-- The `StreamRead` events of a connection, each with the bytes that came in since the one before.
The events wait in the queue of the service while the socket reads on, so that an event may find the
bytes of several reads, and a later one nothing. -/
def clientReceive (st : ClientState) :
    List Bytes → Except ClientFault (ClientState × List ClientEvent)
  | [] => .ok (st, [])
  | data :: reads => do
      let (st₁, es) ← clientStreamRead { st with inBuffer := st.inBuffer ++ data }
      let (st₂, es') ← clientReceive st₁ reads
      pure (st₂, es ++ es')

variable {b m r rest : Bytes} {ms reads : List Bytes} {n : ℕ}

/-! ### The answer -/

lemma find_line {l : Bytes} (hl : 13#8 ∉ l) (hrest : ¬ crlf <+: rest) :
    find (crlf ++ crlf) (l ++ (crlf ++ rest)) =
      (find (crlf ++ crlf) rest).map (· + (l.length + 2)) := by
  have hcr : ¬ crlf ++ crlf <+: 13#8 :: 10#8 :: rest := by
    intro h
    exact hrest (prefix_append_right_inj [13#8, 10#8] |>.mp h)
  have hlf : ¬ crlf ++ crlf <+: 10#8 :: rest := by
    intro h
    exact absurd (cons_prefix_cons.mp h).1 (by decide)
  have hline : find (crlf ++ crlf) (crlf ++ rest) =
      (find (crlf ++ crlf) rest).map (· + 2) := by
    change find (crlf ++ crlf) (13#8 :: 10#8 :: rest) = _
    rw [find_cons_neg hcr, find_cons_neg hlf, Option.map_map]
    rfl
  change find (13#8 :: [10#8, 13#8, 10#8]) _ = _
  rw [find_of_not_mem hl]
  change Option.map _ (find (crlf ++ crlf) (crlf ++ rest)) = _
  rw [hline, Option.map_map]
  refine congrFun (congrArg _ (funext fun i => ?_)) _
  change i + 2 + l.length = i + (l.length + 2)
  omega

section

variable (sha1 : Bytes → Bytes) (key : Bytes)

private lemma switchingHead_lines :
    ascii "HTTP/1.1 101 Switching Protocols\r\nUpgrade: websocket\r\nConnection: Upgrade\r\n" =
      ascii "HTTP/1.1 101 Switching Protocols" ++ (crlf ++ (ascii "Upgrade: websocket" ++
        (crlf ++ (ascii "Connection: Upgrade" ++ (crlf ++ []))))) := by
  decide +kernel

lemma find_switchingProtocols : find (crlf ++ crlf) (switchingProtocols sha1 key) =
      some (switchingHead sha1 key).length := by
  have hkey : 13#8 ∉ ascii "Sec-WebSocket-Accept: " ++ calcKeyAnswer sha1 key := by
    intro h
    rcases mem_append.mp h with h | h
    · revert h
      decide
    · exact mem_base64Encode h rfl
  have hlast : find (crlf ++ crlf)
      (ascii "Sec-WebSocket-Accept: " ++ calcKeyAnswer sha1 key ++ (crlf ++ crlf)) =
      some (ascii "Sec-WebSocket-Accept: " ++ calcKeyAnswer sha1 key).length := by
    change find (13#8 :: [10#8, 13#8, 10#8]) _ = _
    rw [find_of_not_mem hkey]
    change Option.map _ (some 0) = _
    rw [Option.map_some, Nat.zero_add]
  have hline {a : Bytes} (l : Bytes) (ha : a.headD 13#8 ≠ 13#8) : ¬ crlf <+: a ++ l := by
    intro h
    cases a with
    | nil => exact ha rfl
    | cons x a => exact ha (cons_prefix_cons.mp h).1.symm
  rw [switchingProtocols, switchingHead, switchingHead_lines]
  simp only [append_assoc, nil_append]
  rw [find_line (by decide) (hline _ (by decide)), find_line (by decide) (hline _ (by decide)),
    find_line (by decide) (hline _ (by decide))]
  simp only [append_assoc] at hlast
  rw [hlast]
  simp only [Option.map_some, length_append, Option.some.injEq]
  simp only [show crlf.length = 2 from rfl]
  omega

variable {sha1 key}

lemma clientHandshake_waits {b : Bytes} (hpre : b <+: switchingProtocols sha1 key)
    (hlen : b.length < (switchingProtocols sha1 key).length) :
    clientHandshake b = (⟨true, b⟩, []) := by
  have hnone : find (crlf ++ crlf) b = none := by
    refine find_cut (find_switchingProtocols sha1 key) hpre (hlen.trans_le ?_)
    rw [switchingProtocols, length_append, length_append]
    exact le_of_eq (Nat.add_assoc _ _ _)
  rw [clientHandshake, hnone]
  rfl

lemma clientHandshake_complete (extra : Bytes) :
    clientHandshake (switchingProtocols sha1 key ++ extra) = (⟨false, extra⟩, [.connected]) := by
  have hpart : switchingProtocols sha1 key ++ extra =
      switchingHead sha1 key ++ (crlf ++ crlf ++ extra) := by
    rw [switchingProtocols]
    simp only [append_assoc]
  have hdrop : (switchingProtocols sha1 key ++ extra).drop ((switchingHead sha1 key).length + 4) =
      extra := by
    rw [hpart, drop_append]
    simp [crlf]
  have hconnection : (find (ascii "Connection: Upgrade") (switchingHead sha1 key)).isSome := by
    have hfind : find (ascii "Connection: Upgrade") (ascii
        "HTTP/1.1 101 Switching Protocols\r\nUpgrade: websocket\r\nConnection: Upgrade\r\n") =
        some 54 := by decide +kernel
    rw [switchingHead, find_append hfind]
    rfl
  rw [clientHandshake, find_append (find_switchingProtocols sha1 key)]
  simp only [hdrop]
  rw [hpart, take_left, if_pos hconnection]

lemma clientReceive_complete {b d extra : Bytes} (h : b ++ d = switchingProtocols sha1 key ++ extra)
    (reads : List Bytes) : clientReceive ⟨true, b⟩ (d :: reads) = (do
      let (st, es) ← clientReceive ⟨false, extra⟩ reads
      pure (st, .connected :: es)) := by
  rw [clientReceive, clientStreamRead, if_pos rfl]
  simp only [h, clientHandshake_complete]
  rfl

/-- **The answer, for all ways to divide the bytes into reads.** -/
lemma clientReceive_handshake {reads : List Bytes} {b tail : Bytes}
    (hlen : b.length < (switchingProtocols sha1 key).length)
    (hreads : b ++ reads.flatten = switchingProtocols sha1 key ++ tail) :
    ∃ (before : List Bytes) (d : Bytes) (after : List Bytes) (extra : Bytes),
      reads = before ++ d :: after ∧
      (b ++ before.flatten).length < (switchingProtocols sha1 key).length ∧
      b ++ before.flatten ++ d = switchingProtocols sha1 key ++ extra ∧
      extra ++ after.flatten = tail ∧ clientReceive ⟨true, b⟩ reads = (do
        let (st, es) ← clientReceive ⟨false, extra⟩ after
        pure (st, .connected :: es)) := by
  induction reads generalizing b with
  | nil =>
    rw [flatten_nil, append_nil] at hreads
    rw [hreads, length_append] at hlen
    omega
  | cons d reads ih =>
    rw [flatten_cons, ← append_assoc] at hreads
    by_cases hshort : (b ++ d).length < (switchingProtocols sha1 key).length
    · have hpre : b ++ d <+: switchingProtocols sha1 key :=
        prefix_of_prefix_length_le ⟨_, hreads⟩ (prefix_append _ _) hshort.le
      obtain ⟨before, d', after, extra, rfl, hlen', hd', htail, hrun⟩ := ih hshort hreads
      refine ⟨d :: before, d', after, extra, rfl, ?_, ?_, htail, ?_⟩
      · rw [flatten_cons, ← append_assoc]
        exact hlen'
      · rw [flatten_cons, ← append_assoc]
        exact hd'
      · rw [clientReceive, clientStreamRead, if_pos rfl, clientHandshake_waits hpre hshort]
        simp only [bind, Except.bind, hrun]
        cases clientReceive ⟨false, extra⟩ after with
        | error e | ok p => rfl
    · obtain ⟨extra, hextra⟩ : switchingProtocols sha1 key <+: b ++ d :=
        prefix_of_prefix_length_le (prefix_append _ _) ⟨_, hreads⟩ (not_lt.mp hshort)
      refine ⟨[], d, reads, extra, rfl, ?_, ?_, ?_, ?_⟩
      · rwa [flatten_nil, append_nil]
      · rw [flatten_nil, append_nil, hextra]
      · rw [← hextra, append_assoc] at hreads
        exact append_cancel_left hreads
      · exact clientReceive_complete hextra.symm reads

end

/-! ### One frame -/

lemma webSocketMakeFrame_short (h : m.length ≤ 125) :
    webSocketMakeFrame m = .ok (0x81#8 :: BitVec.ofNat 8 m.length :: m) := by
  have hsize : toInt32 m.length = m.length := toInt32_of_lt (by omega)
  rw [webSocketMakeFrame, hsize]
  simp only [Int.toNat_natCast, take_length]
  rw [if_neg (by omega), if_pos h]
  rfl

lemma webSocketMakeFrame_126 (h : 125 < m.length) (h' : m.length ≤ 127) :
    webSocketMakeFrame m = .ok (0x81#8 :: 126#8 :: 0#8 :: BitVec.ofNat 8 m.length :: m) := by
  have hsize : toInt32 m.length = m.length := toInt32_of_lt (by omega)
  have hhigh : m.length >>> 8 = 0 := by
    rw [Nat.shiftRight_eq_div_pow]
    omega
  rw [webSocketMakeFrame, hsize]
  simp only [Int.toNat_natCast, take_length]
  rw [if_neg (by omega), if_neg (by omega), if_pos (by omega), hhigh]
  rfl

lemma length_clientFrame {msg : Bytes} (h : clientFrame b = .ok (msg, rest)) :
    msg.length ≤ 127 := by
  simp only [clientFrame] at h
  split_ifs at h
  · cases h
    have hle : (b.getD 1 0#8 &&& 0x7F#8).toNat ≤ 127 := by
      rw [BitVec.toNat_and]
      exact Nat.and_le_right
    exact (length_take_le _ _).trans hle
  · cases h
    exact Nat.zero_le _

lemma clientFrame_text (hn : n < 128) (b : Bytes) : clientFrame (0x81#8 :: BitVec.ofNat 8 n :: b) =
      if b.length + 1 < n then .error .undefined
      else if b.length < n then .error .outOfRange else .ok (b.take n, b.drop n) := by
  have hlength : (BitVec.ofNat 8 n &&& 0x7F#8).toNat = n := by
    have := (second_byte false hn).1
    rwa [if_neg Bool.false_ne_true, Nat.zero_add] at this
  have htext : 0x81#8 &&& 0x0F#8 = 0x01#8 := by decide
  have hdrop : (0x81#8 :: BitVec.ofNat 8 n :: b).drop (2 + n) = b.drop n := by
    rw [Nat.add_comm]
    rfl
  simp only [clientFrame, getD_cons_zero, getD_cons_succ, htext, hlength, if_true, hdrop,
    length_cons]
  split_ifs <;> first | omega | rfl

lemma clientFrame_single : clientFrame [0x81#8] = .error .outOfRange := by decide

lemma clientFrame_nil : clientFrame [] = .ok ([], []) := by decide

lemma clientFrame_zero (b : Bytes) : clientFrame (0#8 :: b) = .ok ([], 0#8 :: b) := by
  have htext : ¬ (0#8 &&& 0x0F#8 = 0x01#8) := by decide
  rw [clientFrame, getD_cons_zero, if_neg htext]

lemma clientFrame_short {later : Bytes} (hm : m.length ≤ 125)
    (hb : b ≠ []) (h : b ++ later = 0x81#8 :: BitVec.ofNat 8 m.length :: m ++ rest) :
    if m.length + 2 ≤ b.length then clientFrame b = .ok (m, b.drop (m.length + 2)) ∧
    b.drop (m.length + 2) ++ later = rest else ∃ e, clientFrame b = .error e := by
  match b, hb with
  | [x], _ =>
    obtain ⟨rfl, -⟩ := List.cons.inj h
    rw [if_neg (by simp)]
    exact ⟨_, clientFrame_single⟩
  | x :: y :: b, _ =>
    simp only [cons_append, List.cons.injEq] at h
    obtain ⟨rfl, rfl, h⟩ := h
    have hdrop : (0x81#8 :: BitVec.ofNat 8 m.length :: b).drop (m.length + 2) =
      b.drop m.length := rfl
    rw [clientFrame_text (by omega), hdrop, length_cons, length_cons]
    split_ifs with hlen hbad hrange hbad hrange
    · omega
    · omega
    · obtain ⟨b', rfl⟩ : m <+: b := prefix_of_prefix_length_le (prefix_append _ _) ⟨_, h⟩ (by omega)
      rw [append_assoc] at h
      rw [take_left, drop_left]
      exact ⟨rfl, append_cancel_left h⟩
    · exact ⟨_, rfl⟩
    · exact ⟨_, rfl⟩
    · omega

lemma clientFrame_short_iff {later rest' : Bytes} (hm : m.length ≤ 125) (hb : b ≠ [])
    (h : b ++ later = 0x81#8 :: BitVec.ofNat 8 m.length :: m ++ rest) :
    clientFrame b = .ok (m, rest') ↔ m.length + 2 ≤ b.length ∧ b.drop (m.length + 2) = rest' := by
  have hframe := clientFrame_short hm hb h
  split_ifs at hframe with hlen
  · rw [hframe.1]
    simp [hlen]
  · obtain ⟨e, he⟩ := hframe
    simp [he, hlen]

def oddMessage : Bytes := (List.replicate 63 [0#8, 126#8]).flatten

lemma eq_flatten_replicate {x y : BitVec 8} (k : ℕ) (hlen : m.length = 2 * k)
    (h : (x :: y :: m).take (2 * k) = m) : m = (List.replicate k [x, y]).flatten := by
  induction k generalizing m with
  | zero => exact length_eq_zero_iff.mp hlen
  | succ k ih =>
    have hm : m = x :: y :: m.take (2 * k) := h.symm
    have hk : (m.take (2 * k)).length = 2 * k := by
      rw [length_take]
      omega
    have htake : (x :: y :: m.take (2 * k)).take (2 * k) = m.take (2 * k) := by rw [← hm]
    rw [replicate_succ, flatten_cons, ← ih hk htake]
    exact hm

lemma take_oddMessage (rest : Bytes) :
    (0#8 :: 126#8 :: (oddMessage ++ rest)).take 126 = oddMessage := by
  have h : (0#8 :: 126#8 :: oddMessage).take 126 = oddMessage := by decide +kernel
  rw [← cons_append, ← cons_append, take_append_of_le_length (by decide +kernel), h]

lemma drop_oddMessage (rest : Bytes) :
    (0#8 :: 126#8 :: (oddMessage ++ rest)).drop 126 = 0#8 :: 126#8 :: rest := by
  have h : (0#8 :: 126#8 :: oddMessage).drop 126 = [0#8, 126#8] := by decide +kernel
  rw [← cons_append, ← cons_append, drop_append_of_le_length (by decide +kernel), h]
  rfl

lemma clientFrame_long {f later rest' : Bytes} (hm : 125 < m.length)
    (hf : webSocketMakeFrame m = .ok f) (hb : b ≠ []) (h : b ++ later = f ++ rest')
    (hok : clientFrame b = .ok (m, rest)) :
    m = oddMessage ∧ 128 ≤ b.length ∧ rest ++ later = 0#8 :: 126#8 :: rest' := by
  rw [webSocketMakeFrame_126 hm (length_clientFrame hok)] at hf
  cases hf
  match b, hb with
  | [x], _ =>
    obtain ⟨rfl, -⟩ := List.cons.inj h
    rw [clientFrame_single] at hok
    cases hok
  | x :: y :: b, _ =>
    simp only [cons_append, List.cons.injEq] at h
    obtain ⟨rfl, rfl, h⟩ := h
    have htext := clientFrame_text (show 126 < 128 by decide) b
    rw [show BitVec.ofNat 8 126 = 126#8 from rfl, hok] at htext
    split_ifs at htext with hbad hrange
    obtain ⟨hmsg, rfl⟩ := Prod.mk.inj (Except.ok.inj htext)
    have hlen : m.length = 126 := by
      have := congrArg List.length hmsg
      rw [length_take] at this
      omega
    rw [hlen] at h
    have hodd : m = oddMessage := by
      refine eq_flatten_replicate 63 hlen ?_
      have htake := congrArg (List.take 126) h
      rw [take_append_of_le_length (by omega), ← hmsg] at htake
      refine Eq.trans ?_ htake.symm
      rw [← cons_append, ← cons_append, take_append_of_le_length (by
        simp only [length_cons]
        omega)]
    refine ⟨hodd, by simp only [length_cons]; omega, ?_⟩
    have hdrop := congrArg (List.drop 126) h
    rw [drop_append_of_le_length (by omega), hodd, drop_oddMessage] at hdrop
    exact hdrop

lemma clientFrame_odd {later : Bytes} (hlen : 128 ≤ b.length)
    (h : b ++ later = 0x81#8 :: 126#8 :: 0#8 :: 126#8 :: oddMessage ++ rest) :
    clientFrame b = .ok (oddMessage, b.drop 128) ∧ b.drop 128 ++ later = 0#8 :: 126#8 :: rest := by
  match b, hlen with
  | x :: y :: b, hlen =>
    simp only [cons_append, List.cons.injEq, length_cons] at h hlen
    obtain ⟨rfl, rfl, h⟩ := h
    have htake := congrArg (List.take 126) h
    have hdrop := congrArg (List.drop 126) h
    rw [take_append_of_le_length (by omega), take_oddMessage] at htake
    rw [drop_append_of_le_length (by omega), drop_oddMessage] at hdrop
    refine ⟨?_, hdrop⟩
    have htext := clientFrame_text (show 126 < 128 by decide) b
    rw [if_neg (by omega), if_neg (by omega), htake] at htext
    exact htext

/-! ### The messages after the answer -/

def clientFrames (b : Bytes) : List Bytes → Except ClientFault (List Bytes × Bytes)
  | [] => .ok ([], b)
  | r :: reads => do
      let (msg, rest) ← clientFrame (b ++ r)
      let (msgs, last) ← clientFrames rest reads
      pure (msg :: msgs, last)

lemma clientReceive_frames (b : Bytes) (reads : List Bytes) : clientReceive ⟨false, b⟩ reads = (do
      let (msgs, last) ← clientFrames b reads
      pure (⟨false, last⟩, msgs.map .received)) := by
  induction reads generalizing b with
  | nil => rfl
  | cons r reads ih =>
    rw [clientReceive, clientStreamRead, clientFrames]
    simp only [Bool.false_eq_true, if_false, bind, Except.bind, pure, Except.pure]
    cases clientFrame (b ++ r) with
    | error e => rfl
    | ok p =>
      simp only [ih, bind, Except.bind, pure, Except.pure]
      cases clientFrames p.2 reads with
      | error e | ok q => rfl

lemma clientFrames_zero {t : Bytes} (h : b ++ reads.flatten = 0#8 :: t) :
    clientFrames b reads = .ok (List.replicate reads.length [], b ++ reads.flatten) := by
  induction reads generalizing b with
  | nil => rw [flatten_nil, append_nil]; rfl
  | cons r reads ih =>
    rw [flatten_cons, ← append_assoc] at h
    have hstep : clientFrame (b ++ r) = .ok ([], b ++ r) := by
      cases hbr : b ++ r with
      | nil => exact clientFrame_nil
      | cons x l =>
        rw [hbr] at h
        obtain ⟨rfl, -⟩ := List.cons.inj h
        exact clientFrame_zero l
    rw [clientFrames, hstep]
    simp only [bind, Except.bind]
    rw [ih h, flatten_cons, append_assoc]
    rfl

/-- No event finds exactly one byte, if each event takes two bytes where there are any. -/
def Drains : ℕ → List Bytes → Prop
  | _, [] => True
  | n, r :: reads => n + r.length ≠ 1 ∧ Drains (n + r.length - 2) reads

/-- The messages are there in time, if `n` bytes are left when the events begin. The event of a
short message finds its whole frame. An event that finds nothing is one of an empty message, as all
that follow, and so are those behind an odd message. -/
def InTime : ℕ → List Bytes → List Bytes → Prop
  | _, [], [] => True
  | n, r :: reads, m :: ms =>
    if n + r.length = 0 then m = [] ∧ ms = List.replicate reads.length [] ∧ Drains 0 reads
    else if m.length ≤ 125 then
      m.length + 2 ≤ n + r.length ∧ InTime (n + r.length - (m.length + 2)) reads ms
    else m = oddMessage ∧ 128 ≤ n + r.length ∧ ms = List.replicate reads.length []
  | _, _, _ => False

lemma length_oddMessage : oddMessage.length = 126 := by decide +kernel

lemma clientFrames_cons_iff : (∃ last, clientFrames b (r :: reads) = .ok (m :: ms, last)) ↔ ∃ rest,
    clientFrame (b ++ r) = .ok (m, rest) ∧ ∃ last, clientFrames rest reads = .ok (ms, last) := by
  constructor
  · rintro ⟨last, h⟩
    rw [clientFrames] at h
    obtain ⟨⟨msg, rest⟩, hframe, h⟩ := exists_of_bind_ok h
    obtain ⟨⟨msgs, _⟩, hrest, h⟩ := exists_of_bind_ok h
    cases h
    exact ⟨rest, hframe, last, hrest⟩
  · rintro ⟨rest, hframe, last, hrest⟩
    refine ⟨last, ?_⟩
    rw [clientFrames, hframe]
    simp only [bind, Except.bind, hrest]
    rfl

lemma mapM_cons_ok {α β ε : Type} {f : α → Except ε β} {a : α} {l : List α} {bs : List β}
    (h : (a :: l).mapM f = .ok bs) : ∃ b bs', f a = .ok b ∧ l.mapM f = .ok bs' ∧ bs = b :: bs' := by
  rw [mapM_cons] at h
  obtain ⟨b, hb, h⟩ := exists_of_bind_ok h
  obtain ⟨bs', hbs, h⟩ := exists_of_bind_ok h
  cases h
  exact ⟨b, bs', hb, hbs, rfl⟩

lemma clientFrame_empty {later t : Bytes} (h : b ++ later = 0x81#8 :: 0#8 :: t) :
    clientFrame b = if b.length = 1 then .error .outOfRange else .ok ([], b.drop 2) := by
  match b, h with
  | [], _ => exact clientFrame_nil
  | [x], h =>
    obtain ⟨rfl, -⟩ := List.cons.inj h
    exact clientFrame_single
  | x :: y :: b, h =>
    simp only [cons_append, List.cons.injEq] at h
    obtain ⟨rfl, rfl, -⟩ := h
    exact clientFrame_text (show 0 < 128 by decide) b

/-- Behind an event that found nothing there are only empty messages. -/
lemma clientFrames_lagging {k : ℕ} {frames : List Bytes}
    (hframes : (List.replicate (k + 1) [] ++ ms).mapM webSocketMakeFrame = .ok frames)
    (hreads : b ++ reads.flatten = frames.flatten) :
    (∃ last, clientFrames b reads = .ok (ms, last)) ↔
      ms = List.replicate reads.length [] ∧ Drains b.length reads := by
  induction reads generalizing b ms k frames with
  | nil =>
    refine ⟨fun ⟨last, h⟩ => ?_, fun ⟨h, _⟩ => ⟨b, by rw [h]; rfl⟩⟩
    cases h
    exact ⟨rfl, trivial⟩
  | cons r reads ih =>
    have hsplit := hframes
    rw [replicate_succ, cons_append] at hsplit
    obtain ⟨f, rest, hf, hrest, rfl⟩ := mapM_cons_ok hsplit
    rw [webSocketMakeFrame_short (Nat.zero_le _)] at hf
    cases hf
    have hpending := hreads
    rw [flatten_cons, flatten_cons, ← append_assoc] at hpending
    have hstep := clientFrame_empty hpending
    cases ms with
    | nil =>
      refine iff_of_false ?_ fun h => absurd h.1 (cons_ne_nil _ _).symm
      rintro ⟨last, h⟩
      obtain ⟨p, -, h⟩ := exists_of_bind_ok h
      obtain ⟨q, -, h⟩ := exists_of_bind_ok h
      cases h
    | cons m ms =>
      have hlag : List.replicate k [] ++ m :: ms = List.replicate k [] ++ [m] ++ ms := by simp
      rw [clientFrames_cons_iff, hstep, length_cons, replicate_succ, List.cons.injEq, Drains,
        length_append]
      split_ifs with hone
      · simp [hone]
      by_cases hm : m = []
      · subst hm
        rw [hlag, ← replicate_succ'] at hrest
        have hnext : (∃ last, clientFrames ((b ++ r).drop 2) reads = .ok (ms, last)) ↔
            ms = List.replicate reads.length [] ∧ Drains ((b ++ r).drop 2).length reads := by
          by_cases hnone : b ++ r = []
          · refine @ih _ _ (k + 1) ([0x81#8, 0#8] :: rest) ?_ ?_
            · rw [replicate_succ, cons_append, mapM_cons, hrest]
              rfl
            · rw [hnone, nil_append] at hpending
              rw [hnone, hpending]
              rfl
          · refine ih hrest ?_
            obtain ⟨x, y, t, ht⟩ : ∃ x y t, b ++ r = x :: y :: t := by
              rw [← length_append] at hone
              match b ++ r, hnone, hone with
              | [x], _, hone => exact absurd rfl hone
              | x :: y :: t, _, _ => exact ⟨x, y, t, rfl⟩
            rw [ht] at hpending ⊢
            simpa using (List.cons.inj (List.cons.inj hpending).2).2
        rw [length_drop, length_append] at hnext
        simp [hnext, hone]
      · simp [hm]

lemma frames_received_iff {frames : List Bytes} (hframes : ms.mapM webSocketMakeFrame = .ok frames)
    (hreads : b ++ reads.flatten = frames.flatten) :
    (∃ last, clientFrames b reads = .ok (ms, last)) ↔ InTime b.length reads ms := by
  induction ms generalizing frames reads b with
  | nil =>
    cases reads with
    | nil => exact ⟨fun _ => trivial, fun _ => ⟨b, rfl⟩⟩
    | cons r reads =>
      refine iff_of_false ?_ id
      rintro ⟨last, h⟩
      obtain ⟨p, -, h⟩ := exists_of_bind_ok h
      obtain ⟨q, -, h⟩ := exists_of_bind_ok h
      cases h
  | cons m ms ih =>
    obtain ⟨f, rest, hf, hrest, rfl⟩ := mapM_cons_ok hframes
    cases reads with
    | nil =>
      refine iff_of_false ?_ id
      rintro ⟨last, h⟩
      cases h
    | cons r reads =>
      rw [clientFrames_cons_iff, InTime, ← length_append]
      by_cases hr : b ++ r = []
      · -- the event finds nothing
        rw [if_pos (by rw [hr, length_nil]), hr, clientFrame_nil]
        by_cases hm : m = []
        · subst hm
          obtain ⟨rfl, rfl⟩ := append_eq_nil_iff.mp hr
          have hlagging := @clientFrames_lagging [] _ reads 0 _ hframes hreads
          simpa using hlagging
        · simp [hm, eq_comm]
      rw [if_neg fun h => hr (length_eq_zero_iff.mp h)]
      rw [flatten_cons, flatten_cons, ← append_assoc] at hreads
      split_ifs with hm
      · rw [webSocketMakeFrame_short hm] at hf
        cases hf
        simp only [clientFrame_short_iff hm hr hreads, and_assoc, exists_and_left, exists_eq_left']
        refine and_congr_right fun hlen => ?_
        have hframe := clientFrame_short hm hr hreads
        rw [if_pos hlen] at hframe
        rw [ih hrest hframe.2, length_drop]
      · constructor
        · rintro ⟨rest, hok, last, hlast⟩
          obtain ⟨hodd, hlen, hrest⟩ := clientFrame_long (by omega) hf hr hreads hok
          rw [clientFrames_zero hrest] at hlast
          cases hlast
          exact ⟨hodd, hlen, rfl⟩
        · rintro ⟨rfl, hlen, rfl⟩
          have hlength := length_oddMessage
          rw [webSocketMakeFrame_126 (by omega) (by omega), hlength] at hf
          cases hf
          obtain ⟨hok, hrest⟩ := clientFrame_odd hlen hreads
          exact ⟨_, hok, _, clientFrames_zero hrest⟩

/-! ### The whole stream -/

def ReadInTime (answer : Bytes) (reads ms : List Bytes) : Prop :=
  ∃ before d after extra, reads = before ++ d :: after ∧
    before.flatten.length < answer.length ∧ before.flatten ++ d = answer ++ extra ∧
    InTime extra.length after ms

lemma split_unique {answer d d' extra extra' : Bytes} {before before' after after' : List Bytes}
    (h : before ++ d :: after = before' ++ d' :: after')
    (hlt : before.flatten.length < answer.length) (hd : before.flatten ++ d = answer ++ extra)
    (hlt' : before'.flatten.length < answer.length)
    (hd' : before'.flatten ++ d' = answer ++ extra') : after = after' ∧ extra = extra' := by
  -- a longer list of reads before it would hold the whole answer
  have hlonger {l l' s : List Bytes} {x e : Bytes} (hl : l' = l ++ x :: s)
      (hx : l.flatten ++ x = answer ++ e) : answer.length ≤ l'.flatten.length := by
    have := congrArg List.length hx
    rw [hl, flatten_append, flatten_cons]
    simp only [length_append] at this ⊢
    omega
  rcases append_eq_append_iff.mp h with ⟨s, hs, hs'⟩ | ⟨s, hs, hs'⟩
  · cases s with
    | nil =>
      rw [append_nil] at hs
      obtain ⟨rfl, rfl⟩ := List.cons.inj hs'
      rw [hs, hd] at hd'
      exact ⟨rfl, append_cancel_left hd'⟩
    | cons x s =>
      obtain ⟨rfl, -⟩ := List.cons.inj hs'
      exact absurd (hlonger hs hd) (by omega)
  · cases s with
    | nil =>
      rw [append_nil] at hs
      obtain ⟨rfl, rfl⟩ := List.cons.inj hs'
      rw [← hs, hd] at hd'
      exact ⟨rfl, append_cancel_left hd'⟩
    | cons x s =>
      obtain ⟨rfl, -⟩ := List.cons.inj hs'
      exact absurd (hlonger hs hd') (by omega)

/-- **Which messages the client receives**: those whose frames are there in time. -/
theorem client_receives_iff (sha1 : Bytes → Bytes) (key : Bytes) {ms frames reads : List Bytes}
    (hframes : ms.mapM webSocketMakeFrame = .ok frames)
    (hreads : reads.flatten = switchingProtocols sha1 key ++ frames.flatten) :
    (∃ st, clientReceive {} reads = .ok (st, .connected :: ms.map .received)) ↔
      ReadInTime (switchingProtocols sha1 key) reads ms := by
  have hpos : ([] : Bytes).length < (switchingProtocols sha1 key).length := by
    rw [switchingProtocols, switchingHead]
    simp only [length_append, crlf, length_cons]
    exact Nat.lt_add_left _ (Nat.succ_pos _)
  obtain ⟨before, d, after, extra, rfl, hlt, hd, htail, hrun⟩ :=
    clientReceive_handshake hpos (b := []) hreads
  rw [nil_append] at hlt hd
  have hreceive : (∃ st, clientReceive {} (before ++ d :: after) =
      .ok (st, .connected :: ms.map .received)) ↔
        ∃ last, clientFrames extra after = .ok (ms, last) := by
    rw [hrun, clientReceive_frames]
    cases clientFrames extra after with
    | error e =>
      constructor
      · rintro ⟨st, h⟩
        cases h
      · rintro ⟨last, h⟩
        cases h
    | ok p =>
      constructor
      · rintro ⟨st, h⟩
        obtain ⟨-, hes⟩ := Prod.mk.inj (Except.ok.inj h)
        have hmsgs := (map_injective_iff.mpr fun _ _ => ClientEvent.received.inj)
          (List.cons.inj hes).2
        exact ⟨p.2, by rw [← hmsgs]⟩
      · rintro ⟨last, h⟩
        obtain rfl := Except.ok.inj h
        exact ⟨_, rfl⟩
  rw [hreceive, frames_received_iff hframes htail]
  constructor
  · intro h
    exact ⟨before, d, after, extra, rfl, hlt, hd, h⟩
  · rintro ⟨before', d', after', extra', hsplit, hlt', hd', h⟩
    obtain ⟨rfl, rfl⟩ := split_unique hsplit hlt hd hlt' hd'
    exact h

theorem client_receives_twoFrames : ∃ st, clientReceive {}
      [(switchingProtocols (fun _ => []) []).take 20,
        (switchingProtocols (fun _ => []) []).drop 20 ++ [0x81#8],
        [0x01#8, 0x61#8, 0x81#8, 0x01#8, 0x62#8], []] =
      .ok (st, [.connected, .received [0x61#8], .received [0x62#8]]) := by
  have hanswer : 20 < (switchingProtocols (fun _ => []) []).length := by decide +kernel
  have htake : ((switchingProtocols (fun _ => []) []).take 20).length = 20 := by
    rw [length_take]
    omega
  have hjoin := take_append_drop 20 (switchingProtocols (fun _ => []) [])
  generalize (switchingProtocols (fun _ => []) []).take 20 = a at htake hjoin ⊢
  generalize (switchingProtocols (fun _ => []) []).drop 20 = c at hjoin ⊢
  refine (@client_receives_iff (fun _ => []) [] [[0x61#8], [0x62#8]]
    [[0x81#8, 0x01#8, 0x61#8], [0x81#8, 0x01#8, 0x62#8]] _ rfl ?_).mpr
    ⟨[a], _, _, [0x81#8], rfl, ?_, ?_, by simp [InTime]⟩
  · rw [← hjoin]
    simp only [flatten_cons, append_assoc]
    rfl
  · rw [flatten_cons, flatten_nil, append_nil, htake]
    exact hanswer
  · rw [flatten_cons, flatten_nil, append_nil, ← append_assoc, hjoin]

/-- **A frame that comes with the answer is not read, and an event that finds nothing makes a
message.** -/
theorem client_loses_messages :
    clientReceive {} [switchingProtocols (fun _ => []) [] ++ [0x81#8, 0x01#8, 0x61#8]] =
    .ok (⟨false, [0x81#8, 0x01#8, 0x61#8]⟩, [.connected]) ∧
    clientReceive {} [switchingProtocols (fun _ => []) [], [0x81#8], [0x01#8, 0x61#8]] =
    .error .outOfRange ∧ clientReceive {} [switchingProtocols (fun _ => []) [], []] =
    .ok (⟨false, []⟩, [.connected, .received []]) ∧ ∃ frame last,
    webSocketMakeFrame (List.replicate 126 0x61#8) = .ok frame ∧
    clientReceive {} [switchingProtocols (fun _ => []) [], frame] =
    .ok (⟨false, last⟩, [.connected, .received (0#8 :: 126#8 :: List.replicate 124 0x61#8)]) := by
  have hanswer (reads : List Bytes) :
      clientReceive {} (switchingProtocols (fun _ => []) [] :: reads) = (do
        let (st, es) ← clientReceive ⟨false, []⟩ reads
        pure (st, .connected :: es)) :=
    clientReceive_complete (by rw [append_nil, nil_append]) reads
  refine ⟨?_, ?_, ?_, ?_⟩
  · exact clientReceive_complete (nil_append _) []
  · rw [hanswer]
    decide
  · rw [hanswer]
    decide
  · have hlen : (List.replicate 126 0x61#8).length = 126 := length_replicate
    refine ⟨_, [0x61#8, 0x61#8], webSocketMakeFrame_126 (by omega) (by omega), ?_⟩
    rw [hanswer, hlen]
    decide +kernel

end Megatron.Http
