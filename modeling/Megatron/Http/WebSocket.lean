import Megatron.Corelib.IoBuffer
import Megatron.Library.Framing
import Megatron.Library.Reads

/-!
Messages of a WebSocket (`modules/http/httpService.cpp`): they are passed on if each read is one
whole frame (`webSocket_in_step_iff`).
-/

namespace Megatron.Http

open Library List

inductive WebSocketFrameType where
  | errorFrame
  | incompleteFrame
  | openingFrame
  | closingFrame
  | incompleteTextFrame
  | incompleteBinaryFrame
  | textFrame
  | binaryFrame
  | pingFrame
  | pongFrame
  deriving DecidableEq, Repr

inductive Fault where
  /-- The behaviour is undefined. -/
  | undefined
  | lengthError
  deriving DecidableEq, Repr

/-- A number that is converted to `int`. -/
def toInt32 (x : ℕ) : ℤ := (BitVec.ofNat 32 x).toInt

/-- `n` bytes of a string. The byte after the last one is zero. -/
def readBytes (s : Bytes) (pos n : ℕ) : Except Fault Bytes :=
  if pos + n ≤ s.length + 1 then .ok (((s ++ [0#8]).drop pos).take n) else .error .undefined

def fromBigEndian (bs : Bytes) : ℕ := bs.foldl (fun acc b => acc <<< 8 ||| b.toNat) 0

/-- The `payload_length` and the position after it. -/
def payloadLength (inBuffer : Bytes) (lengthField : ℕ) : Except Fault (ℤ × ℕ) :=
  if lengthField ≤ 125 then .ok (lengthField, 2)
  else if lengthField = 126 then do
    let bs ← readBytes inBuffer 2 2
    pure (fromBigEndian bs, 4)
  else do
    let bs ← readBytes inBuffer 2 8
    pure (toInt32 (fromBigEndian bs), 10)

def unmask (mask : Bytes) (payload : Bytes) : Bytes :=
  payload.mapIdx fun i c => c ^^^ mask.getD (i % 4) 0#8

def unmaskAt (inBuffer : Bytes) (pos : ℕ) (length : ℤ) : Except Fault Bytes := do
  let mask ← readBytes inBuffer pos 4
  if 0 < length ∧ inBuffer.length < pos + 4 + length.toNat then .error .undefined
  else
    let payload := (inBuffer.drop (pos + 4)).take length.toNat
    pure (inBuffer.take (pos + 4) ++ unmask mask payload ++ inBuffer.drop (pos + 4 + length.toNat))

def frameType (opcode : Byte) (fin : Bool) : WebSocketFrameType :=
  if opcode = 0x0#8 then if fin then .textFrame else .incompleteTextFrame
  else if opcode = 0x1#8 then if fin then .textFrame else .incompleteTextFrame
  else if opcode = 0x2#8 then if fin then .binaryFrame else .incompleteBinaryFrame
  else if opcode = 0x9#8 then .pingFrame
  else if opcode = 0xA#8 then .pongFrame
  else .errorFrame

/-- `std::string(p, n)` for a signed `n`. -/
def makeString (inBuffer : Bytes) (pos : ℕ) (n : ℤ) : Except Fault Bytes :=
  if n < 0 then .error .lengthError else readBytes inBuffer pos n.toNat

/-- `WebSocket_getFrame`, once there are two bytes. -/
def parseFrame (b0 b1 : Byte) (inBuffer : Bytes) :
    Except Fault (WebSocketFrameType × Bytes × Bytes) := do
  let opcode := b0 &&& 0x0F#8
  let fin := b0 >>> 7 &&& 0x01#8
  let masked := b1 >>> 7 &&& 0x01#8
  let (length, pos) ← payloadLength inBuffer (b1 &&& ~~~0x80#8).toNat
  if 2 ^ 31 ≤ length + pos then .error .undefined
  else if toInt32 inBuffer.length < length + pos then pure (.incompleteFrame, [], inBuffer)
  else if masked = 0x01#8 then do
    let unmasked ← unmaskAt inBuffer pos length
    let o ← makeString unmasked (pos + 4) length
    pure (frameType opcode (fin = 0x01#8), o, unmasked)
  else do
    let o ← makeString inBuffer pos length
    pure (frameType opcode (fin = 0x01#8), o, inBuffer)

def webSocketGetFrame (inBuffer : Bytes) : Except Fault (WebSocketFrameType × Bytes × Bytes) :=
  match inBuffer with
  | b0 :: b1 :: _ =>
    if toInt32 inBuffer.length < 2 then .ok (.incompleteFrame, [], inBuffer)
    else parseFrame b0 b1 inBuffer
  | _ => .ok (.incompleteFrame, [], inBuffer)

/-- `on_StreamRead` in WebSocket mode. -/
def onStreamRead (websocketBuffer data : Bytes) : Except Fault (Bytes × Option Bytes) := do
  let (res, o, buffer) ← webSocketGetFrame (websocketBuffer ++ data)
  match res with
  | .errorFrame => pure (buffer, none)
  | .textFrame => pure ([], some o)
  | _ => pure (buffer, some o)

def receive : Bytes → List Bytes → Except Fault (List Bytes × Bytes)
  | buffer, [] => .ok ([], buffer)
  | buffer, data :: reads => do
      let (buffer', o) ← onStreamRead buffer data
      let (os, last) ← receive buffer' reads
      pure (o.toList ++ os, last)

/-! ### Frames -/

def toBigEndian : ℕ → ℕ → Bytes
  | 0, _ => []
  | w + 1, n => toBigEndian w (n / 256) ++ [BitVec.ofNat 8 n]

@[simp] lemma length_toBigEndian (w n : ℕ) : (toBigEndian w n).length = w := by
  induction w generalizing n with
  | zero => rfl
  | succ w ih => rw [toBigEndian, length_append, ih, length_singleton]

lemma fromBigEndian_toBigEndian {w n : ℕ} (h : n < 256 ^ w) :
    fromBigEndian (toBigEndian w n) = n := by
  induction w generalizing n with
  | zero =>
    rw [pow_zero, Nat.lt_one_iff] at h
    rw [h]
    rfl
  | succ w ih =>
    have hdiv : n / 256 < 256 ^ w := by
      rw [Nat.div_lt_iff_lt_mul (by omega), ← pow_succ]
      exact h
    have hlow : n % 256 < 2 ^ 8 := Nat.mod_lt _ (by omega)
    have hih : (toBigEndian w (n / 256)).foldl (fun acc b => acc <<< 8 ||| b.toNat) 0 = n / 256 :=
      ih hdiv
    calc fromBigEndian (toBigEndian (w + 1) n)
        = (n / 256) <<< 8 ||| n % 256 := by
          rw [fromBigEndian, toBigEndian, foldl_append, hih]
          rfl
      _ = n / 256 * 256 + n % 256 := by
          rw [← Nat.shiftLeft_add_eq_or_of_lt hlow, Nat.shiftLeft_eq]
      _ = n := Nat.div_add_mod' n 256

structure Frame where
  payload : Bytes
  key : Option { k : Bytes // k.length = 4 }
  deriving DecidableEq

namespace Frame

def lengthForm (n : ℕ) : ℕ × Bytes :=
  if n ≤ 125 then (n, [])
  else if n ≤ 65535 then (126, toBigEndian 2 n)
  else (127, toBigEndian 8 n)

def header (f : Frame) : Bytes :=
  0x81#8 :: BitVec.ofNat 8 ((if f.key.isSome then 128 else 0) + (lengthForm f.payload.length).1) ::
    (lengthForm f.payload.length).2

def body (f : Frame) : Bytes :=
  match f.key with
  | none => f.payload
  | some k => k.1 ++ unmask k.1 f.payload

def encode (f : Frame) : Bytes := f.header ++ f.body

lemma lengthForm_spec (n : ℕ) : (lengthForm n).1 < 128 ∧ (lengthForm n).2.length ≤ 8 := by
  rw [lengthForm]
  split_ifs with h7 h16
  · exact ⟨by omega, by simp⟩
  · exact ⟨by omega, by simp⟩
  · exact ⟨by omega, by simp⟩

lemma length_encode (f : Frame) :
    f.payload.length + 2 ≤ f.encode.length ∧ f.encode.length ≤ f.payload.length + 14 := by
  have hform := (lengthForm_spec f.payload.length).2
  have hbody : f.payload.length ≤ f.body.length ∧ f.body.length ≤ f.payload.length + 4 := by
    rw [body]
    cases f.key with
    | none => exact ⟨le_rfl, Nat.le_add_right _ _⟩
    | some k =>
      rw [length_append, k.2, unmask, length_mapIdx]
      omega
  rw [encode, length_append, header, length_cons, length_cons]
  omega

end Frame

/-! ### One frame in one read -/

lemma toInt32_eq (x : ℕ) : toInt32 x = if x % 2 ^ 32 < 2 ^ 31 then ((x % 2 ^ 32 : ℕ) : ℤ)
      else ((x % 2 ^ 32 : ℕ) : ℤ) - 2 ^ 32 := by
  rw [toInt32, BitVec.toInt_eq_toNat_cond, BitVec.toNat_ofNat, Nat.cast_pow, Nat.cast_ofNat]
  split_ifs <;> omega

lemma toInt32_of_lt {x : ℕ} (h : x < 2 ^ 31) : toInt32 x = x := by
  rw [toInt32_eq, if_pos (by omega), Nat.mod_eq_of_lt (by omega)]

lemma readBytes_append (u v w : Bytes) : readBytes (u ++ v ++ w) u.length v.length = .ok v := by
  have hlen : u.length + v.length ≤ (u ++ v ++ w).length + 1 := by
    simp only [length_append]
    omega
  rw [readBytes, if_pos hlen, append_assoc, append_assoc, drop_left, take_left]

lemma second_byte (masked : Bool) {field : ℕ} (h : field < 128) :
    (BitVec.ofNat 8 ((if masked then 128 else 0) + field) &&& ~~~0x80#8).toNat = field ∧
      decide (BitVec.ofNat 8 ((if masked then 128 else 0) + field) >>> 7 &&& 0x01#8 = 0x01#8)
        = masked := by
  have hall : ∀ (masked : Bool) (i : Fin 128),
      (BitVec.ofNat 8 ((if masked then 128 else 0) + i.1) &&& ~~~0x80#8).toNat = i.1 ∧
        decide (BitVec.ofNat 8 ((if masked then 128 else 0) + i.1) >>> 7 &&& 0x01#8 = 0x01#8)
          = masked := by
    decide
  exact hall masked ⟨field, h⟩

variable {o : Option Bytes} {res : WebSocketFrameType} (f : Frame) (fs : List Frame)

lemma payloadLength_header (rest : Bytes) (h : f.payload.length < 2 ^ 31) :
    payloadLength (f.header ++ rest) (Frame.lengthForm f.payload.length).1
      = .ok (f.payload.length, f.header.length) := by
  have hread (ext : Bytes) (hext : (Frame.lengthForm f.payload.length).2 = ext) :
      readBytes (f.header ++ rest) 2 ext.length = .ok ext := by
    rw [Frame.header, hext]
    exact readBytes_append [_, _] ext rest
  have hlen : f.header.length = 2 + (Frame.lengthForm f.payload.length).2.length := by
    rw [Frame.header, length_cons, length_cons]
    omega
  rw [hlen]
  generalize hn : f.payload.length = n at *
  rw [Frame.lengthForm] at *
  split_ifs at * with h7 h16
  · rw [payloadLength, if_pos h7]
    rfl
  · have hbs := hread _ rfl
    rw [length_toBigEndian] at hbs
    rw [payloadLength, if_neg (by omega), if_pos rfl, hbs, length_toBigEndian]
    show Except.ok (((fromBigEndian (toBigEndian 2 n) : ℕ) : ℤ), 4) = _
    rw [fromBigEndian_toBigEndian (by omega)]
  · have hbs := hread _ rfl
    rw [length_toBigEndian] at hbs
    rw [payloadLength, if_neg (by omega), if_neg (by omega), hbs, length_toBigEndian]
    show Except.ok (toInt32 (fromBigEndian (toBigEndian 8 n)), 10) = _
    rw [fromBigEndian_toBigEndian (by omega), toInt32_of_lt h]

@[simp] lemma length_unmask (payload : Bytes) :
    (unmask mask payload).length = payload.length := length_mapIdx

lemma unmask_unmask (payload : Bytes) : unmask mask (unmask mask payload) = payload := by
  refine ext_getElem (by simp) fun i _ _ => ?_
  simp only [unmask, getElem_mapIdx, BitVec.xor_assoc, BitVec.xor_self, BitVec.xor_zero]

lemma makeString_append (u v w : Bytes) : makeString (u ++ v ++ w) u.length v.length = .ok v := by
  rw [makeString, if_neg (by omega), Int.toNat_natCast]
  exact readBytes_append u v w

lemma unmaskAt_append (header payload : Bytes) (key : { k : Bytes // k.length = 4 }) :
    unmaskAt (header ++ (key.1 ++ unmask key.1 payload)) header.length payload.length
      = .ok (header ++ key.1 ++ payload ++ []) := by
  have hmask :
      readBytes (header ++ (key.1 ++ unmask key.1 payload)) header.length 4 = .ok key.1 := by
    have hread := readBytes_append header key.1 (unmask key.1 payload)
    rwa [key.2, append_assoc] at hread
  have hlen : (header ++ key.1).length = header.length + 4 := by rw [length_append, key.2]
  have hwhole : ¬ (0 < (payload.length : ℤ) ∧ (header ++ (key.1 ++ unmask key.1 payload)).length
      < header.length + 4 + (payload.length : ℤ).toNat) := by
    simp only [length_append, key.2, length_unmask, Int.toNat_natCast]
    omega
  rw [unmaskAt, hmask]
  show (if 0 < (payload.length : ℤ) ∧ _ then _ else _) = _
  rw [if_neg hwhole, Int.toNat_natCast, ← append_assoc, ← hlen, drop_left, take_left]
  have htake : (unmask key.1 payload).take payload.length = unmask key.1 payload := by
    rw [take_of_length_le (by simp)]
  have hdrop : (header ++ key.1 ++ unmask key.1 payload).drop ((header ++ key.1).length
      + payload.length) = [] := by
    rw [drop_eq_nil_iff]
    simp only [length_append, length_unmask]
    omega
  simp only [htake, hdrop, unmask_unmask]
  rfl

/-- **A whole frame is recognised.** -/
lemma webSocketGetFrame_encode (h : f.encode.length < 2 ^ 31) :
    ∃ buffer, webSocketGetFrame f.encode = .ok (.textFrame, f.payload, buffer) := by
  obtain ⟨hshort, hlong⟩ := f.length_encode
  obtain ⟨hfield, hmasked⟩ := second_byte f.key.isSome (Frame.lengthForm_spec f.payload.length).1
  have hlength := payloadLength_header f f.body (by omega)
  have hsum : f.encode.length = f.header.length + f.body.length := length_append
  have htype : frameType (0x81#8 &&& 0x0F#8) (decide (0x81#8 >>> 7 &&& 0x01#8 = 0x01#8))
      = .textFrame := by decide
  have hbody : f.payload.length ≤ f.body.length := by
    rw [Frame.body]
    cases f.key with
    | none => exact le_rfl
    | some k => simp
  have hbig : ¬ toInt32 f.encode.length < 2 := by
    rw [toInt32_of_lt h]
    omega
  have hparse : webSocketGetFrame f.encode = parseFrame 0x81#8
      (BitVec.ofNat 8 ((if f.key.isSome then 128 else 0) + (Frame.lengthForm f.payload.length).1))
      f.encode := if_neg hbig
  rw [hparse, parseFrame, hfield, Frame.encode, hlength]
  show ∃ buffer,
    (if (2 : ℤ) ^ 31 ≤ (f.payload.length : ℤ) + (f.header.length : ℕ) then _ else _) = _
  rw [if_neg (by omega), if_neg (by rw [← Frame.encode, toInt32_of_lt h]; omega)]
  cases hkey : f.key with
  | none =>
    rw [hkey] at hmasked
    have hbody' : f.body = f.payload := by rw [Frame.body, hkey]
    have hstring := makeString_append f.header f.payload []
    rw [append_nil] at hstring
    rw [if_neg (of_decide_eq_false hmasked), hbody', hstring, htype]
    exact ⟨_, rfl⟩
  | some k =>
    rw [hkey] at hmasked
    have hbody' : f.body = k.1 ++ unmask k.1 f.payload := by rw [Frame.body, hkey]
    have hstring := makeString_append (f.header ++ k.1) f.payload []
    rw [length_append, k.2] at hstring
    rw [if_pos (of_decide_eq_true hmasked), hbody', unmaskAt_append, htype]
    refine ⟨f.header ++ k.1 ++ f.payload ++ [], ?_⟩
    simp only [bind, Except.bind, hstring]
    rfl

/-- **One frame in one read is one message.** -/
theorem onStreamRead_encode {f : Frame} (h : f.encode.length < 2 ^ 31) :
    onStreamRead [] f.encode = .ok ([], some f.payload) := by
  obtain ⟨buffer, hframe⟩ := webSocketGetFrame_encode f h
  rw [onStreamRead, nil_append, hframe]
  rfl

/-! ### What a read of text frames can do -/

lemma length_of_readBytes {s o : Bytes} {pos n : ℕ} (h : readBytes s pos n = .ok o) :
    o.length ≤ n := by
  rw [readBytes] at h
  split_ifs at h
  cases h
  exact length_take_le ..

lemma length_of_makeString {s o : Bytes} {pos : ℕ} {n : ℤ} (h : makeString s pos n = .ok o) :
    (o.length : ℤ) ≤ n := by
  rw [makeString] at h
  split_ifs at h with hneg
  have hlen := length_of_readBytes h
  omega

lemma parseFrame_text {b1 : Byte} {s o buffer : Bytes}
    (h : parseFrame 0x81#8 b1 s = .ok (res, o, buffer)) :
    (res = .incompleteFrame ∧ o = [] ∧ buffer = s) ∨ (res = .textFrame ∧ o.length < 2 ^ 31) := by
  have htype : frameType (0x81#8 &&& 0x0F#8) (decide (0x81#8 >>> 7 &&& 0x01#8 = 0x01#8))
      = .textFrame := by decide
  rw [parseFrame, htype] at h
  obtain ⟨⟨length, pos⟩, -, h⟩ := exists_of_bind_ok h
  simp only at h
  split_ifs at h with hover hshort hmasked
  · cases h
    exact .inl ⟨rfl, rfl, rfl⟩
  · obtain ⟨unmasked, -, h⟩ := exists_of_bind_ok h
    obtain ⟨o', ho, h⟩ := exists_of_bind_ok h
    cases h
    have hlen := length_of_makeString ho
    exact .inr ⟨rfl, by omega⟩
  · obtain ⟨o', ho, h⟩ := exists_of_bind_ok h
    cases h
    have hlen := length_of_makeString ho
    exact .inr ⟨rfl, by omega⟩

lemma onStreamRead_text {s rest buffer : Bytes} (hs : s <+: 0x81#8 :: rest)
    (h : onStreamRead [] s = .ok (buffer, o)) : (o = some [] ∧ buffer = s) ∨
    ∃ m, o = some m ∧ buffer = [] ∧ m.length < 2 ^ 31 ∧ 2 ≤ toInt32 s.length := by
  rw [onStreamRead, nil_append] at h
  obtain ⟨⟨res, m, buffer'⟩, hframe, h⟩ := exists_of_bind_ok h
  match s, hs with
  | [], _ =>
    cases hframe
    cases h
    exact .inl ⟨rfl, rfl⟩
  | [b0], _ =>
    cases hframe
    cases h
    exact .inl ⟨rfl, rfl⟩
  | b0 :: b1 :: s, hs =>
    obtain rfl : b0 = 0x81#8 := (cons_prefix_cons.mp hs).1
    rw [webSocketGetFrame] at hframe
    split_ifs at hframe with hlen
    · cases hframe
      cases h
      exact .inl ⟨rfl, rfl⟩
    · rcases parseFrame_text hframe with ⟨rfl, rfl, rfl⟩ | ⟨rfl, hm⟩
      · cases h
        exact .inl ⟨rfl, rfl⟩
      · cases h
        exact .inr ⟨m, rfl, rfl, hm, by omega⟩

/-! ### The reads of a connection -/

def InStep (fs : List Frame) (reads : List Bytes) : Prop :=
  ∃ buffer, receive [] reads
      = .ok ((completed Frame.encode fs reads.flatten.length).map Frame.payload, buffer) ∧
    reads.flatten = (completed Frame.encode fs reads.flatten.length).flatMap Frame.encode ++ buffer

lemma encode_ne_nil : f.encode ≠ [] := by
  rw [Frame.encode, Frame.header]
  exact nofun

lemma completed_cons_append (u : Bytes) : completed Frame.encode (f :: fs) (f.encode ++ u).length
      = f :: completed Frame.encode fs u.length := by
  rw [completed, length_append, if_pos (Nat.le_add_right _ _), Nat.add_sub_cancel_left]

lemma receive_cons {buffer buffer' data : Bytes} (h : onStreamRead buffer data = .ok (buffer', o))
    (reads : List Bytes) : receive buffer (data :: reads) =
    (receive buffer' reads).map fun r => (o.toList ++ r.1, r.2) := by
  rw [receive, h]
  simp only [bind, Except.bind]
  cases receive buffer' reads <;> rfl

lemma inStep_cons_iff {f : Frame} (h : f.encode.length < 2 ^ 31) (fs : List Frame)
    (reads : List Bytes) : InStep (f :: fs) (f.encode :: reads) ↔ InStep fs reads := by
  have hreceive : receive [] (f.encode :: reads)
      = (receive [] reads).map fun r => (f.payload :: r.1, r.2) :=
    receive_cons (onStreamRead_encode h) reads
  simp only [InStep, hreceive, flatten_cons, completed_cons_append, map_cons,
    flatMap_cons, append_assoc, append_cancel_left_eq]
  refine exists_congr fun buffer => and_congr_left fun _ => ?_
  cases receive [] reads with
  | error e => exact ⟨nofun, nofun⟩
  | ok r => simp [Except.map, Prod.ext_iff]

/-- **The first read must be the first frame.** -/
lemma first_read {f : Frame} {fs : List Frame} {data : Bytes}
    (hpre : data <+: f.encode ++ fs.flatMap Frame.encode) (h : InStep (f :: fs) [data]) :
    data = f.encode ∧ f.encode.length < 2 ^ 31 := by
  obtain ⟨buffer, hreceive, hsplit⟩ := h
  obtain ⟨⟨buffer', o⟩, hread, hrest⟩ := exists_of_bind_ok hreceive
  rw [flatten_singleton] at hrest hsplit
  obtain ⟨hmessages, rfl⟩ := Prod.mk.inj (Except.ok.inj hrest)
  rw [append_nil] at hmessages
  -- one message is passed in any case, so the first frame has arrived, and no other one
  have hone (m : Bytes) (ho : o = some m) :
      completed Frame.encode (f :: fs) data.length = [f] ∧ f.payload = m := by
    rw [ho, completed] at hmessages
    rw [completed]
    split_ifs at hmessages ⊢
    · simp only [Option.toList_some, map_cons, List.cons.injEq] at hmessages
      obtain ⟨hm, hnil⟩ := hmessages
      rw [map_eq_nil_iff.mp hnil.symm]
      exact ⟨rfl, hm.symm⟩
    · cases hmessages
  have hpos := length_pos_of_ne_nil (encode_ne_nil f)
  rcases onStreamRead_text hpre hread with ⟨ho, rfl⟩ | ⟨m, ho, rfl, hm, hlen⟩
  · obtain ⟨hcompleted, -⟩ := hone [] ho
    have hlength := congrArg List.length hsplit
    rw [hcompleted, flatMap_singleton, length_append] at hlength
    omega
  · obtain ⟨hcompleted, rfl⟩ := hone m ho
    rw [hcompleted, flatMap_singleton, append_nil] at hsplit
    refine ⟨hsplit, ?_⟩
    have hbound := f.length_encode.2
    rw [hsplit, toInt32_eq] at hlen
    split_ifs at hlen <;> omega

lemma inStep_nil : InStep fs [] := by
  have hnone : completed Frame.encode fs 0 = [] := by
    cases fs with
    | nil => rfl
    | cons f fs =>
      have hpos := length_pos_of_ne_nil (encode_ne_nil f)
      rw [completed, if_neg (by omega)]
  refine ⟨[], ?_, ?_⟩
  · rw [flatten_nil, length_nil, hnone]
    rfl
  · rw [flatten_nil, length_nil, hnone]
    rfl

lemma inStep_iff (reads : List Bytes) (hcut : reads.flatten = fs.flatMap Frame.encode) :
    (∀ k, InStep fs (reads.take k)) ↔
      reads = fs.map Frame.encode ∧ ∀ f ∈ fs, f.encode.length < 2 ^ 31 := by
  induction fs generalizing reads with
  | nil =>
    refine ⟨fun h => ⟨?_, nofun⟩, ?_⟩
    · cases reads with
      | nil => rfl
      | cons data reads =>
        -- a read without data passes an empty message
        obtain rfl : data = [] := flatten_eq_nil_iff.mp hcut data mem_cons_self
        obtain ⟨buffer, hreceive, -⟩ := h 1
        cases hreceive
    · rintro ⟨rfl, -⟩ k
      rw [map_nil, take_nil]
      exact inStep_nil []
  | cons f fs ih =>
    cases reads with
    | nil =>
      rw [flatten_nil, flatMap_cons, eq_comm, append_eq_nil_iff] at hcut
      exact absurd hcut.1 (encode_ne_nil f)
    | cons data reads =>
      rw [flatten_cons, flatMap_cons] at hcut
      constructor
      · intro h
        obtain ⟨rfl, hsmall⟩ := first_read (hcut ▸ prefix_append ..) (h 1)
        obtain ⟨rfl, hall⟩ := (ih reads (append_cancel_left hcut)).mp fun k =>
          (inStep_cons_iff hsmall fs _).mp (h (k + 1))
        exact ⟨rfl, forall_mem_cons.mpr ⟨hsmall, hall⟩⟩
      · rintro ⟨heq, hall⟩ k
        obtain ⟨rfl, rfl⟩ := List.cons.inj heq
        obtain ⟨hsmall, hall⟩ := forall_mem_cons.mp hall
        cases k with
        | zero => exact inStep_nil _
        | succ k =>
          rw [take_succ_cons, inStep_cons_iff hsmall]
          exact (ih _ (append_cancel_left hcut)).mpr ⟨rfl, hall⟩ k

/-- **A WebSocket passes its messages on** exactly if each read is one whole frame. -/
theorem webSocket_in_step_iff (fs : List Frame) (reads : List Bytes)
    (hcut : reads.flatten = fs.flatMap Frame.encode) : ((∀ k, InStep fs (reads.take k)) ↔
      reads = fs.map Frame.encode ∧ ∀ f ∈ fs, f.encode.length < 2 ^ 31) ∧
    ((∀ k, InStep fs (reads.take k)) → receive [] reads = .ok (fs.map Frame.payload, [])) := by
  refine ⟨inStep_iff fs reads hcut, fun h => ?_⟩
  obtain ⟨buffer, hreceive, hsplit⟩ := h reads.length
  rw [take_length] at hreceive hsplit
  rw [hcut, completed_flatMap] at hreceive hsplit
  rw [hreceive, append_right_eq_self.mp hsplit.symm]

def twoFrames : List Frame :=
  [⟨[0x68#8, 0x69#8], none⟩, ⟨[0x79#8], some ⟨[0x01#8, 0x02#8, 0x03#8, 0x04#8], rfl⟩⟩]

theorem webSocket_in_step_iff_twoFrames :
    receive [] (twoFrames.map Frame.encode) = .ok ([[0x68#8, 0x69#8], [0x79#8]], []) := by
  obtain ⟨hiff, hmessages⟩ := webSocket_in_step_iff twoFrames (twoFrames.map Frame.encode) rfl
  exact hmessages (hiff.mpr ⟨rfl, by decide⟩)

/-- **Messages are lost and made up.** -/
theorem webSocket_loses_messages : [[0x81#8, 0x01#8, 0x61#8, 0x81#8, 0x01#8, 0x62#8]].flatten
        = [⟨[0x61#8], none⟩, ⟨[0x62#8], none⟩].flatMap Frame.encode ∧
      receive [] [[0x81#8, 0x01#8, 0x61#8, 0x81#8, 0x01#8, 0x62#8]] = .ok ([[0x61#8]], []) ∧
      [[0x81#8, 0x01#8], [0x61#8]].flatten = [⟨[0x61#8], none⟩].flatMap Frame.encode ∧
      receive [] [[0x81#8, 0x01#8], [0x61#8]] = .ok ([[], [0x61#8]], []) ∧
      [[0x81#8, 0x81#8, 0x00#8, 0x00#8, 0x00#8, 0x00#8], [0x61#8]].flatten
        = [⟨[0x61#8], some ⟨[0x00#8, 0x00#8, 0x00#8, 0x00#8], rfl⟩⟩].flatMap Frame.encode ∧
      receive [] [[0x81#8, 0x81#8, 0x00#8, 0x00#8, 0x00#8, 0x00#8], [0x61#8]]
        = .error .undefined := by
  refine ⟨rfl, rfl, rfl, rfl, rfl, rfl⟩

end Megatron.Http
