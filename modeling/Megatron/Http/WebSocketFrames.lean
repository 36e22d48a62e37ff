import Megatron.Http.WebSocketClient

/-!
`WebSocket_getFrame` of `modules/http/httpService.cpp` on an arbitrary array of bytes: which reads
stay inside (`getFrame_safe_iff`), and which frames are read back (`frame_round_trip_iff`).
-/

namespace Megatron.Http

open Library Library.Http List Megatron.Http.Frame

/-- `s[i]`. -/
def byteAt (s : Bytes) (i : ℕ) : Except Fault Byte :=
  match s[i]? with
  | some b => .ok b
  | none => .error .undefined

/-- The bytes `s[pos]`, …, `s[pos + n - 1]`. -/
def bytesAt (s : Bytes) (pos n : ℕ) : Except Fault Bytes :=
  if n = 0 ∨ pos + n ≤ s.length then .ok ((s.drop pos).take n) else .error .undefined

/-- The `payload_length` and the position after it. -/
def payloadLengthAt (s : Bytes) (lengthField : ℕ) : Except Fault (ℤ × ℕ) :=
  if lengthField ≤ 125 then .ok (lengthField, 2)
  else if lengthField = 126 then do
    let bs ← bytesAt s 2 2
    pure (fromBigEndian bs, 4)
  else do
    let bs ← bytesAt s 2 8
    pure (toInt32 (fromBigEndian bs), 10)

/-- The loop that unmasks the payload. -/
def unmaskLoop (mask : Bytes) (c : ℕ) : ℕ → ℕ → Bytes → Except Fault Bytes
  | _, 0, s => .ok s
  | i, n + 1, s => do
      let b ← byteAt s (c + i)
      unmaskLoop mask c (i + 1) n (s.set (c + i) (b ^^^ mask.getD (i % 4) 0#8))

/-- `std::string(p, n)` for a signed `n`. -/
def stringAt (s : Bytes) (pos : ℕ) (n : ℤ) : Except Fault Bytes :=
  if n < 0 then .error .lengthError else bytesAt s pos n.toNat

def takePayload (o s : Bytes) (type : WebSocketFrameType) (masked : Bool) (length : ℤ) (pos : ℕ) :
    Except Fault (WebSocketFrameType × Bytes × Bytes) :=
  if masked then do
    let mask ← bytesAt s pos 4
    let s' ← unmaskLoop mask (pos + 4) 0 length.toNat s
    let text ← stringAt s' (pos + 4) length
    pure (type, o ++ text, s')
  else do
    let text ← stringAt s pos length
    pure (type, o ++ text, s)

/-- `WebSocket_getFrame` for an array and its length. -/
def getFrame (o s : Bytes) : Except Fault (WebSocketFrameType × Bytes × Bytes) :=
  if toInt32 s.length < 2 then .ok (.incompleteFrame, o, s)
  else do
    let b0 ← byteAt s 0
    let b1 ← byteAt s 1
    let type := frameType (b0 &&& 0x0F#8) (b0 >>> 7 &&& 0x01#8 = 0x01#8)
    let masked : Bool := b1 >>> 7 &&& 0x01#8 = 0x01#8
    let (length, pos) ← payloadLengthAt s (b1 &&& ~~~0x80#8).toNat
    if 2 ^ 31 ≤ length + pos then .error .undefined
    else if toInt32 s.length < length + pos then pure (.incompleteFrame, o, s)
    else takePayload o s type masked length pos

def lengthField (s : Bytes) : ℕ := (s.getD 1 0#8 &&& ~~~0x80#8).toNat

def extendedSize (s : Bytes) : ℕ :=
  if lengthField s ≤ 125 then 0 else if lengthField s = 126 then 2 else 8

def isMasked (s : Bytes) : Bool := s.getD 1 0#8 >>> 7 &&& 0x01#8 = 0x01#8

def declaredLength (s : Bytes) : ℕ :=
  if lengthField s ≤ 125 then lengthField s else fromBigEndian ((s.drop 2).take (extendedSize s))

/-- The declared size as an `int`. -/
def intLength (s : Bytes) : ℤ :=
  if lengthField s ≤ 126 then declaredLength s else toInt32 (declaredLength s)

def FrameInside (s : Bytes) : Prop :=
  2 ≤ s.length ∧ 2 + extendedSize s + (if isMasked s then 4 else 0) + declaredLength s ≤ s.length

instance (s : Bytes) : Decidable (FrameInside s) := inferInstanceAs (Decidable (_ ∧ _))

variable {field n pos : ℕ} {length : ℤ} {m s : Bytes} {masked : Bool}
variable {r : WebSocketFrameType × Bytes × Bytes} (mask o : Bytes) (f : Frame)
variable (type : WebSocketFrameType)

/-! ### Accesses inside the array -/

lemma byteAt_of_lt {i : ℕ} (h : i < s.length) : byteAt s i = .ok (s.getD i 0#8) := by
  rw [byteAt, List.getElem?_eq_getElem h, getD_eq_getElem?_getD, List.getElem?_eq_getElem h]
  rfl

lemma bytesAt_of_le (h : pos + n ≤ s.length) :
    bytesAt s pos n = .ok ((s.drop pos).take n) := if_pos (.inr h)

lemma bytesAt_of_lt (hn : 0 < n) (h : s.length < pos + n) :
    bytesAt s pos n = .error .undefined := if_neg (by omega)

lemma payloadLengthAt_eq (s : Bytes) : payloadLengthAt s (lengthField s) =
      if 2 + extendedSize s ≤ s.length ∨ extendedSize s = 0 then
        .ok (intLength s, 2 + extendedSize s) else .error .undefined := by
  rw [payloadLengthAt, extendedSize, intLength, declaredLength, extendedSize]
  by_cases h7 : lengthField s ≤ 125
  · simp [h7, show lengthField s ≤ 126 by omega]
  · by_cases h16 : lengthField s = 126
    · by_cases hin : 4 ≤ s.length
      · have hread : bytesAt s 2 2 = _ := bytesAt_of_le hin
        simp [h16, hread, hin, pure, Except.pure, bind, Except.bind]
      · have hread : bytesAt s 2 2 = .error .undefined := bytesAt_of_lt (by omega) (by omega)
        simp [h16, hread, hin, bind, Except.bind]
    · have hbig : ¬ lengthField s ≤ 126 := by omega
      by_cases hin : 10 ≤ s.length
      · have hread : bytesAt s 2 8 = _ := bytesAt_of_le hin
        simp [h7, h16, hbig, hread, hin, pure, Except.pure, bind, Except.bind]
      · have hread : bytesAt s 2 8 = .error .undefined := bytesAt_of_lt (by omega) (by omega)
        simp [h7, h16, hread, hin, bind, Except.bind]

lemma toInt32_le (x : ℕ) : toInt32 x ≤ x := by
  rw [toInt32_eq]
  split_ifs <;> omega

lemma toNat_intLength_le (s : Bytes) : (intLength s).toNat ≤ declaredLength s := by
  have h := toInt32_le (declaredLength s)
  rw [intLength]
  split_ifs <;> omega

lemma unmaskLoop_append {c i : ℕ} {u v : Bytes} (w : Bytes) (hu : u.length = c + i) :
    unmaskLoop mask c i v.length (u ++ v ++ w) =
      .ok (u ++ v.mapIdx (fun j b => b ^^^ mask.getD ((i + j) % 4) 0#8) ++ w) := by
  induction v generalizing u i with
  | nil => rfl
  | cons b v ih =>
    have hget : byteAt (u ++ b :: v ++ w) (c + i) = .ok b := by
      rw [byteAt, append_assoc, List.getElem?_append_right (by omega), hu, Nat.sub_self]
      rfl
    have hset (x : Byte) : (u ++ b :: v ++ w).set (c + i) x = u ++ [x] ++ v ++ w := by
      rw [append_assoc, set_append_right _ _ (by omega), hu, Nat.sub_self]
      simp
    rw [length_cons, unmaskLoop, hget]
    show unmaskLoop mask c (i + 1) v.length _ = _
    rw [hset, ih (by rw [length_append, hu, length_singleton, Nat.add_assoc]), mapIdx_cons]
    simp only [Nat.add_zero, Nat.add_assoc, Nat.add_comm 1, append_assoc, cons_append, nil_append]

lemma unmaskLoop_of_le {c : ℕ} (h : c + n ≤ s.length) : unmaskLoop mask c 0 n s =
      .ok (s.take c ++ unmask mask ((s.drop c).take n) ++ s.drop (c + n)) := by
  have hsplit : s = s.take c ++ (s.drop c).take n ++ s.drop (c + n) := by
    rw [append_assoc, ← drop_drop, take_append_drop, take_append_drop]
  have hc : (s.take c).length = c := length_take_of_le (by omega)
  have hn : ((s.drop c).take n).length = n := length_take_of_le (by rw [length_drop]; omega)
  have hloop := unmaskLoop_append mask (i := 0) (v := (s.drop c).take n) (s.drop (c + n)) hc
  simp only [hn, ← hsplit, Nat.zero_add] at hloop
  exact hloop

lemma readBytes_of_bytesAt {bs : Bytes} (h : bytesAt s pos n = .ok bs)
    (hpos : pos ≤ s.length) : readBytes s pos n = .ok bs := by
  rw [bytesAt] at h
  split_ifs at h with hin
  have hle : pos + n ≤ s.length := by omega
  cases h
  rw [readBytes, if_pos (by omega), drop_append_of_le_length hpos,
    take_append_of_le_length (by rw [length_drop]; omega)]

/-! ### The whole function -/

def declaredType (s : Bytes) : WebSocketFrameType :=
  frameType (s.getD 0 0#8 &&& 0x0F#8) (s.getD 0 0#8 >>> 7 &&& 0x01#8 = 0x01#8)

lemma frameType_ne (opcode : Byte) (fin : Bool) : frameType opcode fin ≠ .incompleteFrame := by
  rw [frameType]
  split_ifs <;> decide

lemma getFrame_of_two_le (h : ¬ toInt32 s.length < 2) : getFrame o s =
      if 2 + extendedSize s ≤ s.length then
        if 2 ^ 31 ≤ intLength s + (2 + extendedSize s : ℕ) then .error .undefined
        else if toInt32 s.length < intLength s + (2 + extendedSize s : ℕ) then
          .ok (.incompleteFrame, o, s)
        else takePayload o s (declaredType s) (isMasked s) (intLength s) (2 + extendedSize s)
      else .error .undefined := by
  have htwo : 2 ≤ s.length := by
    have hle := toInt32_le s.length
    omega
  have hlength := payloadLengthAt_eq s
  rw [getFrame, if_neg h, byteAt_of_lt (by omega), byteAt_of_lt (by omega)]
  simp only [bind, Except.bind, pure, Except.pure]
  rw [← lengthField, hlength]
  by_cases hin : 2 + extendedSize s ≤ s.length
  · rw [if_pos (.inl hin), if_pos hin]
    rfl
  · rw [if_neg (by omega), if_neg hin]

lemma takePayload_of_le (h0 : 0 ≤ length)
    (h : pos + (if masked then 4 else 0) + length.toNat ≤ s.length) :
    ∃ text s', takePayload o s type masked length pos = .ok (type, o ++ text, s') ∧
      (if masked then unmaskAt s pos length >>= fun s' =>
          makeString s' (pos + 4) length >>= fun text => .ok (type, text, s')
        else makeString s pos length >>= fun text => .ok (type, text, s)) =
        .ok (type, text, s') := by
  have hneg : ¬ length < 0 := by omega
  cases masked with
  | false =>
    rw [if_neg Bool.false_ne_true, Nat.add_zero] at h
    have hread := bytesAt_of_le h
    have hstring := readBytes_of_bytesAt hread (by omega)
    refine ⟨(s.drop pos).take length.toNat, s, ?_, ?_⟩
    · rw [takePayload, if_neg Bool.false_ne_true, stringAt, if_neg hneg, hread]
      rfl
    · rw [if_neg Bool.false_ne_true, makeString, if_neg hneg, hstring]
      rfl
  | true =>
    rw [if_pos rfl] at h
    have hmask := bytesAt_of_le (show pos + 4 ≤ s.length by omega)
    have hloop := unmaskLoop_of_le ((s.drop pos).take 4) h
    generalize hs' : s.take (pos + 4) ++ unmask ((s.drop pos).take 4)
      ((s.drop (pos + 4)).take length.toNat) ++ s.drop (pos + 4 + length.toNat) = s' at hloop
    have hlen : s'.length = s.length := by
      rw [← hs']
      simp only [length_append, length_unmask, length_take, length_drop]
      omega
    have hread := bytesAt_of_le (show pos + 4 + length.toNat ≤ s'.length by omega)
    have hstring := readBytes_of_bytesAt hread (by omega)
    have hunmask : unmaskAt s pos length = .ok s' := by
      rw [unmaskAt, readBytes_of_bytesAt hmask (by omega)]
      show (if 0 < length ∧ _ then _ else _) = _
      rw [if_neg (by omega), hs']
      rfl
    refine ⟨(s'.drop (pos + 4)).take length.toNat, s', ?_, ?_⟩
    · rw [takePayload, if_pos rfl, hmask]
      show (unmaskLoop _ _ _ _ _ >>= _) = _
      rw [hloop]
      show (stringAt _ _ _ >>= _) = _
      rw [stringAt, if_neg hneg, hread]
      rfl
    · rw [if_pos rfl, hunmask]
      show (makeString _ _ _ >>= _) = _
      rw [makeString, if_neg hneg, hstring]
      rfl

lemma of_takePayload {o : Bytes} {type : WebSocketFrameType}
    (h : takePayload o s type masked length pos = .ok r) : r.1 = type ∧ 0 ≤ length := by
  have hstring {s' text : Bytes} {p : ℕ} (h' : stringAt s' p length = .ok text) : 0 ≤ length := by
    rw [stringAt] at h'
    split_ifs at h' with hneg
    omega
  rw [takePayload] at h
  cases masked with
  | false =>
    obtain ⟨text, htext, hr⟩ := exists_of_bind_ok h
    cases hr
    exact ⟨rfl, hstring htext⟩
  | true =>
    obtain ⟨mask, -, h⟩ := exists_of_bind_ok h
    obtain ⟨s', -, h⟩ := exists_of_bind_ok h
    obtain ⟨text, htext, hr⟩ := exists_of_bind_ok h
    cases hr
    exact ⟨rfl, hstring htext⟩

/-! ### Arbitrary arrays -/

/-- **The bytes for which the function is right.** -/
def Bounded (s : Bytes) : Prop :=
  toInt32 s.length < 2 ∨
    2 + extendedSize s ≤ s.length ∧ intLength s + (2 + extendedSize s : ℕ) < 2 ^ 31 ∧
      (toInt32 s.length < intLength s + (2 + extendedSize s : ℕ) ∨ 0 ≤ intLength s ∧ FrameInside s)

def ReadSafely (o s : Bytes) : Prop :=
  ∃ type o' s', getFrame o s = .ok (type, o', s') ∧
    (type ≠ .incompleteFrame → FrameInside s) ∧ (type = .incompleteFrame → s' = s)

lemma payloadLength_of_payloadLengthAt {r : ℤ × ℕ} (htwo : 2 ≤ s.length)
    (h : payloadLengthAt s field = .ok r) : payloadLength s field = .ok r := by
  rw [payloadLengthAt] at h
  rw [payloadLength]
  split_ifs at h ⊢
  · exact h
  · obtain ⟨bs, hbs, hr⟩ := exists_of_bind_ok h
    rw [readBytes_of_bytesAt hbs htwo]
    exact hr
  · obtain ⟨bs, hbs, hr⟩ := exists_of_bind_ok h
    rw [readBytes_of_bytesAt hbs htwo]
    exact hr

lemma webSocketGetFrame_of_two_le (h : ¬ toInt32 s.length < 2)
    (hin : 2 + extendedSize s ≤ s.length) : webSocketGetFrame s =
      if 2 ^ 31 ≤ intLength s + (2 + extendedSize s : ℕ) then .error .undefined
      else if toInt32 s.length < intLength s + (2 + extendedSize s : ℕ) then
        .ok (.incompleteFrame, [], s)
      else if isMasked s then unmaskAt s (2 + extendedSize s) (intLength s) >>= fun s' =>
          makeString s' (2 + extendedSize s + 4) (intLength s) >>= fun text =>
            .ok (declaredType s, text, s')
        else makeString s (2 + extendedSize s) (intLength s) >>= fun text =>
          .ok (declaredType s, text, s) := by
  have hlength := payloadLengthAt_eq s
  rw [if_pos (.inl hin)] at hlength
  replace hlength := payloadLength_of_payloadLengthAt (by omega) hlength
  rcases s with - | ⟨b0, - | ⟨b1, rest⟩⟩
  · exact absurd hin (by rw [length_nil]; omega)
  · exact absurd hin (by rw [length_singleton]; omega)
  · have hfield : (b1 &&& ~~~0x80#8).toNat = lengthField (b0 :: b1 :: rest) := rfl
    rw [webSocketGetFrame, if_neg h, parseFrame, hfield, hlength]
    simp only [isMasked, declaredType, decide_eq_true_eq]
    rfl

lemma getFrame_of_bounded (h : Bounded s) : ∃ type text s',
    getFrame o s = .ok (type, o ++ text, s') ∧ webSocketGetFrame s = .ok (type, text, s') ∧
    (type ≠ .incompleteFrame → FrameInside s) ∧ (type = .incompleteFrame → s' = s) := by
  by_cases hshort : toInt32 s.length < 2
  · refine ⟨.incompleteFrame, [], s, ?_, ?_, fun hne => absurd rfl hne, fun _ => rfl⟩
    · rw [getFrame, if_pos hshort, append_nil]
    · rcases s with - | ⟨b0, - | ⟨b1, rest⟩⟩
      · rfl
      · rfl
      · rw [webSocketGetFrame, if_pos hshort]
  · obtain ⟨hext, hsum, hcase⟩ := h.resolve_left hshort
    rw [getFrame_of_two_le o hshort, webSocketGetFrame_of_two_le hshort hext, if_pos hext,
      if_neg (not_le.mpr hsum), if_neg (not_le.mpr hsum)]
    by_cases hless : toInt32 s.length < intLength s + (2 + extendedSize s : ℕ)
    · refine ⟨.incompleteFrame, [], s, ?_, ?_, fun hne => absurd rfl hne, fun _ => rfl⟩
      · rw [if_pos hless, append_nil]
      · rw [if_pos hless]
    · obtain ⟨hnonneg, hinside⟩ := hcase.resolve_left hless
      have hsize := hinside.2
      have hle := toNat_intLength_le s
      obtain ⟨text, s', htake, hlenient⟩ := takePayload_of_le o (declaredType s) hnonneg
        (show 2 + extendedSize s + (if isMasked s then 4 else 0) + (intLength s).toNat ≤ s.length by
          omega)
      refine ⟨declaredType s, text, s', ?_, ?_, fun _ => hinside, fun heq => ?_⟩
      · rw [if_neg hless, htake]
      · rw [if_neg hless, hlenient]
      · exact absurd heq (frameType_ne _ _)

/-- **When the parser stays inside the array and is right.** -/
theorem getFrame_safe_iff (o s : Bytes) : ReadSafely o s ↔ Bounded s := by
  constructor
  · rintro ⟨type, o', s', hget, hinside, -⟩
    by_cases hshort : toInt32 s.length < 2
    · exact .inl hshort
    rw [getFrame_of_two_le o hshort] at hget
    split_ifs at hget with hext hsum hless
    · exact .inr ⟨hext, not_le.mp hsum, .inl hless⟩
    · obtain ⟨htype, hnonneg⟩ := of_takePayload hget
      have hne : type ≠ .incompleteFrame := by
        rw [show type = declaredType s from htype]
        exact frameType_ne _ _
      exact .inr ⟨hext, not_le.mp hsum, .inr ⟨hnonneg, hinside hne⟩⟩
  · intro hbounded
    obtain ⟨type, text, s', hget, -, hinside, hsame⟩ := getFrame_of_bounded o hbounded
    exact ⟨type, o ++ text, s', hget, hinside, hsame⟩

/-- **Bytes outside of the array are read.** -/
theorem getFrame_outside : getFrame [] [0x81#8, 0x7E#8] = .error .undefined ∧
      getFrame [] [0x81#8, 0x80#8] = .error .undefined ∧
      getFrame [] [0x81#8, 0x7F#8, 0#8, 0#8, 0#8, 1#8, 0#8, 0#8, 0#8, 0#8] =
        .ok (.textFrame, [], [0x81#8, 0x7F#8, 0#8, 0#8, 0#8, 1#8, 0#8, 0#8, 0#8, 0#8]) ∧
      ¬ FrameInside [0x81#8, 0x7F#8, 0#8, 0#8, 0#8, 1#8, 0#8, 0#8, 0#8, 0#8] :=
  ⟨rfl, rfl, rfl, by decide⟩

/-! ### Frames that are built and read back -/

def clientSend (msg : Bytes) : Except String Bytes :=
  if msg.length ≤ 125 then .ok (0x81#8 :: BitVec.ofNat 8 msg.length :: msg)
  else if msg.length ≤ 65535 then
    .ok (0x81#8 :: 126#8 :: BitVec.ofNat 8 (msg.length >>> 8) :: BitVec.ofNat 8 msg.length :: msg)
  else .error "Сообщение слишком большое"

def withMask (key : Bytes) (n : ℕ) (frame : Bytes) : Bytes :=
  (frame.take (frame.length - n)).modify 1 (· ||| 0x80#8) ++ key ++
    unmask key (frame.drop (frame.length - n))

def ReadBack (o m frame : Bytes) : Prop := ∃ s', getFrame o frame = .ok (.textFrame, o ++ m, s')

def RoundTrips (o m frame : Bytes) : Prop :=
  ReadBack o m frame ∧ ∀ key : Bytes, key.length = 4 → ReadBack o m (withMask key m.length frame)

lemma declared_encode (h : f.payload.length < 2 ^ 31) : extendedSize f.encode =
    (lengthForm f.payload.length).2.length ∧ isMasked f.encode = f.key.isSome ∧
    declaredLength f.encode = f.payload.length ∧ intLength f.encode = f.payload.length := by
  obtain ⟨hfield, hmasked⟩ := second_byte f.key.isSome (lengthForm_spec f.payload.length).1
  replace hfield : lengthField f.encode = (lengthForm f.payload.length).1 := hfield
  have hext : f.encode.drop 2 = (lengthForm f.payload.length).2 ++ f.body := rfl
  have htake (ext : Bytes) : (ext ++ f.body).take ext.length = ext := take_left
  suffices hsize : extendedSize f.encode = (lengthForm f.payload.length).2.length ∧
      declaredLength f.encode = f.payload.length ∧ intLength f.encode = f.payload.length from
    ⟨hsize.1, hmasked, hsize.2⟩
  rw [intLength, declaredLength, extendedSize, hfield, hext]
  -- the three forms of the length
  by_cases h7 : f.payload.length ≤ 125
  · rw [lengthForm, if_pos h7]
    simp [h7, show f.payload.length ≤ 126 by omega]
  · by_cases h16 : f.payload.length ≤ 65535
    · have hbytes := fromBigEndian_toBigEndian (w := 2) (show f.payload.length < 256 ^ 2 by omega)
      have htwo := htake (toBigEndian 2 f.payload.length)
      rw [length_toBigEndian] at htwo
      rw [lengthForm, if_neg h7, if_pos h16]
      simp [htwo, hbytes]
    · have hbytes := fromBigEndian_toBigEndian (w := 8) (show f.payload.length < 256 ^ 8 by omega)
      have height := htake (toBigEndian 8 f.payload.length)
      rw [length_toBigEndian] at height
      rw [lengthForm, if_neg h7, if_neg h16]
      simp [height, hbytes, toInt32_of_lt h]

lemma length_encode_eq : f.encode.length = 2 + (lengthForm f.payload.length).2.length +
      (if f.key.isSome then 4 else 0) + f.payload.length := by
  have hbody : f.body.length = (if f.key.isSome then 4 else 0) + f.payload.length := by
    rw [body]
    cases f.key with
    | none => exact (Nat.zero_add _).symm
    | some k =>
      rw [length_append, k.2, length_unmask]
      rfl
  rw [encode, length_append, hbody, header, length_cons, length_cons]
  omega

/-- **A whole frame is read back.** -/
lemma getFrame_encode (h : f.encode.length < 2 ^ 31) : ReadBack o f.payload f.encode := by
  have hsize := length_encode_eq f
  obtain ⟨hext, hmasked, hdeclared, hint⟩ := declared_encode f (by omega)
  have hinside : FrameInside f.encode := by
    rw [FrameInside, hext, hmasked, hdeclared]
    omega
  have hbounded : Bounded f.encode := by
    refine .inr ⟨?_, ?_, .inr ⟨?_, hinside⟩⟩
    · rw [hext]
      omega
    · rw [hext, hint]
      omega
    · rw [hint]
      omega
  obtain ⟨type, text, s', hget, hlenient, -⟩ := getFrame_of_bounded o hbounded
  obtain ⟨buffer, hencode⟩ := webSocketGetFrame_encode f h
  rw [hlenient] at hencode
  cases hencode
  exact ⟨s', hget⟩

lemma or_mask_bit (h : field < 128) :
    BitVec.ofNat 8 (0 + field) ||| 0x80#8 = BitVec.ofNat 8 (128 + field) := by
  have hall : ∀ i : Fin 128, BitVec.ofNat 8 (0 + i.1) ||| 0x80#8 = BitVec.ofNat 8 (128 + i.1) := by
    decide
  exact hall ⟨field, h⟩

lemma withMask_encode (m : Bytes) (key : { k : Bytes // k.length = 4 }) :
    withMask key.1 m.length (encode ⟨m, none⟩) = encode ⟨m, some key⟩ := by
  have hlen : (encode ⟨m, none⟩).length - m.length = (header ⟨m, none⟩).length := by
    rw [encode, length_append]
    exact Nat.add_sub_cancel _ _
  have hheader : (header ⟨m, none⟩).modify 1 (· ||| 0x80#8) = header ⟨m, some key⟩ := by
    have hbit := or_mask_bit (lengthForm_spec m.length).1
    show 0x81#8 :: (_ ||| 0x80#8) :: _ = 0x81#8 :: _ :: _
    exact congrArg (fun b => 0x81#8 :: b :: (lengthForm m.length).2) hbit
  rw [withMask, hlen, encode, take_left, drop_left, hheader, encode, append_assoc]
  rfl

lemma roundTrips_encode (m : Bytes) (h : m.length < 2 ^ 31 - 16) :
    RoundTrips o m (encode ⟨m, none⟩) := by
  constructor
  · have hlen : _ ≤ m.length + 14 := (length_encode ⟨m, none⟩).2
    exact getFrame_encode o ⟨m, none⟩ (by omega)
  · intro key hkey
    have hlen : _ ≤ m.length + 14 := (length_encode ⟨m, some ⟨key, hkey⟩⟩).2
    rw [withMask_encode m ⟨key, hkey⟩]
    exact getFrame_encode o ⟨m, some ⟨key, hkey⟩⟩ (by omega)

lemma toBigEndian_two (n : ℕ) : toBigEndian 2 n = [BitVec.ofNat 8 (n >>> 8), BitVec.ofNat 8 n] := by
  rw [Nat.shiftRight_eq_div_pow]
  rfl

lemma toBigEndian_eight (h : n < 2 ^ 32) :
    toBigEndian 8 n = [0#8, 0#8, 0#8, 0#8, BitVec.ofNat 8 (n >>> 24), BitVec.ofNat 8 (n >>> 16),
      BitVec.ofNat 8 (n >>> 8), BitVec.ofNat 8 n] := by
  have hzero : n / 256 / 256 / 256 / 256 = 0 := by omega
  have h24 : n >>> 24 = n / 256 / 256 / 256 := by
    rw [Nat.shiftRight_eq_div_pow]
    omega
  have h16 : n >>> 16 = n / 256 / 256 := by
    rw [Nat.shiftRight_eq_div_pow]
    omega
  have h8 : n >>> 8 = n / 256 := Nat.shiftRight_eq_div_pow n 8
  simp only [toBigEndian, hzero, Nat.zero_div, h24, h16, h8]
  rfl

lemma encode_none (m : Bytes) :
    encode ⟨m, none⟩ = 0x81#8 :: BitVec.ofNat 8 (lengthForm m.length).1 ::
      ((lengthForm m.length).2 ++ m) := by
  have hfield : 0 + (lengthForm m.length).1 = (lengthForm m.length).1 := Nat.zero_add _
  rw [← hfield]
  rfl

lemma webSocketMakeFrame_eq (h : m.length < 2 ^ 31 - 1000) :
    webSocketMakeFrame m = .ok (encode ⟨m, none⟩) := by
  have hsize : toInt32 m.length = m.length := toInt32_of_lt (by omega)
  rw [webSocketMakeFrame, hsize]
  simp only [Int.toNat_natCast, take_length]
  rw [if_neg (by omega), encode_none, lengthForm]
  split_ifs with h7 h16
  · rfl
  · rw [toBigEndian_two]
    rfl
  · rw [toBigEndian_eight (by omega)]
    rfl

lemma webSocketMakeFrame_overflow (h : 2 ^ 31 - 1000 ≤ m.length)
    (h' : m.length < 2 ^ 31) : webSocketMakeFrame m = .error .undefined := by
  have hsize : toInt32 m.length = m.length := toInt32_of_lt h'
  rw [webSocketMakeFrame, hsize]
  exact if_pos (by omega)

lemma clientSend_eq (h : m.length ≤ 65535) : clientSend m = .ok (encode ⟨m, none⟩) := by
  rw [clientSend, encode_none, lengthForm, if_pos h]
  split_ifs with h7
  · rfl
  · rw [toBigEndian_two]
    rfl

/-- **Which messages are read back from their frame.** -/
theorem frame_round_trip_iff (o m : Bytes) (h : m.length < 2 ^ 31 - 16) :
    ((∃ frame, webSocketMakeFrame m = .ok frame ∧ RoundTrips o m frame) ↔
        m.length < 2 ^ 31 - 1000) ∧
      (m.length ≤ 65535 → ∃ frame, clientSend m = .ok frame ∧ RoundTrips o m frame) := by
  constructor
  · constructor
    · rintro ⟨frame, hframe, -⟩
      by_contra hlarge
      rw [webSocketMakeFrame_overflow (not_lt.mp hlarge) (by omega)] at hframe
      cases hframe
    · intro hsmall
      exact ⟨_, webSocketMakeFrame_eq hsmall, roundTrips_encode o m h⟩
  · intro hsmall
    exact ⟨_, clientSend_eq hsmall, roundTrips_encode o m h⟩

/-- The frame of `hi` is read back, with any mask. -/
theorem hi_round_trip : [0x68#8, 0x69#8].length < 2 ^ 31 - 16 ∧
      (∃ frame, webSocketMakeFrame [0x68#8, 0x69#8] = .ok frame ∧
        RoundTrips [] [0x68#8, 0x69#8] frame) ∧
      ∃ frame, clientSend [0x68#8, 0x69#8] = .ok frame ∧ RoundTrips [] [0x68#8, 0x69#8] frame := by
  have h := frame_round_trip_iff [] [0x68#8, 0x69#8] (by decide)
  exact ⟨by decide, h.1.mpr (by decide), h.2 (by decide)⟩

/-- No frame is built for `2 ^ 31 - 1000` zeros. -/
theorem large_frame_overflows : (List.replicate (2 ^ 31 - 1000) 0#8).length < 2 ^ 31 - 16 ∧
      webSocketMakeFrame (List.replicate (2 ^ 31 - 1000) 0#8) = .error .undefined := by
  have hlen : (List.replicate (2 ^ 31 - 1000) 0#8).length = 2 ^ 31 - 1000 := length_replicate
  exact ⟨by omega, webSocketMakeFrame_overflow (by omega) (by omega)⟩

end Megatron.Http
