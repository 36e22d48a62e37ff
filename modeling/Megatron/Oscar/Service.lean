import Megatron.Corelib.Obuf
import Megatron.Library.Framing

/-!
The packet layer `Oscar` (`modules/oscar/oscarService.cpp`): a packet travels
as a start byte, its length as a packed number and its payload, and the reader
`on_StreamRead` takes packets off the input buffer of the socket.
-/

namespace Megatron

open Library List InBuffer

/-- `Oscar::StartByte`. -/
def sbSinglePacket : Byte := 0x01#8

/-- `Oscar::Service::sendPacketPlain`: the bytes handed to `write_buf`. -/
def sendPacketPlain (startByte : Byte) (o : Bytes) : Except Exn Bytes := do
  let bs := o.length + 0x100
  let O2 ← (OBuf.ofSize bs).put8 startByte
  let O2 ← O2.putRef (some o)
  pure O2.data

def packetFrame (p : Bytes) : Bytes := sbSinglePacket :: (putPN (sizeT p) ++ p)

lemma sendPacketPlain_eq (p : Bytes) : sendPacketPlain sbSinglePacket p = .ok (packetFrame p) := by
  have hstart : (OBuf.ofSize (p.length + 0x100)).put8 sbSinglePacket
      = .ok ⟨p.length + 0x100, [sbSinglePacket]⟩ := OBuf.pack_eq (by simp [OBuf.ofSize])
  have hrest : (OBuf.mk (p.length + 0x100) [sbSinglePacket]).putRef (some p)
      = .ok ⟨p.length + 0x100, [sbSinglePacket] ++ putPN (sizeT p) ++ p⟩ :=
    OBuf.putRef_eq (by simp only [length_singleton]; omega)
  rw [sendPacketPlain, hstart]
  show (OBuf.mk (p.length + 0x100) [sbSinglePacket]).putRef (some p) >>= _ = _
  rw [hrest]
  rfl

def readPacket (maxPacketSize : BitVec 64) (data : Bytes) : Option (Byte × Bytes × Bytes) :=
  match get8Nothrow (ofBytes data) with
  | (.error _, _) => none
  | (.ok startByte, b) =>
    match getPNNothrow b with
    | (.error _, _) => none
    | (.ok len, b) =>
      if len > maxPacketSize then none
      else if remains b < len.toNat then none
      else
        match unpackNothrow len b with
        | (.error _, _) => none
        | (.ok req, b) => some (startByte, req, b.unread)

def readRound (maxPacketSize : BitVec 64) (data : Bytes) : Next Bytes Byte :=
  match readPacket maxPacketSize data with
  | none => .more
  | some (startByte, req, rest) =>
    if startByte = sbSinglePacket then .item req rest else .bad rest

variable {maxPacketSize : BitVec 64} (c : Byte) (cs : Bytes)

lemma get8Nothrow_cons : get8Nothrow (ofBytes (c :: cs)) = (.ok c, (ofBytes (c :: cs)).advance 1) :=
  get8Or_of_unread_cons () rfl

lemma unread_ofBytes_advance_one : ((ofBytes (c :: cs)).advance 1).unread = cs := rfl

lemma readPacket_some {data req rest : Bytes} {startByte : Byte}
    (h : readPacket maxPacketSize data = some (startByte, req, rest)) :
    ∃ cs k, data = startByte :: cs ∧ rest = cs.drop k := by
  cases data with
  | nil => simp [readPacket, get8Nothrow, get8Or, ofBytes] at h
  | cons c cs =>
    rw [readPacket, get8Nothrow_cons] at h
    rcases hPN : getPNNothrow ((ofBytes (c :: cs)).advance 1) with ⟨_ | len, b⟩
    · simp [hPN] at h
    · obtain ⟨n, rfl⟩ := getPNFrom_ok hPN
      simp only [hPN] at h
      split_ifs at h
      rcases hun : unpackNothrow len (((ofBytes (c :: cs)).advance 1).advance n)
        with ⟨_ | w, b⟩
      · simp [hun] at h
      · obtain ⟨-, rfl⟩ := unpackOr_ok hun
        simp only [hun, Option.some.injEq, Prod.mk.injEq] at h
        obtain ⟨rfl, -, rfl⟩ := h
        refine ⟨cs, n + len.toNat, rfl, ?_⟩
        rw [Cursor.unread_advance, Cursor.unread_advance, unread_ofBytes_advance_one, drop_drop]

/-- The loop of `on_StreamRead` as a parser of frames. -/
def oscarFraming (maxPacketSize : BitVec 64) : Framing Bytes Byte where
  next := readRound maxPacketSize
  shorter {b p r} h := by
    rw [readRound] at h
    rcases hp : readPacket maxPacketSize b with _ | ⟨startByte, req, rest⟩
    · rw [hp] at h
      cases h
    · rw [hp] at h
      obtain ⟨cs, k, rfl, rfl⟩ := readPacket_some hp
      simp only at h
      split_ifs at h
      cases h
      rw [length_drop, length_cons]
      omega

lemma readPacket_frame {p : Bytes} (hp : p.length ≤ maxPacketSize.toNat) (rest : Bytes) :
    readPacket maxPacketSize (packetFrame p ++ rest) = some (sbSinglePacket, p, rest) := by
  have hsize : (sizeT p).toNat = p.length := toNat_sizeT (hp.trans_lt maxPacketSize.isLt)
  have hPN : getPNNothrow ((ofBytes (packetFrame p ++ rest)).advance 1)
      = (.ok (sizeT p), ((ofBytes (packetFrame p ++ rest)).advance 1).advance
          (putPN (sizeT p)).length) :=
    (getPNFrom_decodes_putPN () (sizeT p)).apply (append_assoc _ p rest)
  have hunread : (((ofBytes (packetFrame p ++ rest)).advance 1).advance
      (putPN (sizeT p)).length).unread = p ++ rest :=
    Cursor.unread_advance_of_append (append_assoc _ p rest)
  have hun := (unpackOr_decodes (fun _ => ()) hsize).apply hunread
  have hrem : remains (((ofBytes (packetFrame p ++ rest)).advance 1).advance
      (putPN (sizeT p)).length) = p.length + rest.length := by
    rw [remains, ← Cursor.length_unread, hunread, length_append]
  have hmax : ¬ sizeT p > maxPacketSize := by
    rw [gt_iff_lt, BitVec.lt_def, hsize]
    omega
  rw [readPacket, packetFrame, cons_append, get8Nothrow_cons, ← cons_append, ← packetFrame]
  simp only [hPN]
  rw [if_neg hmax, if_neg (by omega)]
  simp only [unpackNothrow, hun]
  rw [Cursor.unread_advance_of_append hunread]

lemma readPacket_cut_payload {p u w : Bytes} {c : Byte}
    (hp : p.length ≤ maxPacketSize.toNat) (hu : u = putPN (sizeT p) ++ w)
    (hw : w.length < p.length) : readPacket maxPacketSize (c :: u) = none := by
  have hsize : (sizeT p).toNat = p.length := toNat_sizeT (hp.trans_lt maxPacketSize.isLt)
  have hPN : getPNNothrow ((ofBytes (c :: u)).advance 1)
      = (.ok (sizeT p), ((ofBytes (c :: u)).advance 1).advance (putPN (sizeT p)).length) :=
    (getPNFrom_decodes_putPN () (sizeT p)).apply hu
  have hrem : remains (((ofBytes (c :: u)).advance 1).advance
      (putPN (sizeT p)).length) = w.length := by
    rw [remains, ← Cursor.length_unread, Cursor.unread_advance_of_append
      (show ((ofBytes (c :: u)).advance 1).unread = putPN (sizeT p) ++ w from hu)]
  have hmax : ¬ sizeT p > maxPacketSize := by
    rw [gt_iff_lt, BitVec.lt_def, hsize]
    omega
  rw [readPacket, get8Nothrow_cons]
  simp only [hPN]
  rw [if_neg hmax, if_pos (by omega)]

lemma readPacket_cut {p u v : Bytes} (hp : p.length ≤ maxPacketSize.toNat)
    (h : packetFrame p = u ++ v) (hv : v ≠ []) : readPacket maxPacketSize u = none := by
  cases u with
  | nil => rfl
  | cons c u =>
    have htail : putPN (sizeT p) ++ p = u ++ v := (List.cons.inj h).2
    -- the buffer ends inside the payload, or inside the packed length
    rcases append_eq_append_iff.mp htail with ⟨w, hu, hpw⟩ | ⟨w, hPN, hvw⟩
    · have hpos := length_pos_of_ne_nil hv
      exact readPacket_cut_payload hp hu (by rw [hpw, length_append]; omega)
    · by_cases hw : w = []
      · subst hw
        have hpos := length_pos_of_ne_nil hv
        rw [nil_append] at hvw
        rw [append_nil] at hPN
        exact readPacket_cut_payload (w := []) hp (by rw [append_nil, hPN])
          (by rw [length_nil, ← hvw]; omega)
      · have hcut := getPNFrom_cut () (b := (ofBytes (c :: u)).advance 1) hPN hw
        rcases h' : getPNNothrow ((ofBytes (c :: u)).advance 1) with ⟨_ | len, b⟩
        · rw [readPacket, get8Nothrow_cons]
          simp only [h']
        · rw [show getPNFrom () 0#64 _ = _ from h'] at hcut
          cases hcut

lemma oscar_frames (maxPacketSize : BitVec 64) : Frames packetFrame (oscarFraming maxPacketSize)
      (fun p => p.length ≤ maxPacketSize.toNat) where
  next_nil := rfl
  next_frame {p rest} hp := by
    show readRound maxPacketSize (packetFrame p ++ rest) = _
    rw [readRound, readPacket_frame hp]
    rfl
  next_cut {p u v} hp h hv := by
    show readRound maxPacketSize u = _
    rw [readRound, readPacket_cut hp h hv]

/-! ### The input side of a socket -/

inductive StreamType where
  | accepted
  | connected
  | listening
  deriving DecidableEq, Repr

inductive PacketEvent where
  | onConnector (buf : Bytes)
  | onAcceptor (buf : Bytes)
  deriving DecidableEq, Repr

def packetEvent (streamType : StreamType) (req : Bytes) : PacketEvent :=
  if streamType = .connected then .onConnector req else .onAcceptor req

structure StreamState where
  inBuffer : Bytes
  passed : List PacketEvent
  closed : Bool
  deriving DecidableEq, Repr

def onStreamRead (maxPacketSize : BitVec 64) (streamType : StreamType) (s : StreamState) :
    StreamState :=
  let d := (oscarFraming maxPacketSize).drain s.inBuffer
  ⟨d.buffer, s.passed ++ d.items.map (packetEvent streamType), s.closed || d.bad⟩

def deliver (maxPacketSize : BitVec 64) (streamType : StreamType) (s : StreamState)
    (bytes : Bytes) : StreamState :=
  onStreamRead maxPacketSize streamType { s with inBuffer := s.inBuffer ++ bytes }

def freshStream : StreamState := ⟨[], [], false⟩

def StreamState.ofDrained (streamType : StreamType) (d : Drained Bytes Byte) : StreamState :=
  ⟨d.buffer, d.items.map (packetEvent streamType), d.bad⟩

lemma deliver_ofDrained (maxPacketSize : BitVec 64) (streamType : StreamType)
    (d : Drained Bytes Byte) (bytes : Bytes) :
    deliver maxPacketSize streamType (.ofDrained streamType d) bytes
      = .ofDrained streamType ((oscarFraming maxPacketSize).feed d bytes) := by
  simp [deliver, onStreamRead, StreamState.ofDrained, Framing.feed]

lemma foldl_deliver (maxPacketSize : BitVec 64) (streamType : StreamType)
    (deliveries : List Bytes) (d : Drained Bytes Byte) :
    deliveries.foldl (deliver maxPacketSize streamType) (.ofDrained streamType d)
      = .ofDrained streamType (deliveries.foldl (oscarFraming maxPacketSize).feed d) := by
  induction deliveries generalizing d with
  | nil => rfl
  | cons bytes deliveries ih => rw [foldl_cons, foldl_cons, deliver_ofDrained, ih]

lemma frames_eq_map {ps frames : List Bytes}
    (h : List.Forall₂ (fun p f => sendPacketPlain sbSinglePacket p = .ok f) ps frames) :
    frames = ps.map packetFrame := by
  induction h with
  | nil => rfl
  | cons hp _ ih =>
    rw [sendPacketPlain_eq, Except.ok.injEq] at hp
    rw [map_cons, ← hp, ih]

private lemma take_frames {ps frames done next : List Bytes} (hmap : frames = ps.map packetFrame)
    (hps : ps = done ++ next) : frames.take done.length = done.map packetFrame := by
  rw [hmap, hps, map_append, take_left' (length_map packetFrame)]

/-- **The packets sent are the packets received**, in any deliveries. -/
theorem onStreamRead_emits_packets (maxPacketSize : BitVec 64) (streamType : StreamType)
    (ps : List Bytes) (hsize : ∀ p ∈ ps, p.length ≤ maxPacketSize.toNat)
    (frames deliveries : List Bytes)
    (hframes : List.Forall₂ (fun p f => sendPacketPlain sbSinglePacket p = .ok f) ps frames)
    (hcut : deliveries.flatten = frames.flatten) :
    (deliveries.foldl (deliver maxPacketSize streamType) freshStream)
      = ⟨[], ps.map (packetEvent streamType), false⟩ ∧ ∀ k, ∃ done next,
      let s := (deliveries.take k).foldl (deliver maxPacketSize streamType) freshStream
      let arrived := (deliveries.take k).flatten
      ps = done ++ next ∧
      done = completed packetFrame ps arrived.length ∧
      s.passed = done.map (packetEvent streamType) ∧
      arrived = (frames.take done.length).flatten ++ s.inBuffer ∧
      Waiting packetFrame next s.inBuffer ∧
      s.closed = false := by
  have hmap : frames = ps.map packetFrame := frames_eq_map hframes
  have hflat : deliveries.flatten = ps.flatMap packetFrame := by
    rw [hcut, hmap, flatMap_def]
  have hF := oscar_frames maxPacketSize
  constructor
  · have hrec := feed_spec hF hsize deliveries (by rw [hflat])
    have hitems := hrec.items
    rw [hflat, completed_flatMap] at hitems
    have hsplit := hrec.split
    rw [hitems, hflat] at hsplit
    have hbuf := append_right_eq_self.mp hsplit.symm
    rw [show freshStream = .ofDrained streamType Framing.start from rfl, foldl_deliver,
      StreamState.ofDrained, hitems, hbuf, hrec.bad]
  · intro k
    have hpre : (deliveries.take k).flatten <+: ps.flatMap packetFrame := by
      rw [← hflat]
      exact (List.take_prefix k deliveries).flatten
    have hrec := feed_spec hF hsize (deliveries.take k) hpre
    obtain ⟨next, hps, hw⟩ := hrec.waiting
    rw [show freshStream = .ofDrained streamType Framing.start from rfl, foldl_deliver]
    refine ⟨_, next, hps, hrec.items, rfl, ?_, hw, hrec.bad⟩
    rw [take_frames hmap hps, ← flatMap_def]
    exact hrec.split

theorem onStreamRead_emits_packets_three :
    [[0x01#8, 0x02#8, 0x61#8], [0x62#8, 0x01#8], [0x00#8, 0x01#8, 0x01#8, 0x63#8]].foldl
        (deliver 16#64 .accepted) freshStream
      = ⟨[], [[0x61#8, 0x62#8], [], [0x63#8]].map (packetEvent .accepted), false⟩ :=
  (onStreamRead_emits_packets 16#64 .accepted [[0x61#8, 0x62#8], [], [0x63#8]] (by decide)
    [[0x01#8, 0x02#8, 0x61#8, 0x62#8], [0x01#8, 0x00#8], [0x01#8, 0x01#8, 0x63#8]]
    [[0x01#8, 0x02#8, 0x61#8], [0x62#8, 0x01#8], [0x00#8, 0x01#8, 0x01#8, 0x63#8]]
    (.cons rfl (.cons rfl (.cons rfl .nil))) rfl).1

end Megatron
