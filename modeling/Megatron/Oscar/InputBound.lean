import Megatron.Oscar.Service

/-!
How much a peer can make Oscar keep in the input buffer of a socket (`input_buffer_bounded`).
-/

namespace Megatron

open Library List Option

def header : Bytes → Option (Byte × BitVec 64 × ℕ)
  | [] => none
  | c :: cs =>
    match pnLoop 0#64 cs with
    | (some len, n) => some (c, len, 1 + n)
    | (none, _) => none

variable {u v w : Bytes} {c : Byte} {len maxPacketSize : BitVec 64} {size : ℕ}

lemma header_some (h : header u = some (c, len, size)) :
    0 < size ∧ size ≤ u.length ∧ ∀ w, header (u.take size ++ w) = some (c, len, size) := by
  cases u with
  | nil => cases h
  | cons c' cs =>
    rcases hloop : pnLoop 0#64 cs with ⟨_ | len', n⟩
    · simp [header, hloop] at h
    · simp only [header, hloop, Option.some.injEq, Prod.mk.injEq] at h
      obtain ⟨rfl, rfl, rfl⟩ := h
      obtain ⟨-, hle, hrest⟩ := pnLoop_some hloop
      refine ⟨by omega, by rw [length_cons]; omega, fun w => ?_⟩
      rw [Nat.add_comm 1 n, take_succ_cons, cons_append]
      simp only [header, hrest w, Nat.add_comm]

lemma header_append (h : header u = some (c, len, size)) (v : Bytes) :
    header (u ++ v) = some (c, len, size) := by
  obtain ⟨-, -, hrest⟩ := header_some h
  have hsplit : u ++ v = u.take size ++ (u.drop size ++ v) := by
    rw [← append_assoc, take_append_drop]
  rw [hsplit]
  exact hrest _

lemma header_of_append (h : header (u ++ v) = some (c, len, size)) (hle : size ≤ u.length) :
    header u = some (c, len, size) := by
  obtain ⟨-, -, hrest⟩ := header_some h
  have hu := hrest (u.drop size)
  rwa [take_append_of_le_length hle, take_append_drop] at hu

lemma header_eq_none (h : header u = none) :
    u = [] ∨ ∃ c cs, u = c :: cs ∧ ∀ x ∈ cs, ¬ x < 0x80#8 := by
  cases u with
  | nil => exact .inl rfl
  | cons c cs =>
    refine .inr ⟨c, cs, rfl, @high_of_pnLoop 0#64 cs ?_⟩
    rcases hloop : pnLoop 0#64 cs with ⟨_ | len, n⟩
    · rfl
    · simp [header, hloop] at h

lemma readPacket_eq (maxPacketSize : BitVec 64) (u : Bytes) :
    readPacket maxPacketSize u = (header u).bind fun x =>
      if x.2.1 > maxPacketSize ∨ u.length < x.2.2 + x.2.1.toNat then none
      else some (x.1, (u.drop x.2.2).take x.2.1.toNat, u.drop (x.2.2 + x.2.1.toNat)) := by
  cases u with
  | nil => rfl
  | cons c cs =>
    rw [readPacket, get8Nothrow_cons]
    rcases hloop : pnLoop 0#64 cs with ⟨_ | len, n⟩
    · have hPN : getPNNothrow ((InBuffer.ofBytes (c :: cs)).advance 1)
          = (.error (), ((InBuffer.ofBytes (c :: cs)).advance 1).advance n) := by
        rw [getPNNothrow, getPNFrom, unread_ofBytes_advance_one, hloop]
      simp only [hPN, header, hloop, bind_none]
    · have hPN : getPNNothrow ((InBuffer.ofBytes (c :: cs)).advance 1)
          = (.ok len, ((InBuffer.ofBytes (c :: cs)).advance 1).advance n) := by
        rw [getPNNothrow, getPNFrom, unread_ofBytes_advance_one, hloop]
      obtain ⟨-, hle, -⟩ := pnLoop_some hloop
      have hunread : (((InBuffer.ofBytes (c :: cs)).advance 1).advance n).unread = cs.drop n := by
        rw [Cursor.unread_advance, unread_ofBytes_advance_one]
      have hrem : remains (((InBuffer.ofBytes (c :: cs)).advance 1).advance n)
          = cs.length - n := by
        rw [remains, ← Cursor.length_unread, hunread, length_drop]
      have hlen : (c :: cs).length = cs.length + 1 := rfl
      simp only [hPN, header, hloop, bind_some]
      by_cases hmax : len > maxPacketSize
      · rw [if_pos hmax, if_pos (.inl hmax)]
      · by_cases hshort : cs.length - n < len.toNat
        · rw [if_neg hmax, if_pos (by omega), if_pos (.inr (by omega))]
        · rw [if_neg hmax, if_neg (by omega), if_neg (not_or.mpr ⟨hmax, by omega⟩), unpackNothrow,
            unpackOr, if_neg (by omega)]
          simp only [hunread, Cursor.unread_advance, drop_drop, Option.some.injEq,
            Prod.mk.injEq, true_and]
          exact ⟨by rw [Nat.add_comm 1 n]; rfl, by
            rw [show 1 + n + len.toNat = n + len.toNat + 1 by omega]; rfl⟩

lemma header_of_readPacket {req rest : Bytes}
    (h : readPacket maxPacketSize u = some (c, req, rest)) : ∃ len size, header u =
    some (c, len, size) ∧ size + len.toNat ≤ u.length ∧ rest = u.drop (size + len.toNat) := by
  rw [readPacket_eq] at h
  obtain ⟨⟨c', len, size⟩, hhead, h⟩ := bind_eq_some_iff.mp h
  simp only at h
  split_ifs at h with hcond
  obtain ⟨-, hlen⟩ := not_or.mp hcond
  obtain ⟨rfl, -, rfl⟩ : c' = c ∧ _ ∧ _ := by simpa only [Option.some.injEq, Prod.mk.injEq] using h
  exact ⟨len, size, hhead, not_lt.mp hlen, rfl⟩

lemma cut_of_readPacket (h : readPacket maxPacketSize u = none)
    (hhead : header u = some (c, len, size)) (hlen : len ≤ maxPacketSize) :
    u.length < size + len.toNat := by
  rw [readPacket_eq, hhead, bind_some] at h
  simp only at h
  split_ifs at h with hcond
  exact hcond.resolve_left (BitVec.not_lt.mpr hlen)

/-- `on_StreamRead`, for at most as many rounds, when `passEvent` throws where `throws` holds. -/
def readLoop (maxPacketSize : BitVec 64) (streamType : StreamType) (throws : ℕ → Bool) :
    ℕ → StreamState → StreamState
  | 0, s => s
  | n + 1, s =>
    match readPacket maxPacketSize s.inBuffer with
    | none => s
    | some (startByte, req, rest) =>
      if startByte = sbSinglePacket then
        let s' : StreamState :=
          { s with inBuffer := rest, passed := s.passed ++ [packetEvent streamType req] }
        if throws s.passed.length then { s' with closed := true }
        else readLoop maxPacketSize streamType throws n s'
      else { s with inBuffer := rest, closed := true }

def receive (maxPacketSize : BitVec 64) (streamType : StreamType) (throws : ℕ → Bool)
    (s : StreamState) (bytes : Bytes) : StreamState :=
  if s.closed then s
  else
    let b := s.inBuffer ++ bytes
    readLoop maxPacketSize streamType throws (b.length + 1) { s with inBuffer := b }

lemma readLoop_eq (maxPacketSize : BitVec 64) (streamType : StreamType) (n : ℕ) (s : StreamState)
    (hn : s.inBuffer.length < n) (hopen : s.closed = false) :
    readLoop maxPacketSize streamType (fun _ => false) n s
      = onStreamRead maxPacketSize streamType s := by
  induction n generalizing s with
  | zero => omega
  | succ n ih =>
    rw [readLoop, onStreamRead]
    rcases hp : readPacket maxPacketSize s.inBuffer with _ | ⟨startByte, req, rest⟩
    · have hmore : (oscarFraming maxPacketSize).next s.inBuffer = .more := by
        show readRound maxPacketSize s.inBuffer = _
        rw [readRound, hp]
      simp [Framing.drain_of_more _ hmore]
    · obtain ⟨cs, k, hcs, hrest⟩ := readPacket_some hp
      by_cases hsb : startByte = sbSinglePacket
      · have hitem : (oscarFraming maxPacketSize).next s.inBuffer = .item req rest := by
          show readRound maxPacketSize s.inBuffer = _
          rw [readRound, hp]
          simp only [if_pos hsb]
        have hshort : rest.length < n := by
          rw [hcs, length_cons] at hn
          rw [hrest, length_drop]
          omega
        simp only [if_pos hsb, Bool.false_eq_true, if_false]
        rw [ih ⟨rest, s.passed ++ [packetEvent streamType req], s.closed⟩ hshort hopen,
          Framing.drain_of_item _ hitem]
        simp [onStreamRead]
      · have hbad : (oscarFraming maxPacketSize).next s.inBuffer = .bad rest := by
          show readRound maxPacketSize s.inBuffer = _
          rw [readRound, hp]
          simp only [if_neg hsb]
        simp [if_neg hsb, Framing.drain_of_bad _ hbad]

/-! ### Streams with bounded declarations -/

def headerSize : ℕ := 11

def readBufSize : ℕ := 64 * 128

inductive AtPacket (u : Bytes) : Bytes → Prop
  | start : AtPacket u u
  | packet {v : Bytes} {len : BitVec 64} {size : ℕ} (h : AtPacket u v)
      (hv : header v = some (sbSinglePacket, len, size)) (hlen : size + len.toNat ≤ v.length) :
      AtPacket u (v.drop (size + len.toNat))

/-- Every header declares a packet of bounded size. -/
def Declared (maxPacketSize : BitVec 64) (u : Bytes) : Prop :=
  ∀ v, AtPacket u v → (header v = none → v.length ≤ headerSize) ∧
      ∀ c len size, header v = some (c, len, size) → size ≤ headerSize ∧ len ≤ maxPacketSize

/-- A packet that is not complete. -/
def Pending (maxPacketSize : BitVec 64) (b : Bytes) : Prop :=
  ∃ f c len size, b <+: f ∧ b ≠ f ∧ header f = some (c, len, size) ∧
    f.length = size + len.toNat ∧ (header b = none ∨ len ≤ maxPacketSize)

variable {b future : Bytes} {s : StreamState} (streamType : StreamType) (throws : ℕ → Bool)

lemma readLoop_atPacket (maxPacketSize : BitVec 64) (streamType : StreamType) (throws : ℕ → Bool)
    (n : ℕ) (s : StreamState) (hn : s.inBuffer.length < n)
    (h : AtPacket u (s.inBuffer ++ future)) : let s' := readLoop maxPacketSize streamType throws n s
    s'.closed = true ∨
      AtPacket u (s'.inBuffer ++ future) ∧ readPacket maxPacketSize s'.inBuffer = none := by
  induction n generalizing s with
  | zero => omega
  | succ n ih =>
    intro s'
    simp only [s', readLoop]
    rcases hp : readPacket maxPacketSize s.inBuffer with _ | ⟨startByte, req, rest⟩
    · exact .inr ⟨h, hp⟩
    · obtain ⟨len, size, hhead, hlen, rfl⟩ := header_of_readPacket hp
      simp only
      by_cases hsb : startByte = sbSinglePacket
      · subst hsb
        obtain ⟨hpos, -, -⟩ := header_some hhead
        simp only [if_true]
        by_cases hthrow : throws s.passed.length = true
        · rw [if_pos hthrow]
          exact .inl rfl
        · rw [if_neg hthrow]
          have hnext := h.packet (header_append hhead future)
            (by rw [length_append]; omega)
          rw [drop_append_of_le_length hlen] at hnext
          refine ih _ ?_ hnext
          simp only [length_drop]
          omega
      · rw [if_neg hsb]
        exact .inl rfl

lemma foldl_receive_atPacket (maxPacketSize : BitVec 64) (streamType : StreamType)
    (throws : ℕ → Bool) (reads : List Bytes) (future : Bytes) (s : StreamState)
    (h : s.closed = true ∨ AtPacket u (s.inBuffer ++ (reads.flatten ++ future)) ∧
        readPacket maxPacketSize s.inBuffer = none) :
    let s' := reads.foldl (receive maxPacketSize streamType throws) s
    s'.closed = true ∨
      AtPacket u (s'.inBuffer ++ future) ∧ readPacket maxPacketSize s'.inBuffer = none := by
  induction reads generalizing s with
  | nil => simpa using h
  | cons bytes reads ih =>
    intro s'
    simp only [s', foldl_cons]
    refine ih _ ?_
    rw [receive]
    split_ifs with hclosed
    · exact .inl hclosed
    · obtain ⟨hat, -⟩ := h.resolve_left hclosed
      refine readLoop_atPacket maxPacketSize streamType throws _ _ (Nat.lt_succ_self _) ?_
      rw [flatten_cons, append_assoc] at hat
      rwa [append_assoc]

/-! ### Buffers that wait -/

lemma exists_pnLoop_append (NN : BitVec 64) {cs : Bytes} (h : ∀ x ∈ cs, ¬ x < 0x80#8) :
    ∃ len, pnLoop NN (cs ++ [0#8]) = (some len, cs.length + 1) := by
  induction cs generalizing NN with
  | nil => exact ⟨_, rfl⟩
  | cons x cs ih =>
    obtain ⟨hx, hcs⟩ := forall_mem_cons.mp h
    obtain ⟨len, hlen⟩ := ih (NN <<< 7 ||| (x &&& 0x7F#8).setWidth 64) hcs
    refine ⟨len, ?_⟩
    rw [cons_append, pnLoop, if_neg hx, hlen]
    rfl

lemma pending_of_header_none (h : header b = none) : Pending maxPacketSize b := by
  rcases header_eq_none h with rfl | ⟨c, cs, rfl, hcs⟩
  · exact ⟨[1#8, 0#8], 1#8, 0#64, 2, nil_prefix, by simp, rfl, rfl, .inl rfl⟩
  · obtain ⟨len, hlen⟩ := exists_pnLoop_append 0#64 hcs
    have hhead : header (c :: (cs ++ [0#8])) = some (c, len, 1 + (cs.length + 1)) := by
      simp only [header, hlen]
    refine ⟨c :: (cs ++ [0#8]) ++ List.replicate len.toNat 0#8, c, len, _, ?_, ?_,
      header_append hhead _, ?_, .inl h⟩
    · exact ⟨[0#8] ++ List.replicate len.toNat 0#8, by simp⟩
    · intro heq
      have hl := congrArg List.length heq
      simp only [length_cons, length_append, length_nil] at hl
      omega
    · simp only [length_cons, length_append, length_nil, length_replicate]
      omega

lemma pending_of_header (h : header b = some (c, len, size)) (hlen : len ≤ maxPacketSize)
    (hb : b.length < size + len.toNat) : Pending maxPacketSize b := by
  refine ⟨b ++ List.replicate (size + len.toNat - b.length) 0#8, c, len, size,
    prefix_append _ _, ?_, header_append h _, ?_, .inr hlen⟩
  · intro heq
    have hl := congrArg List.length heq
    simp only [length_append, length_replicate] at hl
    omega
  · simp only [length_append, length_replicate]
    omega

lemma pending_of_declared (hdecl : Declared maxPacketSize u)
    (hat : AtPacket u (b ++ future)) (hread : readPacket maxPacketSize b = none) :
    Pending maxPacketSize b ∧ b.length ≤ maxPacketSize.toNat + headerSize := by
  obtain ⟨hnone, hsome⟩ := hdecl _ hat
  rcases hb : header b with _ | ⟨c, len, size⟩
  · refine ⟨pending_of_header_none hb, ?_⟩
    rcases hbf : header (b ++ future) with _ | ⟨c, len, size⟩
    · have hle := hnone hbf
      rw [length_append] at hle
      omega
    · -- the header of the stream is longer than the buffer
      obtain ⟨hsize, -⟩ := hsome c len size hbf
      by_contra hlong
      rw [header_of_append hbf (by omega)] at hb
      cases hb
  · obtain ⟨hsize, hlen⟩ := hsome c len size (header_append hb future)
    have hcut := cut_of_readPacket hread hb hlen
    have hle : len.toNat ≤ maxPacketSize.toNat := hlen
    exact ⟨pending_of_header hb hlen hcut, by omega⟩

/-- **The input buffer is bounded** if no header declares more than `maxPacketSize` bytes. -/
theorem input_buffer_bounded (maxPacketSize : BitVec 64) (streamType : StreamType)
    (throws : ℕ → Bool) (reads : List Bytes) (hdecl : Declared maxPacketSize reads.flatten)
    (k : ℕ) :
    let s := (reads.take k).foldl (receive maxPacketSize streamType throws) freshStream
    s.closed = true ∨
      Pending maxPacketSize s.inBuffer ∧ s.inBuffer.length ≤ maxPacketSize.toNat + headerSize ∧
        ∀ bytes : Bytes, bytes.length ≤ readBufSize →
          (s.inBuffer ++ bytes).length ≤ maxPacketSize.toNat + headerSize + readBufSize := by
  intro s
  have hflat : (reads.take k).flatten ++ (reads.drop k).flatten = reads.flatten := by
    rw [← flatten_append, take_append_drop]
  have hstart : AtPacket reads.flatten
      (freshStream.inBuffer ++ ((reads.take k).flatten ++ (reads.drop k).flatten)) := by
    rw [hflat]
    exact .start
  rcases foldl_receive_atPacket maxPacketSize streamType throws (reads.take k)
    (reads.drop k).flatten freshStream (.inr ⟨hstart, rfl⟩) with hclosed | ⟨hat, hread⟩
  · exact .inl hclosed
  · obtain ⟨hpending, hle⟩ := pending_of_declared hdecl hat hread
    refine .inr ⟨hpending, hle, fun bytes hbytes => ?_⟩
    calc (s.inBuffer ++ bytes).length = s.inBuffer.length + bytes.length := length_append
      _ ≤ maxPacketSize.toNat + headerSize + readBufSize := Nat.add_le_add hle hbytes

theorem input_buffer_bounded_onePacket : Declared 16#64 [[1#8, 2#8], [0x61#8]].flatten ∧
      let s := [[1#8, 2#8], [0x61#8]].foldl (receive 16#64 .accepted fun _ => false) freshStream
      s.closed = true ∨ Pending 16#64 s.inBuffer := by
  have hhead : header [1#8, 2#8, 0x61#8] = some (1#8, 2#64, 2) := rfl
  have hdecl : Declared 16#64 [[1#8, 2#8], [0x61#8]].flatten := by
    intro v hv
    obtain rfl : v = [1#8, 2#8, 0x61#8] := by
      induction hv with
      | start => rfl
      | packet _ hv hlen ih =>
        rw [ih, hhead] at hv
        cases hv
        exact absurd hlen (by rw [ih]; decide)
    refine ⟨nofun, fun c len size h => ?_⟩
    rw [hhead] at h
    cases h
    exact ⟨by decide, by decide⟩
  refine ⟨hdecl, ?_⟩
  rcases input_buffer_bounded 16#64 .accepted (fun _ => false) _ hdecl 2 with h | h
  · exact .inl h
  · exact .inr h.1

/-! ### Longer declarations -/

lemma receive_oversized (hopen : s.closed = false) (hhead : header s.inBuffer = some (c, len, size))
    (hlen : len > maxPacketSize) (bytes : Bytes) :
    receive maxPacketSize streamType throws s bytes =
      { s with inBuffer := s.inBuffer ++ bytes } := by
  have hread : readPacket maxPacketSize (s.inBuffer ++ bytes) = none := by
    rw [readPacket_eq, header_append hhead, bind_some, if_pos (.inl hlen)]
  simp only [receive, hopen, Bool.false_eq_true, if_false, readLoop, hread]

lemma foldl_receive_oversized
    (hopen : s.closed = false) (hhead : header s.inBuffer = some (c, len, size))
    (hlen : len > maxPacketSize) (reads : List Bytes) :
    reads.foldl (receive maxPacketSize streamType throws) s
      = { s with inBuffer := s.inBuffer ++ reads.flatten } := by
  induction reads generalizing s with
  | nil => simp
  | cons bytes reads ih =>
    rw [foldl_cons, receive_oversized streamType throws hopen hhead hlen,
      ih (s := { s with inBuffer := s.inBuffer ++ bytes }) hopen (header_append hhead bytes),
      flatten_cons]
    simp only [append_assoc]

/-- **A header that declares one byte too many.** -/
theorem oversized_declaration_kept :
    let reads := [1#8, 17#8] :: List.replicate 2 (List.replicate readBufSize 0#8)
    let s := reads.foldl (receive 16#64 .accepted fun _ => false) freshStream
    (∀ r ∈ reads, r.length ≤ readBufSize) ∧ s.closed = false ∧ ¬ Pending 16#64 s.inBuffer ∧
      16 + headerSize + readBufSize < s.inBuffer.length := by
  intro reads s
  have hs : s = ⟨[1#8, 17#8] ++ (List.replicate 2 (List.replicate readBufSize 0#8)).flatten, [],
      false⟩ := by
    simp only [s, reads, foldl_cons]
    exact foldl_receive_oversized (c := 1#8) .accepted _ rfl rfl (by decide) _
  refine ⟨?_, by rw [hs], ?_, ?_⟩
  · intro r hr
    rcases mem_cons.mp hr with rfl | hr
    · decide
    · rw [eq_of_mem_replicate hr, length_replicate]
  · rintro ⟨f, c, len, size, ⟨w, rfl⟩, -, hhead, -, hdecl⟩
    rw [hs] at hhead hdecl
    have hb : header ([1#8, 17#8] ++ (List.replicate 2 (List.replicate readBufSize 0#8)).flatten)
        = some (1#8, 17#64, 2) := rfl
    rw [header_append hb] at hhead
    cases hhead
    rcases hdecl with hnone | hle
    · rw [hb] at hnone
      cases hnone
    · exact absurd hle (by decide)
  · rw [hs]
    simp only [length_append, length_flatten, map_replicate, length_replicate,
      sum_replicate, length_cons, length_nil, headerSize, readBufSize]
    norm_num

end Megatron
