import Megatron.Utils.UrlDecoding

/-!
`CUtils::uriEncode` (`main/CUtils.cpp`), and what the two decoders make of its texts.
-/

namespace Megatron.Utils

open Library List

/-- What is added to a digit of `char2hex`. -/
def hexDig (dig : Byte) : Byte :=
  let dig := if 0 ≤ dig.toInt ∧ dig.toInt ≤ 9 then dig + 48#8 else dig
  if 10 ≤ dig.toInt ∧ dig.toInt ≤ 15 then dig + 87#8 else dig

def char2hex (dec : Byte) : Bytes := [hexDig ((dec &&& 0xf0#8) >>> 4), hexDig (dec &&& 0x0f#8)]

/-- The characters that are not escaped; a `char` is signed. -/
def keeps (c : Byte) : Bool :=
  (48 ≤ c.toInt && c.toInt ≤ 57) || (65 ≤ c.toInt && c.toInt ≤ 90) ||
    (97 ≤ c.toInt && c.toInt ≤ 122) ||
    (c = 126#8 || c = 33#8 || c = 42#8 || c = 40#8 || c = 41#8 || c = 39#8)

def encodeChar (c : Byte) : Bytes := if keeps c then [c] else 37#8 :: char2hex c

def intLength (c : Bytes) : ℤ := (BitVec.ofNat 32 c.length).toInt

/-- `uriEncode`: the loop runs over the characters before `max`. -/
def uriEncode (c : Bytes) : Bytes := (c.take (intLength c).toNat).flatMap encodeChar

lemma intLength_of_lt {c : Bytes} (h : c.length < 2 ^ 31) : intLength c = c.length := by
  rw [intLength, BitVec.toInt_eq_toNat_bmod, BitVec.toNat_ofNat, Nat.mod_eq_of_lt (by omega),
    Int.bmod_eq_of_le (by omega) (by omega)]

lemma intLength_lt {c : Bytes} (h : 2 ^ 31 ≤ c.length) : intLength c < c.length := by
  have hlt := BitVec.toInt_lt (x := BitVec.ofNat 32 c.length)
  rw [intLength]
  omega

/-! ### The pieces of an encoded text -/

def encodePiece (c : Byte) : Piece :=
  if keeps c then .plain c
  else .escape (hexDig ((c &&& 0xf0#8) >>> 4)) (hexDig (c &&& 0x0f#8))

lemma piece_ok : ∀ c : Byte, (encodePiece c).decoded id = [c] ∧
    (encodePiece c).decoded plusBlank = [c] ∧ (encodePiece c).written = [c] := by
  decide +kernel

lemma encodePiece_inTable (c : Byte) : (encodePiece c).InTable := by
  have htable : ∀ c : Byte, (hexDig ((c &&& 0xf0#8) >>> 4)).toNat < 128 ∧
      (hexDig (c &&& 0x0f#8)).toNat < 128 := by decide +kernel
  rw [encodePiece]
  split_ifs with hkeep
  · trivial
  · exact htable c

lemma encodePiece_hasByte (c : Byte) : (encodePiece c).HasByte := by
  rw [← length_decoded_eq_one id, (piece_ok c).1]
  rfl

lemma keeps_ne {c : Byte} (h : keeps c = true) : c ≠ 37#8 := by
  rintro rfl
  exact absurd h (by decide)

lemma pieces_encoded (l : Bytes) : pieces (l.flatMap encodeChar) = l.map encodePiece := by
  induction l with
  | nil => rfl
  | cons c l ih =>
    rw [flatMap_cons, encodeChar, map_cons, encodePiece]
    split_ifs with hkeep
    · rw [singleton_append, pieces_plain (keeps_ne hkeep), ih]
    · rw [char2hex, cons_append, cons_append, singleton_append, pieces_escape, ih]

lemma cut_not_mem_encoded (l rest : Bytes) : .cut rest ∉ pieces (l.flatMap encodeChar) := by
  rw [pieces_encoded, mem_map]
  rintro ⟨c, -, hc⟩
  rw [encodePiece] at hc
  split_ifs at hc

lemma flatMap_pieces {f : Piece → Bytes} (hf : ∀ c, f (encodePiece c) = [c]) (l : Bytes) :
    (pieces (l.flatMap encodeChar)).flatMap f = l := by
  rw [pieces_encoded, flatMap_map]
  simp [hf]

lemma length_encoded (l : Bytes) :
    (l.flatMap encodeChar).length = l.length + 2 * l.countP (fun c => !keeps c) := by
  induction l with
  | nil => rfl
  | cons c l ih =>
    rw [flatMap_cons, length_append, ih, countP_cons, encodeChar, length_cons]
    cases keeps c with
    | true => simp; omega
    | false => simp [char2hex]; omega

/-! ### The decoders on an encoded text -/

lemma uriDecode_encoded (sscanf : Sscanf) (l : Bytes) :
    uriDecode sscanf (l.flatMap encodeChar) = .ok l := by
  have hbytes : ∀ p ∈ pieces (l.flatMap encodeChar), p.HasByte := by
    rw [pieces_encoded, forall_mem_map]
    exact fun c _ => encodePiece_hasByte c
  rw [(uriDecode_eq_iff sscanf _).mpr hbytes, decoded_eq, flatMap_pieces fun c => (piece_ok c).1]

lemma unescapeURL_encoded (l out : Bytes) :
    (∃ n, unescapeURL n (l.flatMap encodeChar) = some (.ok out)) ↔
      (l.flatMap encodeChar).length < 2 ^ 32 ∧ out = l := by
  rcases Nat.lt_or_ge (l.flatMap encodeChar).length (2 ^ 32) with hlt | hge
  · have hreturns : Returns (unescapeStep (l.flatMap encodeChar)) (0, []) (.ok out) ↔ _ :=
      returns_iff hlt drop_zero fun _ rest => cut_not_mem_encoded l rest
    have htable : ∀ p ∈ pieces (l.flatMap encodeChar), p.InTable := by
      rw [pieces_encoded, forall_mem_map]
      exact fun c _ => encodePiece_inTable c
    rw [and_iff_right htable, flatMap_pieces (fun c => (piece_ok c).2.2), nil_append]
      at hreturns
    rw [and_iff_right hlt]
    exact hreturns
  · exact iff_of_false (never_returns hge (by decide)) fun h => absurd h.1 (by omega)

lemma percent_encoded {l pre post : Bytes} (h : l.flatMap encodeChar = pre ++ 37#8 :: post) :
    ∃ c rest, keeps c = false ∧ post = char2hex c ++ rest := by
  have hdigits : ∀ c : Byte, 37#8 ∉ char2hex c := by decide +kernel
  induction l generalizing pre with
  | nil => simp at h
  | cons c l ih =>
    rw [flatMap_cons] at h
    rcases append_eq_append_iff.mp h with ⟨between, -, hrest⟩ | ⟨between, hhead, hpost⟩
    · exact ih hrest
    · cases between with
      | nil => exact @ih [] hpost.symm
      | cons b between =>
        rw [cons_append, List.cons.injEq] at hpost
        obtain ⟨rfl, rfl⟩ := hpost
        rw [encodeChar] at hhead
        split_ifs at hhead with hkeep
        · have hmem : 37#8 ∈ [c] := by rw [hhead]; simp
          exact absurd (mem_singleton.mp hmem).symm (keeps_ne hkeep)
        · cases pre with
          | nil =>
            rw [nil_append, List.cons.injEq] at hhead
            exact ⟨c, _, Bool.eq_false_iff.mpr hkeep, by rw [hhead.2]⟩
          | cons b pre =>
            rw [cons_append, List.cons.injEq] at hhead
            exact absurd (by rw [hhead.2]; simp) (hdigits c)

lemma keeps_of_mem_encoded {l : Bytes} {c : Byte} (h : c ∈ l.flatMap encodeChar) (hc : c ≠ 37#8) :
    keeps c = true := by
  have hdigits : ∀ b : Byte, (char2hex b).all keeps = true := by decide +kernel
  obtain ⟨b, -, hb⟩ := mem_flatMap.mp h
  rw [encodeChar] at hb
  split_ifs at hb with hkeep
  · rwa [mem_singleton.mp hb]
  · rcases mem_cons.mp hb with rfl | hb
    · exact absurd rfl hc
    · exact all_eq_true.mp (hdigits b) c hb

def SameByte (sscanf : Sscanf) (text : Bytes) (b : Byte) : Prop :=
  uriDecode sscanf text = .ok [b] ∧ ∃ n, unescapeURL n text = some (.ok [b])

lemma sameByte_encodeChar (sscanf : Sscanf) (c : Byte) : SameByte sscanf (encodeChar c) c := by
  have hsingle : encodeChar c = [c].flatMap encodeChar := (flatMap_singleton _ _).symm
  have hshort : (encodeChar c).length ≤ 3 := by
    rw [encodeChar]
    split_ifs <;> simp [char2hex]
  rw [SameByte, hsingle]
  refine ⟨uriDecode_encoded sscanf [c], (unescapeURL_encoded [c] [c]).mpr ⟨?_, rfl⟩⟩
  rw [← hsingle]
  omega

/-- **Encoding and decoding.** Strings of less than `2 ^ 31` bytes come back. -/
theorem uriEncode_round_trip (sscanf : Sscanf) (s : Bytes) :
    (uriDecode sscanf (uriEncode s) = .ok s ↔ s.length < 2 ^ 31) ∧
      ((∃ n, unescapeURL n (uriEncode s) = some (.ok s)) ↔
        s.length < 2 ^ 31 ∧ s.length + 2 * s.countP (fun c => !keeps c) < 2 ^ 32) ∧
      (∀ c ∈ uriEncode s, c ≠ 37#8 → SameByte sscanf [c] c) ∧
      ∀ pre post, uriEncode s = pre ++ 37#8 :: post →
        ∃ x y rest b, post = x :: y :: rest ∧ SameByte sscanf [37#8, x, y] b := by
  have hwhole : s.take (intLength s).toNat = s ↔ s.length < 2 ^ 31 := by
    rw [take_eq_self_iff]
    rcases Nat.lt_or_ge s.length (2 ^ 31) with hlt | hge
    · rw [intLength_of_lt hlt]
      simpa using hlt
    · have := intLength_lt hge
      omega
  refine ⟨?_, ?_, ?_, ?_⟩
  · rw [uriEncode, uriDecode_encoded, Except.ok.injEq, hwhole]
  · rw [uriEncode, unescapeURL_encoded, eq_comm, hwhole, and_comm]
    refine and_congr_right fun hlt => ?_
    rw [hwhole.mpr hlt, length_encoded]
  · intro c hc hpercent
    have hkeep := keeps_of_mem_encoded hc hpercent
    have hsame := sameByte_encodeChar sscanf c
    rwa [encodeChar, if_pos hkeep] at hsame
  · intro pre post hpost
    obtain ⟨c, rest, hkeep, rfl⟩ := percent_encoded hpost
    refine ⟨_, _, rest, c, rfl, ?_⟩
    have hsame := sameByte_encodeChar sscanf c
    rwa [encodeChar, hkeep] at hsame

/-- **Two gibibytes are not encoded.** -/
theorem uriEncode_two_gib : uriEncode (List.replicate (2 ^ 31) 97#8) = [] ∧
      uriDecode .documented (uriEncode (List.replicate (2 ^ 31) 97#8)) = .ok [] ∧
      unescapeURL 1 (uriEncode (List.replicate (2 ^ 31) 97#8)) = some (.ok []) ∧
      List.replicate (2 ^ 31) 97#8 ≠ [] := by
  have hlen : (BitVec.ofNat 32 (2 ^ 31)).toInt.toNat = 0 := by decide
  have hnone : uriEncode (List.replicate (2 ^ 31) 97#8) = [] := by
    rw [uriEncode, intLength, length_replicate, hlen, take_zero, flatMap_nil]
  rw [hnone]
  refine ⟨rfl, by decide +kernel, rfl, ?_⟩
  rw [Ne, replicate_eq_nil_iff]
  decide

end Megatron.Utils
