import Megatron.Corelib.IoBuffer
import Megatron.Library.HttpSyntax

/-!
The answer of the server to a WebSocket upgrade (`calc_key_answer` of
`modules/http/httpService.cpp` and `base64_encode` of `modules/http/base64.hpp`).
-/

namespace Megatron.Http

open Library.Http List

def base64Chars : Bytes := ascii "ABCDEFGHIJKLMNOPQRSTUVWXYZabcdefghijklmnopqrstuvwxyz0123456789+/"

/-- `base64_chars[i]`. -/
def base64Char (i : BitVec 8) : BitVec 8 := base64Chars.getD i.toNat 0#8

/-- `base64_encode`: groups of three bytes, padded with `=`. -/
def base64Encode : Bytes → Bytes
  | a :: b :: c :: rest =>
    [base64Char ((a &&& 0xfc#8) >>> 2),
      base64Char (((a &&& 0x03#8) <<< 4) + ((b &&& 0xf0#8) >>> 4)),
      base64Char (((b &&& 0x0f#8) <<< 2) + ((c &&& 0xc0#8) >>> 6)),
      base64Char (c &&& 0x3f#8)] ++ base64Encode rest
  | [a, b] =>
    [base64Char ((a &&& 0xfc#8) >>> 2),
      base64Char (((a &&& 0x03#8) <<< 4) + ((b &&& 0xf0#8) >>> 4)),
      base64Char ((b &&& 0x0f#8) <<< 2)] ++ ascii "="
  | [a] => [base64Char ((a &&& 0xfc#8) >>> 2), base64Char ((a &&& 0x03#8) <<< 4)] ++ ascii "=="
  | [] => []

section

-- The SHA-1 digest of a text.
variable (sha1 : Bytes → Bytes)

def calcKeyAnswer (key : Bytes) : Bytes :=
  base64Encode (sha1 (key ++ ascii "258EAFA5-E914-47DA-95CA-C5AB0DC85B11"))

def switchingHead (key : Bytes) : Bytes :=
  ascii "HTTP/1.1 101 Switching Protocols\r\nUpgrade: websocket\r\nConnection: Upgrade\r\n" ++
    (ascii "Sec-WebSocket-Accept: " ++ calcKeyAnswer sha1 key)

def switchingProtocols (key : Bytes) : Bytes := switchingHead sha1 key ++ crlf ++ crlf

end

private lemma base64Char_mem (i : BitVec 8) : base64Char i = 0#8 ∨ base64Char i ∈ base64Chars := by
  rw [base64Char, getD_eq_getElem?_getD]
  cases h : base64Chars[i.toNat]? with
  | none => exact .inl rfl
  | some c => exact .inr (mem_of_getElem? h)

lemma base64Char_ne (i : BitVec 8) : base64Char i ≠ 13#8 := by
  have hchars : 13#8 ∉ base64Chars := by decide +kernel
  intro hi
  rcases base64Char_mem i with h | h
  · rw [hi] at h
    exact absurd h (by decide)
  · exact hchars (hi ▸ h)

lemma mem_base64Encode {b : Bytes} {c : BitVec 8} (h : c ∈ base64Encode b) : c ≠ 13#8 := by
  have heq : ∀ c ∈ ascii "==", c ≠ 13#8 := by decide
  induction b using base64Encode.induct with
  | case1 a b d rest ih =>
    rw [base64Encode, mem_append] at h
    rcases h with h | h
    · simp only [mem_cons, not_mem_nil, or_false] at h
      rcases h with rfl | rfl | rfl | rfl <;> exact base64Char_ne _
    · exact ih h
  | case2 a b =>
    rw [base64Encode, mem_append] at h
    rcases h with h | h
    · simp only [mem_cons, not_mem_nil, or_false] at h
      rcases h with rfl | rfl | rfl <;> exact base64Char_ne _
    · exact heq c (mem_of_mem_tail h)
  | case3 a =>
    rw [base64Encode, mem_append] at h
    rcases h with h | h
    · simp only [mem_cons, not_mem_nil, or_false] at h
      rcases h with rfl | rfl <;> exact base64Char_ne _
    · exact heq c h
  | case4 => cases h

end Megatron.Http
