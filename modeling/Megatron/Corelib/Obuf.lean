import Megatron.Corelib.IoBuffer

/-!
The fixed-size output buffer `oBuf` of `corelib/obuf`. Every write first
compares `cur_pos` with `bufsize` and throws `std::bad_alloc` if the bytes do
not fit.
-/

namespace Megatron

open List

/-- The class `oBuf`: the size of the buffer and the bytes written so far. -/
structure OBuf where
  bufsize : ℕ
  data : Bytes
  deriving DecidableEq, Repr

namespace OBuf

/-- The constructor `oBuf(char *b, size_t sz)`. -/
def ofSize (sz : ℕ) : OBuf := ⟨sz, []⟩

def pack (o : OBuf) (s : Bytes) : Except Exn OBuf :=
  if o.data.length + s.length > o.bufsize then .error .badAlloc
  else .ok { o with data := o.data ++ s }

/-- `oBuf::put_8` and `oBuf::put_8$`. -/
def put8 (o : OBuf) (c : Byte) : Except Exn OBuf := o.pack [c]

def putPN (o : OBuf) (N : BitVec 64) : Except Exn OBuf := (Megatron.putPN N).foldlM put8 o

/-- The operator `<<` for `REF_getter<refbuffer>`. -/
def putRef (o : OBuf) : Option Bytes → Except Exn OBuf
  | some s => do
      let o ← o.putPN (sizeT s)
      o.pack s
  | none => o.putPN 0#64

lemma pack_eq {o : OBuf} {s : Bytes} (h : o.data.length + s.length ≤ o.bufsize) :
    o.pack s = .ok ⟨o.bufsize, o.data ++ s⟩ := by
  rw [pack, if_neg (by omega)]

lemma foldlM_put8 {s : Bytes} {o : OBuf} (h : o.data.length + s.length ≤ o.bufsize) :
    s.foldlM put8 o = (.ok ⟨o.bufsize, o.data ++ s⟩ : Except Exn OBuf) := by
  induction s generalizing o with
  | nil => simp [pure, Except.pure]
  | cons c s ih =>
    rw [length_cons] at h
    have hc : o.put8 c = .ok ⟨o.bufsize, o.data ++ [c]⟩ := pack_eq (by rw [length_singleton]; omega)
    have hs := ih (o := ⟨o.bufsize, o.data ++ [c]⟩)
      (by simp only [length_append, length_singleton]; omega)
    rw [foldlM_cons, hc]
    show s.foldlM put8 ⟨o.bufsize, o.data ++ [c]⟩ = _
    rw [hs, append_assoc, singleton_append]

lemma putRef_eq {o : OBuf} {s : Bytes} (h : o.data.length + 10 + s.length ≤ o.bufsize) :
    o.putRef (some s) = .ok ⟨o.bufsize, o.data ++ Megatron.putPN (sizeT s) ++ s⟩ := by
  have hlen := length_putPN_le (sizeT s)
  have hPN : o.putPN (sizeT s) = .ok ⟨o.bufsize, o.data ++ Megatron.putPN (sizeT s)⟩ :=
    foldlM_put8 (by omega)
  rw [putRef, hPN]
  exact pack_eq (by simp only [length_append]; omega)

end OBuf

end Megatron
