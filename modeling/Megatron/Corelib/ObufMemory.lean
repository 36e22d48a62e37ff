import Megatron.Corelib.Obuf
import Megatron.Corelib.Msockaddr
import Megatron.Library.Programs
import Megatron.Library.Cells

/-!
The class `oBuf` of `corelib/obuf` with the array it writes to. A write that leaves the array is
undefined.
-/

namespace Megatron

open Library List Prog

abbrev ArraySize := {n : ℕ // n < 2 ^ 63}

/-- The class `oBuf`, with the cells of the array that `buffer` points to. -/
structure OBufMem where
  bufsize : ℕ
  bufsize_lt : bufsize < 2 ^ 63
  curPos : ℕ
  buffer : ℕ → Byte

/-- Methods of `oBuf`. -/
abbrev Storing := Prog OBufMem Exn

namespace OBufMem

def ofArray (sz : ArraySize) (b : ℕ → Byte) : OBufMem := ⟨sz.1, sz.2, 0, b⟩

/-- `if(cur_pos+n > bufsize) throw std::bad_alloc();`, in `size_t`. -/
def checkRoom (n : ℕ) : Storing Unit := do
  let s ← Prog.state
  if (s.curPos + n) % 2 ^ 64 > s.bufsize then Prog.fail .badAlloc else pure ()

/-- `memcpy(&buffer[cur_pos],…); cur_pos+=…;`. -/
def copyBytes (c : Bytes) : Storing Unit := do
  let s ← Prog.state
  Prog.require (s.curPos + c.length ≤ s.bufsize)
  Prog.modify fun s => { s with
    curPos := (s.curPos + c.length) % 2 ^ 64
    buffer := copyAt s.buffer s.curPos c }

/-- `oBuf::pack`, all three of them. -/
def pack (s : SizedBytes) : Storing Unit := do
  checkRoom s.1.length
  copyBytes s.1

def put8 (c : Byte) : Storing Unit := do
  checkRoom 1
  copyBytes [c]

/-- `oBuf::put_8$`. -/
def put8Dollar (c : Byte) : Storing Unit := do
  checkRoom 1
  copyBytes [c]

/-- The inner loop of `put_PN$`. -/
def putPNEmit (N : BitVec 64) : ℕ → Storing Unit
  | 0 => put8Dollar (pnGroup N 0)
  | g + 1 => do
      put8Dollar (pnGroup N (g + 1) ||| 0x80#8)
      putPNEmit N g

/-- The outer loop of `put_PN$`. -/
def putPNSkip (N : BitVec 64) : ℕ → Storing Unit
  | 0 => putPNEmit N 0
  | g + 1 => if pnGroup N (g + 1) ≠ 0#8 then putPNEmit N (g + 1) else putPNSkip N g

/-- `oBuf::put_PN$`; the loop starts at `i = 63`. -/
def putPNDollar (N : BitVec 64) : Storing Unit := putPNSkip N 9

def putPN (N : BitVec 64) : Storing Unit := putPNDollar N

/-- `oBuf::Pack$`: no comparison with `bufsize`. -/
def packDollar (s : SizedBytes) : Storing Unit := copyBytes s.1

def putPSTR (c : SizedBytes) : Storing Unit := do
  putPNDollar (sizeT c.1)
  packDollar c

/-- The operator `<<` for arithmetic types. -/
def putInt {w : ℕ} (signed : Bool) (v : BitVec w) : Storing Unit := putPN (toUint64 signed v)

/-- The operator `<<` for `bool`. -/
def putBool (c : Bool) : Storing Unit := putPN (if c then 1#64 else 0#64)

/-- A `refbuffer` whose contents are a `std::string`. -/
abbrev SizedRef := {s : Refbuffer // s.container.length < 2 ^ 63}

/-- The operator `<<` for `REF_getter<refbuffer>`. -/
def putRef : Option SizedRef → Storing Unit
  | some s => do
      putPN (sizeT s.1.container)
      pack ⟨s.1.container, s.2⟩
  | none => putPN 0#64

/-- The operators `<<` of the containers. -/
def putSeq {α : Type} (put : α → Storing Unit) (v : List α) : Storing Unit := do
  putInt false (BitVec.ofNat 32 v.length)
  Prog.each put v

def clear : Storing Unit := Prog.modify fun s => { s with curPos := 0 }

def asString (s : OBufMem) : Bytes := firstCells s.buffer s.curPos

/-! ### Blocks of bytes -/

inductive Part where
  | checked (c : SizedBytes)
  | unchecked (c : SizedBytes)

namespace Part

def bytes : Part → Bytes
  | .checked c => c.1
  | .unchecked c => c.1

def code : Part → Storing Unit
  | .checked c => pack c
  | .unchecked c => packDollar c

def byte (c : Byte) : Part := .checked ⟨[c], by norm_num⟩

end Part

def bytesOf (ps : List Part) : Bytes := ps.flatMap Part.bytes

def emit (ps : List Part) : Storing Unit := Prog.each Part.code ps

def pnParts (N : BitVec 64) : List Part := (Megatron.putPN N).map Part.byte

@[simp] lemma bytesOf_nil : bytesOf [] = [] := rfl

variable {α : Type} (p : Part) (N : BitVec 64) (c : SizedBytes) (s : Option SizedRef)
variable (ps : List Part) (g : ℕ)

@[simp] lemma bytesOf_cons : bytesOf (p :: ps) = p.bytes ++ bytesOf ps := flatMap_cons

@[simp] lemma bytesOf_append (qs : List Part) :
    bytesOf (ps ++ qs) = bytesOf ps ++ bytesOf qs := flatMap_append

@[simp] lemma bytesOf_map_byte (c : Bytes) : bytesOf (c.map Part.byte) = c := by
  induction c with
  | nil => rfl
  | cons b c ih => rw [map_cons, bytesOf_cons, ih]; rfl

lemma emit_cons : emit (p :: ps) = (do p.code; emit ps) := rfl

lemma emit_append (qs : List Part) : emit (ps ++ qs) = (do emit ps; emit qs) := by
  induction ps with
  | nil => rfl
  | cons p ps ih => rw [cons_append, emit_cons, emit_cons, ih, bind_assoc]

lemma emit_singleton : emit [p] = p.code := bind_pure p.code

/-! ### The operations write blocks -/

lemma put8_eq (c : Byte) : put8 c = emit [Part.byte c] := (emit_singleton (Part.byte c)).symm

lemma pack_eq (s : SizedBytes) : pack s = emit [.checked s] := (emit_singleton (.checked s)).symm

lemma putPNEmit_eq : putPNEmit N g = emit ((Megatron.putPNEmit N g).map Part.byte) := by
  induction g with
  | zero => exact put8_eq _
  | succ g ih =>
    rw [putPNEmit, ih]
    rfl

lemma putPNSkip_eq : putPNSkip N g = emit ((Megatron.putPNSkip N g).map Part.byte) := by
  induction g with
  | zero => exact putPNEmit_eq N 0
  | succ g ih =>
    rw [putPNSkip, Megatron.putPNSkip]
    split_ifs
    · exact putPNEmit_eq N (g + 1)
    · exact ih

lemma putPN_eq : putPN N = emit (pnParts N) := putPNSkip_eq N 9

lemma bytesOf_pnParts : bytesOf (pnParts N) = Megatron.putPN N := bytesOf_map_byte _

def pstrParts (c : SizedBytes) : List Part := pnParts (sizeT c.1) ++ [.unchecked c]

lemma putPSTR_eq : putPSTR c = emit (pstrParts c) := by
  rw [pstrParts, emit_append, emit_singleton, ← putPN_eq]
  rfl

lemma bytesOf_pstrParts : bytesOf (pstrParts c) = Megatron.putPSTR c.1 := by
  rw [pstrParts, bytesOf_append, bytesOf_pnParts, bytesOf_cons, bytesOf_nil, List.append_nil]
  rfl

def refParts : Option SizedRef → List Part
  | some s => pnParts (sizeT s.1.container) ++ [.checked ⟨s.1.container, s.2⟩]
  | none => pnParts 0#64

lemma putRef_eq : putRef s = emit (refParts s) := by
  cases s with
  | none => exact putPN_eq 0#64
  | some s => rw [refParts, emit_append, emit_singleton, ← putPN_eq]; rfl

lemma bytesOf_refParts : bytesOf (refParts s) = Megatron.putRef (s.map Subtype.val) := by
  cases s with
  | none => exact bytesOf_pnParts 0#64
  | some s =>
    rw [refParts, bytesOf_append, bytesOf_pnParts, bytesOf_cons, bytesOf_nil, List.append_nil]
    rfl

lemma each_eq {put : α → Storing Unit} {parts : α → List Part}
    (h : ∀ a, put a = emit (parts a)) (v : List α) : each put v = emit (v.flatMap parts) := by
  induction v with
  | nil => rfl
  | cons a v ih => rw [each, ih, h, flatMap_cons, emit_append]

lemma bytesOf_flatMap {put : α → Bytes} {parts : α → List Part} (h : ∀ a, bytesOf (parts a) = put a)
    (v : List α) : bytesOf (v.flatMap parts) = v.flatMap put := by
  induction v with
  | nil => rfl
  | cons a v ih => rw [flatMap_cons, bytesOf_append, ih, h, flatMap_cons]

def seqParts {α : Type} (parts : α → List Part) (v : List α) : List Part :=
  pnParts (toUint64 false (BitVec.ofNat 32 v.length)) ++ v.flatMap parts

lemma putSeq_eq {put : α → Storing Unit} {parts : α → List Part}
    (h : ∀ a, put a = emit (parts a)) (v : List α) : putSeq put v = emit (seqParts parts v) := by
  rw [seqParts, emit_append, ← putPN_eq, ← each_eq h]
  rfl

lemma bytesOf_seqParts {put : α → Bytes} {parts : α → List Part}
    (h : ∀ a, bytesOf (parts a) = put a) (v : List α) :
    bytesOf (seqParts parts v) = Megatron.putSeq put v := by
  rw [seqParts, bytesOf_append, bytesOf_pnParts, bytesOf_flatMap h]
  rfl

end OBufMem

/-! ### Types -/

open OBufMem in
/-- A C++ type with the operators `<<` of both buffers. -/
structure Writable where
  Val : Type
  /-- The bytes that `<<` appends to an `outBuffer`. -/
  put : Val → Bytes
  /-- The operator `<<` of `oBuf`. -/
  write : Val → Storing Unit
  /-- The blocks of a value. -/
  parts : Val → List Part

open OBufMem

namespace Writable

structure Lawful (W : Writable) : Prop where
  bytes : ∀ v, OBufMem.bytesOf (W.parts v) = W.put v
  code : ∀ v, W.write v = OBufMem.emit (W.parts v)

/-- An integer type of `w` bits. -/
def intOf (w : ℕ) (signed : Bool) : Writable where
  Val := BitVec w
  put := putInt signed
  write := OBufMem.putInt signed
  parts v := OBufMem.pnParts (toUint64 signed v)

/-- The type `bool`. -/
def boolOf : Writable where
  Val := Bool
  put := putBool
  write := OBufMem.putBool
  parts c := OBufMem.pnParts (if c then 1#64 else 0#64)

/-- The type `std::string`. -/
def stringOf : Writable where
  Val := SizedBytes
  put c := putPSTR c.1
  write := OBufMem.putPSTR
  parts := OBufMem.pstrParts

def refOf : Writable where
  Val := Option OBufMem.SizedRef
  put s := putRef (s.map Subtype.val)
  write := OBufMem.putRef
  parts := OBufMem.refParts

/-- The type `std::pair`. -/
def pairOf (A B : Writable) : Writable where
  Val := A.Val × B.Val
  put v := A.put v.1 ++ B.put v.2
  write v := do
    A.write v.1
    B.write v.2
  parts v := A.parts v.1 ++ B.parts v.2

def seqOf (A : Writable) : Writable where
  Val := List A.Val
  put := putSeq A.put
  write := OBufMem.putSeq A.write
  parts := OBufMem.seqParts A.parts

lemma intOf_lawful (w : ℕ) (signed : Bool) : (intOf w signed).Lawful where
  bytes _ := bytesOf_pnParts _
  code _ := putPN_eq _

lemma boolOf_lawful : boolOf.Lawful where
  bytes _ := bytesOf_pnParts _
  code _ := putPN_eq _

lemma stringOf_lawful : stringOf.Lawful where
  bytes := bytesOf_pstrParts
  code := putPSTR_eq

lemma refOf_lawful : refOf.Lawful where
  bytes := bytesOf_refParts
  code := putRef_eq

lemma pairOf_lawful {A B : Writable} (hA : A.Lawful) (hB : B.Lawful) : (pairOf A B).Lawful where
  bytes v := by
    show bytesOf (A.parts v.1 ++ B.parts v.2) = A.put v.1 ++ B.put v.2
    rw [bytesOf_append, hA.bytes, hB.bytes]
  code v := by
    show (do A.write v.1; B.write v.2) = emit (A.parts v.1 ++ B.parts v.2)
    rw [emit_append, hA.code, hB.code]

lemma seqOf_lawful {A : Writable} (hA : A.Lawful) : (seqOf A).Lawful where
  bytes := bytesOf_seqParts hA.bytes
  code := putSeq_eq hA.code

end Writable

open Writable

namespace Ty

def writable : Ty → Writable
  | .int w signed => Writable.intOf w.bits signed
  | .bool => Writable.boolOf
  | .string => Writable.stringOf
  | .ref => Writable.refOf
  | .pair a b => Writable.pairOf a.writable b.writable
  | .vector a => Writable.seqOf a.writable
  | .list a => Writable.seqOf a.writable
  | .deque a => Writable.seqOf a.writable
  | .set a => Writable.seqOf a.writable
  | .map a b => Writable.seqOf (Writable.pairOf a.writable b.writable)

lemma writable_lawful (t : Ty) : t.writable.Lawful := by
  induction t with
  | int w signed => exact intOf_lawful w.bits signed
  | bool => exact boolOf_lawful
  | string => exact stringOf_lawful
  | ref => exact refOf_lawful
  | pair a b iha ihb => exact pairOf_lawful iha ihb
  | vector a ih | list a ih | deque a ih | set a ih => exact seqOf_lawful ih
  | map a b iha ihb => exact seqOf_lawful (pairOf_lawful iha ihb)

end Ty

def sizedCStr (c : SizedBytes) : SizedBytes :=
  ⟨cStr c.1, lt_of_le_of_lt (List.takeWhile_prefix _).length_le c.2⟩

/-- A write operation of both buffers. -/
inductive WriteOp where
  | put8 (c : Byte)
  | putPN (N : BitVec 64)
  | putPSTR (c : SizedBytes)
  | pack (s : SizedBytes)
  | chars (c : SizedBytes)
  | real (text : SizedBytes)
  | value (t : Ty) (v : t.writable.Val)

namespace WriteOp

def put : WriteOp → Bytes
  | .put8 c => [c]
  | .putPN N => Megatron.putPN N
  | .putPSTR c => Megatron.putPSTR c.1
  | .pack s => s.1
  | .chars c => Megatron.putPSTR (cStr c.1)
  | .real text => Megatron.putPSTR text.1
  | .value t v => t.writable.put v

/-- The operation on an `oBuf`. -/
def code : WriteOp → Storing Unit
  | .put8 c => OBufMem.put8 c
  | .putPN N => OBufMem.putPN N
  | .putPSTR c => OBufMem.putPSTR c
  | .pack s => OBufMem.pack s
  | .chars c => OBufMem.putPSTR (sizedCStr c)
  | .real text => OBufMem.putPSTR text
  | .value t v => t.writable.write v

def parts : WriteOp → List OBufMem.Part
  | .put8 c => [OBufMem.Part.byte c]
  | .putPN N => OBufMem.pnParts N
  | .putPSTR c => OBufMem.pstrParts c
  | .pack s => [.checked s]
  | .chars c => OBufMem.pstrParts (sizedCStr c)
  | .real text => OBufMem.pstrParts text
  | .value t v => t.writable.parts v

lemma code_eq (op : WriteOp) : op.code = emit op.parts := by
  cases op with
  | put8 c => exact put8_eq c
  | putPN N => exact putPN_eq N
  | putPSTR c => exact putPSTR_eq c
  | pack s => exact pack_eq s
  | chars c => exact putPSTR_eq _
  | real text => exact putPSTR_eq text
  | value t v => exact t.writable_lawful.code v

lemma bytesOf_parts (op : WriteOp) : bytesOf op.parts = op.put := by
  cases op with
  | put8 c => rfl
  | putPN N => exact bytesOf_pnParts N
  | putPSTR c => exact bytesOf_pstrParts c
  | pack s => exact List.append_nil s.1
  | chars c => exact bytesOf_pstrParts _
  | real text => exact bytesOf_pstrParts text
  | value t v => exact t.writable_lawful.bytes v

end WriteOp

def outBuffer (ops : List WriteOp) : Bytes := ops.flatMap WriteOp.put

namespace OBufMem

variable {s : OBufMem}

def Valid (s : OBufMem) : Prop := s.curPos ≤ s.bufsize

def append (s : OBufMem) (c : Bytes) : OBufMem :=
  { s with curPos := s.curPos + c.length, buffer := copyAt s.buffer s.curPos c }

@[simp] lemma curPos_append (s : OBufMem) (c : Bytes) :
    (s.append c).curPos = s.curPos + c.length := rfl

@[simp] lemma bufsize_append (s : OBufMem) (c : Bytes) : (s.append c).bufsize = s.bufsize := rfl

lemma append_nil (s : OBufMem) : s.append [] = s := by
  rw [append, copyAt_nil]
  rfl

lemma append_append (s : OBufMem) (c d : Bytes) : (s.append c).append d = s.append (c ++ d) := by
  simp only [append, copyAt_copyAt, length_append, Nat.add_assoc]

lemma asString_append (s : OBufMem) (c : Bytes) : (s.append c).asString = s.asString ++ c :=
  firstCells_copyAt s.buffer s.curPos c

lemma mod_eq (hv : s.Valid) {c : Bytes} (hc : c.length < 2 ^ 63) :
    (s.curPos + c.length) % 2 ^ 64 = s.curPos + c.length := by
  have hlt := s.bufsize_lt
  rw [Valid] at hv
  exact Nat.mod_eq_of_lt (by omega)

lemma copyBytes_fits (hv : s.Valid) {c : Bytes} (hc : c.length < 2 ^ 63)
    (h : s.curPos + c.length ≤ s.bufsize) : copyBytes c s = .done () (s.append c) := by
  rw [copyBytes, state_bind, bind_of_done (require_of_pos h s), modify_apply, mod_eq hv hc]
  rfl

lemma copyBytes_outside {c : Bytes} (h : ¬ s.curPos + c.length ≤ s.bufsize) :
    copyBytes c s = .undefined := by
  rw [copyBytes, state_bind, bind_of_undefined (require_of_neg h s)]

lemma pack_fits (hv : s.Valid) (c : SizedBytes) (h : s.curPos + c.1.length ≤ s.bufsize) :
    pack c s = .done () (s.append c.1) := by
  have hroom : checkRoom c.1.length s = .done () s := by
    rw [checkRoom, state_bind, mod_eq hv c.2, if_neg (by omega)]
    rfl
  rw [pack, bind_of_done hroom, copyBytes_fits hv c.2 h]

lemma pack_throws (hv : s.Valid) (c : SizedBytes) (h : ¬ s.curPos + c.1.length ≤ s.bufsize) :
    pack c s = .thrown .badAlloc s := by
  have hroom : checkRoom c.1.length s = .thrown .badAlloc s := by
    rw [checkRoom, state_bind, mod_eq hv c.2, if_pos (by omega)]
    rfl
  rw [pack, bind_of_thrown hroom]

lemma Part.code_fits (hv : s.Valid) (p : Part) (h : s.curPos + p.bytes.length ≤ s.bufsize) :
    p.code s = .done () (s.append p.bytes) := by
  cases p with
  | checked c => exact pack_fits hv c h
  | unchecked c => exact copyBytes_fits hv c.2 h

lemma emit_fits (hv : s.Valid) {ps : List Part} (h : s.curPos + (bytesOf ps).length ≤ s.bufsize) :
    emit ps s = .done () (s.append (bytesOf ps)) := by
  induction ps generalizing s with
  | nil => rw [bytesOf_nil, append_nil]; rfl
  | cons p ps ih =>
    rw [bytesOf_cons, length_append] at h
    have hp : s.curPos + p.bytes.length ≤ s.bufsize := by omega
    have hv' : (s.append p.bytes).Valid := hp
    have hps : (s.append p.bytes).curPos + (bytesOf ps).length
        ≤ (s.append p.bytes).bufsize := by
      rw [curPos_append, bufsize_append]
      omega
    rw [emit_cons, bind_of_done (p.code_fits hv hp), ih hv' hps, append_append, bytesOf_cons]

def writeAll (ops : List WriteOp) : Storing Unit := Prog.each WriteOp.code ops

lemma writeAll_eq (ops : List WriteOp) : writeAll ops = emit (ops.flatMap WriteOp.parts) :=
  each_eq WriteOp.code_eq ops

/-- **Where the bytes fit, an `oBuf` holds what an `outBuffer` holds.** -/
theorem refines_outBuffer (sz : ArraySize) (b : ℕ → Byte) (ops : List WriteOp)
    (h : (outBuffer ops).length ≤ sz.1) : ∃ s, writeAll ops (ofArray sz b) = .done () s ∧
    s.asString = outBuffer ops ∧ s.curPos = (outBuffer ops).length := by
  have hbytes : bytesOf (ops.flatMap WriteOp.parts) = outBuffer ops :=
    bytesOf_flatMap WriteOp.bytesOf_parts ops
  have hfits : (ofArray sz b).curPos + (bytesOf (ops.flatMap WriteOp.parts)).length
      ≤ (ofArray sz b).bufsize := by
    rw [hbytes]
    exact (Nat.zero_add _).le.trans h
  refine ⟨(ofArray sz b).append (outBuffer ops), ?_, ?_, ?_⟩
  · rw [writeAll_eq, emit_fits (Nat.zero_le _) hfits, hbytes]
  · rw [asString_append]
    rfl
  · exact Nat.zero_add _

def sampleOps : List WriteOp :=
  [.value (.vector .string) [⟨[97#8], by norm_num⟩, ⟨[], by norm_num⟩], .value .ref none]

theorem refines_outBuffer_full : outBuffer sampleOps = [2#8, 1#8, 97#8, 0#8, 0#8] ∧
      ∃ s, writeAll sampleOps (ofArray ⟨5, by decide⟩ fun _ => 0#8) = .done () s ∧
        s.asString = outBuffer sampleOps ∧ s.curPos = (outBuffer sampleOps).length :=
  ⟨by decide, refines_outBuffer ⟨5, by decide⟩ (fun _ => 0#8) sampleOps (by decide)⟩

/-! ### The class of lists of bytes -/

def view (s : OBufMem) : OBuf := ⟨s.bufsize, s.asString⟩

lemma view_append (s : OBufMem) (c : Bytes) : (s.append c).view = ⟨s.bufsize, s.asString ++ c⟩ := by
  rw [view, asString_append, bufsize_append]

def Refines (m : Storing Unit) (f : OBuf → Except Exn OBuf) (s : OBufMem) : Prop :=
  m.wp (fun _ s' => s'.Valid ∧ f s.view = .ok s'.view) (fun e _ => f s.view = .error e) s

lemma pack_refines (hv : s.Valid) (c : SizedBytes) : Refines (pack c) (·.pack c.1) s := by
  have hlen : s.asString.length = s.curPos := length_firstCells _ _
  by_cases h : s.curPos + c.1.length ≤ s.bufsize
  · refine wp_of_done (pack_fits hv c h) ⟨h, ?_⟩
    rw [view_append]
    exact OBuf.pack_eq (by rw [view, hlen]; exact h)
  · refine wp_of_thrown (pack_throws hv c h) ?_
    have hroom : s.asString.length + c.1.length > s.bufsize := by omega
    exact if_pos hroom

lemma Refines.bind {m n : Storing Unit} {f g : OBuf → Except Exn OBuf} (hm : Refines m f s)
    (hn : ∀ s', s'.Valid → Refines n g s') : Refines (do m; n) (fun o => f o >>= g) s := by
  refine wp_bind.mpr (wp_mono hm (fun _ s' h => ?_) fun e s' h => ?_)
  · obtain ⟨hv, hf⟩ := h
    simp only [hf]
    exact hn s' hv
  · simp only [h]
    rfl

lemma emit_refines (hv : s.Valid) (c : Bytes) :
    Refines (emit (c.map Part.byte)) (c.foldlM OBuf.put8) s := by
  induction c generalizing s with
  | nil => exact wp_pure.mpr ⟨hv, rfl⟩
  | cons b c ih =>
    have hb : Refines (Part.byte b).code (·.put8 b) s := pack_refines hv ⟨[b], by norm_num⟩
    exact hb.bind fun s' hv' => ih hv'

lemma putPN_refines (hv : s.Valid) (N : BitVec 64) : Refines (putPN N) (·.putPN N) s := by
  rw [putPN_eq]
  exact emit_refines hv _

lemma putRef_refines (hv : s.Valid) (r : Option SizedRef) :
    Refines (putRef r) (·.putRef (r.map fun s => s.1.container)) s := by
  cases r with
  | none => exact putPN_refines hv 0#64
  | some r => exact (putPN_refines hv _).bind fun s' hv' => pack_refines hv' _

end OBufMem

end Megatron
