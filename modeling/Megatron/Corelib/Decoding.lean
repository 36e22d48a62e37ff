import Megatron.Corelib.Msockaddr
import Megatron.Corelib.Route
import Megatron.Library.Metered

/-!
What the stream operators `>>` of `corelib` ask of the memory while they read bytes
that need not have been written by `<<`.
-/

namespace Megatron

open Library List Metered

inductive MemoryEvent where
  | read (pos n : ℕ)
  | bytes (n : ℕ)
  /-- An array of `n` bytes is made on the stack. -/
  | stack (n : ℕ)
  | reserve (n : ℕ)
  | elements (n : ℕ)
  deriving DecidableEq, Repr

namespace MemoryEvent

/-- The event stays within an input of `size` bytes. -/
def Within (size : ℕ) : MemoryEvent → Prop
  | .read pos n => pos + n ≤ size
  | .bytes n => n ≤ size
  | .stack n => n ≤ size
  | .reserve n => n ≤ size
  | .elements n => n ≤ size

end MemoryEvent

abbrev Decode (α : Type) := Metered Byte Exn MemoryEvent α

/-- `inBuffer::get_PN`, byte by byte. -/
def meteredPN : Decode (BitVec 64) := fun b => (getPN b, [.read b.pos ((getPN b).2.pos - b.pos)])

/-- The operator `>>` for integers of `w` bits. -/
def meteredInt (w : ℕ) : Decode (BitVec w) := do
  let v ← meteredPN
  pure (v.setWidth w)

/-- The operator `>>` for `bool`. -/
def meteredBool : Decode Bool := do
  let v ← meteredPN
  pure (v != 0#64)

/-- `inBuffer::unpack` into a string, which is made after the test. -/
def meteredUnpack (size : BitVec 64) : Decode Bytes := fun b =>
  (unpack size b,
    if size.toNat > remains b then [] else [.bytes size.toNat, .read b.pos size.toNat])

/-- `inBuffer::get_PSTR`. -/
def meteredPSTR : Decode Bytes := do
  let sz ← meteredPN
  meteredUnpack sz

def position : Decode ℕ := fun b => ((.ok b.pos, b), [])

/-- The operator `>>` for `REF_getter<refbuffer>`. -/
def meteredRef (malloc : ℕ → ℕ) : Decode Refbuffer := do
  let size ← meteredPN
  let p ← position
  let container ← meteredUnpack size
  pure ⟨malloc p, container⟩

/-- The error of `unpack(void*, size_t)`. -/
def notEnough : Exn := .commonError "unpack error not enough "

/-- `inBuffer::unpack` into memory that is there already. -/
def meteredCopy (size : BitVec 64) : Decode Bytes := fun b =>
  (unpackOr (fun _ => notEnough) size b,
    if size.toNat > remains b then [] else [.read b.pos size.toNat])

/-- `BN_bin2bn`; null for a negative length. -/
def bnBin2bn (buf : Bytes) (len : BitVec 32) : Option ℕ :=
  if len.toInt < 0 then none
  else some ((buf.take len.toNat).foldl (fun n c => 256 * n + c.toNat) 0)

/-- `BN_cmp(a, b) < 0`; null comes last. -/
def bnLt : Option ℕ → Option ℕ → Bool
  | some a, some b => decide (a < b)
  | some _, none => true
  | none, _ => false

/-- The operator `>>` for `BigInt`. The test comes after `buf[len]`. -/
def meteredBigInt : Decode (Option ℕ) := do
  let len ← meteredPN
  Metered.note [.stack len.toNat]
  let buf ← meteredCopy len
  Metered.note [.bytes buf.length]
  pure (bnBin2bn buf (len.setWidth 32))

/-! ### Addresses and routes -/

/-- Functions of libc that read texts. -/
structure Conversions where
  text : Inet6Text
  Real : Type
  atof : Bytes → Real
  ltReal : Real → Real → Bool

/-- The operators `>>` for `double` and `float`. -/
def meteredReal (C : Conversions) : Decode C.Real := do
  let r ← meteredPSTR
  pure (C.atof (cStr r))

/-- `msockaddr_in::unpack`. -/
def meteredAddr (C : Conversions) : Decode Msockaddr := do
  let fam ← meteredInt 8
  if fam = 1#8 then do
    let s ← meteredPSTR
    pure (.unix (cStr s))
  else if fam = 2#8 then do
    let port ← meteredPN
    let addr ← meteredPN
    pure (.inet (swap16 (port.setWidth 16)) (swap32 (addr.setWidth 32)))
  else if fam = 10#8 then do
    let port ← meteredPN
    let s ← meteredPSTR
    pure (.inet6 (swap16 (port.setWidth 16))
      ((C.text.inetPton (cStr s)).getD (Vector.replicate 16 0#8)))
  else Metered.fail (.commonError ("2 invalid family " ++ toString fam.toNat ++ " "))

/-- One round of the loop in `route_t::unpack`. -/
def meteredHop : Decode (Option Route) := do
  let t ← meteredInt 32
  if t = 7#32 then Metered.fail (.commonError "route unpack for listener")
  else if t = 1#32 then do
    let id ← meteredInt 32
    pure (some (.localService id))
  else if t = 6#32 then do
    let id ← meteredInt 32
    pure (some (.thread id))
  else if t = 2#32 then do
    let addr ← meteredInt 64
    pure (some (.remoteAddr addr))
  else if t = 3#32 then do
    let z ← meteredPN
    pure (some (.objectHandlerPolled z))
  else if t = 5#32 then do
    let z ← meteredPN
    pure (some (.objectHandlerThreaded z))
  else if t = 4#32 then do
    let id ← meteredInt 64
    pure (some (.socketRoute id))
  else pure none

/-- `route_t::unpack`. The vector doubles its room. -/
def meteredRoute : Decode RouteT := do
  let sz ← meteredPN
  let hops ← Metered.entries meteredHop
    (fun hops => [.elements (2 * (hops.filterMap id).length)]) [] sz.toNat
  pure (hops.filterMap id)

/-! ### Containers -/

structure Decoder where
  Val : Type
  lt : Val → Val → Bool
  get : (ℕ → ℕ) → Decode Val

/-- The operators `>>` of the containers. -/
def meteredSeq {α : Type} (ahead : ℕ → List MemoryEvent) (grow : List α → List MemoryEvent)
    (get : Decode α) : Decode (List α) := do
  let n ← meteredInt 32
  Metered.note (ahead n.toNat)
  Metered.entries get grow [] n.toNat

def oneByOne {α : Type} (l : List α) : List MemoryEvent := [.elements l.length]

namespace Decoder

def pairOf (A B : Decoder) : Decoder where
  Val := A.Val × B.Val
  lt := pairLt A.lt B.lt
  get malloc := do
    let first ← A.get malloc
    let second ← B.get malloc
    pure (first, second)

/-- The type `std::vector`. -/
def vectorOf (A : Decoder) : Decoder where
  Val := List A.Val
  lt := lexLt A.lt
  get malloc := meteredSeq (fun n => [.reserve n]) (fun _ => []) (A.get malloc)

/-- The types `std::list` and `std::deque`. -/
def listOf (A : Decoder) : Decoder where
  Val := List A.Val
  lt := lexLt A.lt
  get malloc := meteredSeq (fun _ => []) oneByOne (A.get malloc)

def assocOf {κ : Type} (E : Decoder) (lt : κ → κ → Bool) (key : E.Val → κ) : Decoder where
  Val := List E.Val
  lt := lexLt E.lt
  get malloc := do
    let l ← meteredSeq (fun _ => []) oneByOne (E.get malloc)
    pure (l.foldl (fun s x => insertBy lt key x s) [])

end Decoder

/-- The types with an operator `>>`, by arbitrary nesting. -/
inductive Wire where
  | int (w : Width) (signed : Bool)
  | bool
  | real
  | string
  | ref
  | bigInt
  | address
  | route
  | pair (a b : Wire)
  | vector (a : Wire)
  | list (a : Wire)
  | deque (a : Wire)
  | set (a : Wire)
  | map (a b : Wire)
  deriving DecidableEq, Repr

def Wire.decoder (C : Conversions) : Wire → Decoder
  | .int w signed => ⟨BitVec w.bits, Streamable.intLt signed, fun _ => meteredInt w.bits⟩
  | .bool => ⟨Bool, fun a b => !a && b, fun _ => meteredBool⟩
  | .real => ⟨C.Real, C.ltReal, fun _ => meteredReal C⟩
  | .string => ⟨Bytes, lexLt (Streamable.intLt false), fun _ => meteredPSTR⟩
  | .ref => ⟨Refbuffer, Streamable.refLt, meteredRef⟩
  | .bigInt => ⟨Option ℕ, bnLt, fun _ => meteredBigInt⟩
  | .address => ⟨Msockaddr, Msockaddr.lt, fun _ => meteredAddr C⟩
  | .route => ⟨RouteT, RouteT.lt, fun _ => meteredRoute⟩
  | .pair a b => .pairOf (a.decoder C) (b.decoder C)
  | .vector a => .vectorOf (a.decoder C)
  | .list a => .listOf (a.decoder C)
  | .deque a => .listOf (a.decoder C)
  | .set a => .assocOf (a.decoder C) (a.decoder C).lt id
  | .map a b => .assocOf (.pairOf (a.decoder C) (b.decoder C)) (a.decoder C).lt Prod.fst

/-! ### The readers without their record -/

@[simp] lemma erase_meteredPN : meteredPN.erase = getPN := rfl

@[simp] lemma erase_meteredUnpack (size : BitVec 64) : (meteredUnpack size).erase = unpack size :=
  rfl

@[simp] lemma erase_meteredCopy (size : BitVec 64) :
    (meteredCopy size).erase = unpackOr (fun _ => notEnough) size := rfl

@[simp] lemma erase_meteredInt (w : ℕ) : (meteredInt w).erase = getInt w := by
  simp [meteredInt, getInt]

@[simp] lemma erase_meteredBool : meteredBool.erase = getBool := by
  simp [meteredBool, getBool]

@[simp] lemma erase_meteredPSTR : meteredPSTR.erase = getPSTR := by
  simp [meteredPSTR, getPSTR]

@[simp] lemma erase_meteredRef (malloc : ℕ → ℕ) : (meteredRef malloc).erase = getRef malloc := by
  simp only [meteredRef, erase_bind, erase_meteredPN, erase_meteredUnpack, erase_pure]
  rfl

lemma erase_meteredAddr (C : Conversions) : (meteredAddr C).erase = unpackAddr C.text := by
  simp only [meteredAddr, unpackAddr, erase_bind, erase_ite, erase_pure,
    erase_fail, erase_meteredInt, erase_meteredPN, erase_meteredPSTR]

@[simp] lemma erase_meteredHop : meteredHop.erase = unpackHop := by
  simp only [meteredHop, unpackHop, erase_bind, erase_ite, erase_pure,
    erase_fail, erase_meteredInt, erase_meteredPN]

lemma erase_meteredRoute : meteredRoute.erase = unpackRoute := by
  simp only [meteredRoute, unpackRoute, erase_bind, erase_pure, erase_meteredPN,
    erase_entries, erase_meteredHop, nil_append, Reader.bind_pure]

lemma erase_meteredSeq {α : Type} (ahead : ℕ → List MemoryEvent) (grow : List α → List MemoryEvent)
    (get : Decode α) : (meteredSeq ahead grow get).erase = getSeq get.erase := by
  simp only [meteredSeq, getSeq, erase_bind, erase_note, erase_meteredInt,
    erase_entries, nil_append, Reader.bind_pure, Reader.pure_bind]

lemma Decoder.erase_assocOf {κ : Type} (D : Decoder) (lt : κ → κ → Bool) (key : D.Val → κ)
    (malloc : ℕ → ℕ) : ((D.assocOf lt key).get malloc).erase = getSeq (D.get malloc).erase >>=
      fun l => pure (l.foldl (fun s x => insertBy lt key x s) []) := by
  simp only [assocOf, erase_bind, erase_pure, erase_meteredSeq]

end Megatron
