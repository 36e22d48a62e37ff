import Megatron.Utils.Strings

/-!
Socket addresses (`corelib/msockaddr_in`): their order, and how they are packed and unpacked. The
text of an IPv6 address is left to libc (`Inet6Text`).
-/

namespace Megatron

open Library BitVec Reader.Decodes

/-- `htons` and `ntohs`. -/
def swap16 (x : BitVec 16) : BitVec 16 := x.extractLsb' 0 8 ++ x.extractLsb' 8 8

/-- `htonl` and `ntohl`. -/
def swap32 (x : BitVec 32) : BitVec 32 :=
  x.extractLsb' 0 8 ++ x.extractLsb' 8 8 ++ x.extractLsb' 16 8 ++ x.extractLsb' 24 8

@[simp] lemma swap16_swap16 (x : BitVec 16) : swap16 (swap16 x) = x := by
  apply eq_of_getLsbD_eq
  intro i hi
  simp only [swap16, getLsbD_append, getLsbD_extractLsb']
  rcases (by omega : i < 8 ∨ (8 ≤ i ∧ i < 16)) with h | h <;> grind

@[simp] lemma swap32_swap32 (x : BitVec 32) : swap32 (swap32 x) = x := by
  apply eq_of_getLsbD_eq
  intro i hi
  simp only [swap32, getLsbD_append, getLsbD_extractLsb']
  rcases (by omega : i < 8 ∨ (8 ≤ i ∧ i < 16) ∨ (16 ≤ i ∧ i < 24) ∨ (24 ≤ i ∧ i < 32))
    with h | h | h | h <;> grind

/-! ### Addresses -/

/-- The array `s6_addr` of an IPv6 address. -/
abbrev In6Addr := Vector Byte 16

/-- `inet_ntop` and `inet_pton` for `AF_INET6`. -/
structure Inet6Text where
  inetNtop : In6Addr → Bytes
  inetPton : Bytes → Option In6Addr
  pton_ntop : ∀ a, inetPton (inetNtop a) = some a
  ntop_ne_zero : ∀ a, ∀ c ∈ inetNtop a, c ≠ 0#8
  length_ntop : ∀ a, (inetNtop a).length < 100

/-- The class `msockaddr_in`. Ports and IPv4 addresses are in network byte order. -/
inductive Msockaddr where
  | unix (sunPath : Bytes)
  | inet (sinPort : BitVec 16) (sAddr : BitVec 32)
  | inet6 (sin6Port : BitVec 16) (sin6Addr : In6Addr)
  deriving DecidableEq, Repr

namespace Msockaddr

/-- `AF_UNIX`, `AF_INET` and `AF_INET6`. -/
def family : Msockaddr → BitVec 16
  | .unix _ => 1#16
  | .inet _ _ => 2#16
  | .inet6 _ _ => 10#16

/-- The family is `AF_INET` or `AF_INET6`. -/
def isInet : Msockaddr → Bool
  | .unix _ => false
  | .inet _ _ => true
  | .inet6 _ _ => true

def inetLt (x y : BitVec 32 × BitVec 16) : Bool :=
  pairLt (Streamable.intLt false) (Streamable.intLt false) x y

def inet6Lt (x y : List Byte × BitVec 16) : Bool :=
  pairLt (lexLt (Streamable.intLt false)) (Streamable.intLt false) x y

/-- `msockaddr_in::operator<`. For `AF_UNIX` it returns `strcmp`. -/
def lt : Msockaddr → Msockaddr → Bool
  | .unix p, .unix q => p != q
  | .inet p a, .inet q b => inetLt (a, p) (b, q)
  | .inet6 p a, .inet6 q b => inet6Lt (a.toList, p) (b.toList, q)
  | a, b => a.family.ult b.family

lemma lt_asymm {a b : Msockaddr} (ha : a.isInet = true) (h : a.lt b = true) : b.lt a = false := by
  cases a with
  | unix p => exact absurd ha Bool.false_ne_true
  | inet p x =>
    cases b with
    | unix q => simp [lt, family] at h
    | inet q y =>
      exact (pairLt_strictTotal (Streamable.intLt_strictTotal 32 false)
        (Streamable.intLt_strictTotal 16 false)).asymm h
    | inet6 q y => simp [lt, family]
  | inet6 p x =>
    cases b with
    | unix q | inet q y => simp [lt, family] at h
    | inet6 q y =>
      exact (pairLt_strictTotal (lexLt_strictTotal (Streamable.intLt_strictTotal 8 false))
        (Streamable.intLt_strictTotal 16 false)).asymm h

/-- `operator<` orders `a` among the keys of a map. Two `AF_UNIX` addresses it does not order, and
a `std::map` with both may not find one of them. -/
def OrderedIn {α : Type} (m : Msockaddr → Option α) (a : Msockaddr) : Prop :=
  ∀ b, (m b).isSome = true → a.lt b = true → b.lt a = false

lemma orderedIn_of_isInet {α : Type} {m : Msockaddr → Option α} {a : Msockaddr}
    (h : a.isInet = true) : a.OrderedIn m := fun _ _ hlt => lt_asymm h hlt

end Msockaddr

section

variable (T : Inet6Text)

/-- `msockaddr_in::pack`. -/
def packAddr : Msockaddr → Bytes
  | .unix sunPath => putPN 1#64 ++ putPSTR sunPath
  | .inet sinPort sAddr =>
    putPN 2#64 ++ putPN ((swap16 sinPort).setWidth 64) ++ putPN ((swap32 sAddr).setWidth 64)
  | .inet6 sin6Port sin6Addr =>
    putPN 10#64 ++ putPN ((swap16 sin6Port).setWidth 64) ++ putPSTR (T.inetNtop sin6Addr)

/-- `msockaddr_in::unpack`. Where `inet_pton` fails the zero address stays. -/
def unpackAddr : Reader Msockaddr := do
  let fam ← getInt 8
  if fam = 1#8 then do
    let s ← getPSTR
    pure (.unix (cStr s))
  else if fam = 2#8 then do
    let port ← getPN
    let addr ← getPN
    pure (.inet (swap16 (port.setWidth 16)) (swap32 (addr.setWidth 32)))
  else if fam = 10#8 then do
    let port ← getPN
    let s ← getPSTR
    pure (.inet6 (swap16 (port.setWidth 16)) ((T.inetPton (cStr s)).getD (Vector.replicate 16 0#8)))
  else Reader.fail (.commonError ("2 invalid family " ++ toString fam.toNat ++ " "))

lemma setWidth_swap16 (x : BitVec 16) : swap16 (((swap16 x).setWidth 64).setWidth 16) = x := by
  rw [setWidth_setWidth_of_le _ (by norm_num), setWidth_eq, swap16_swap16]

lemma setWidth_swap32 (x : BitVec 32) : swap32 (((swap32 x).setWidth 64).setWidth 32) = x := by
  rw [setWidth_setWidth_of_le _ (by norm_num), setWidth_eq, swap32_swap32]

private lemma getFamily_decodes (f : Byte) : (getInt 8).Decodes (putPN (f.setWidth 64)) f :=
  getInt_decodes (by norm_num) false f

lemma unpackAddr_decodes {a : Msockaddr} (ha : a.isInet = true) :
    (unpackAddr T).Decodes (packAddr T a) a := by
  cases a with
  | unix p => exact absurd ha Bool.false_ne_true
  | inet p x =>
    rw [packAddr, List.append_assoc]
    refine bind (getFamily_decodes 2#8) ?_
    refine bind (getPN_decodes _) ?_
    have h := map (fun n : BitVec 64 => Msockaddr.inet p (swap32 (n.setWidth 32)))
      (getPN_decodes ((swap32 x).setWidth 64))
    rw [setWidth_swap32] at h
    simpa only [setWidth_swap16] using h
  | inet6 p x =>
    have hlen : (T.inetNtop x).length < 2 ^ 64 := (T.length_ntop x).trans (by norm_num)
    rw [packAddr, List.append_assoc]
    refine bind (getFamily_decodes 10#8) ?_
    refine bind (getPN_decodes _) ?_
    have h := map (fun s => Msockaddr.inet6 p
      ((T.inetPton (cStr s)).getD (Vector.replicate 16 0#8))) (getPSTR_decodes hlen)
    rw [cStr_eq_self (T.ntop_ne_zero x), T.pton_ntop, Option.getD_some] at h
    simpa only [setWidth_swap16] using h

/-- The operator `<<` for `std::set<msockaddr_in>`. -/
def putAddrSet (s : List Msockaddr) : Bytes := putSeq (packAddr T) s

/-- The operator `>>` for `std::set<msockaddr_in>`. -/
def getAddrSet : Reader (List Msockaddr) := do
  let l ← getSeq (unpackAddr T)
  pure (l.foldl (fun s x => insertBy Msockaddr.lt id x s) [])

def IsAddrSet (s : List Msockaddr) : Prop := Increasing Msockaddr.lt id s ∧ ∀ a ∈ s, a.isInet = true

lemma getAddrSet_decodes {s : List Msockaddr} (hs : IsAddrSet s) (hlen : s.length < 2 ^ 32) :
    (getAddrSet T).Decodes (putAddrSet T s) s := by
  have h := map (fun l => l.foldl (fun s x => insertBy Msockaddr.lt id x s) [])
    (getSeq_decodes hlen fun a ha => unpackAddr_decodes T (hs.2 a ha))
  have hins : s.foldl (fun s x => insertBy Msockaddr.lt id x s) [] = s := by
    refine foldl_insertBy_of_increasing s [] ?_
    refine hs.1.imp_of_mem fun {a b} ha _ hab => ⟨hab, ?_⟩
    exact Msockaddr.lt_asymm (hs.2 a ha) hab
  rwa [hins] at h

lemma getAddrSet_ensures : (getAddrSet T).Ensures fun s => s.length < 2 ^ 32 := by
  refine Reader.Ensures.bind (getSeq_ensures _) fun l hl => Reader.Ensures.pure ?_
  have hins : (l.foldl (fun s x => insertBy Msockaddr.lt id x s) []).length ≤ 0 + l.length :=
    length_foldl_insertBy_le l []
  omega

end

end Megatron
