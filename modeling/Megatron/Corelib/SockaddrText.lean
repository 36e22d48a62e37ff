import Megatron.Corelib.SockaddrUnion
import Megatron.Library.NumberText
import Megatron.Library.Programs
import Megatron.Library.Search

/-!
Addresses as texts (`corelib/msockaddr_in.cpp`): `dump` prints an address, and `init` reads a
text, for host names with the help of `getaddrinfo` and of a cache of its answers.
-/

namespace Megatron

open Library List NumberText Prog MsockaddrIn Address
open Library.Http (ascii numeral)
open Library.NumberText (dotted undotted strtol isDigit)

/-- `inet_ntoa`, and `inet_ntop` for `AF_INET`. -/
def inetNtoa (addr : BitVec 32) : Bytes := dotted (bytes32 addr)

structure InetText extends Inet6Text where
  inetAddr : Bytes → BitVec 32
  inetAddr_ntoa : ∀ a, inetAddr (inetNtoa a) = a

/-- An entry of the list that `getaddrinfo` returns. -/
inductive Resolved where
  | inet (addr : BitVec 32)
  | inet6 (addr : In6Addr)

/-- The clock and the resolver during a call. -/
structure Resolver where
  time : ℤ
  timeStored : ℤ
  getaddrinfo : Bytes → Except String (List Resolved)
  numeric : ∀ a, getaddrinfo (inetNtoa a) = .ok [.inet a]
  bracket : ∀ s, ∃ status, getaddrinfo (91#8 :: s) = .error status

/-- `atoi`: the `long` that `strtol` returns, as an `int`. -/
def atoi (s : Bytes) : BitVec 32 := BitVec.ofInt 32 (strtol s)

def textOf (s : Bytes) : String := String.ofList (s.map fun c => Char.ofNat c.toNat)

abbrev AddrTexts := List Bytes × List Bytes

structure AddrInfo where
  addrs : AddrTexts
  t : ℤ

/-- `_addrInfos::host2AddrInfo`. -/
abbrev AddrInfos := Bytes → Option AddrInfo

/-- Insertion into a `std::set<std::string>`. -/
def insertText (s : Bytes) (set : List Bytes) : List Bytes :=
  insertBy (lexLt (Streamable.intLt false)) id s set

section

variable (L : InetText)

/-- The loop over the answer of `getaddrinfo`. -/
def collect : List Resolved → AddrTexts → AddrTexts
  | [], z => z
  | .inet addr :: res, z => collect res (insertText (inetNtoa addr) z.1, z.2)
  | .inet6 addr :: res, z => collect res (z.1, insertText (L.inetNtop addr) z.2)

def cached (R : Resolver) (ai : AddrInfos) (host : Bytes) : Option AddrTexts :=
  match ai host with
  | some info => if R.time - info.t < 4 * 3600 then some info.addrs else none
  | none => none

def getAddrInfo (R : Resolver) (host : Bytes) : Prog AddrInfos Exn AddrTexts := do
  let ai ← Prog.state
  match cached R ai host with
  | some addrs => pure addrs
  | none =>
    match R.getaddrinfo (cStr host) with
    | .error status =>
      Prog.fail (.commonError ("getaddrinfo: " ++ status ++ "\n" ++ textOf (cStr host)))
    | .ok res => do
        Prog.modify fun ai => Function.update ai host (some ⟨collect L res ([], []), R.timeStored⟩)
        pure (collect L res ([], []))

namespace MsockaddrIn

def strcpyPath {σ : Type} (a : MsockaddrIn) (s : Bytes) : Prog σ Exn MsockaddrIn := do
  Prog.require (2 + ((cStr s).length + 1) ≤ 112)
  pure (a.store 2 (cStr s ++ [0#8]))

/-- The end of `init(host, port)`. -/
def initFirst (a : MsockaddrIn) (port : BitVec 16) (z : AddrTexts) :
    Prog AddrInfos Exn MsockaddrIn :=
  match z.1, z.2 with
  | first :: _, _ =>
    pure (Address.filled a 2#16 (swap16 port) 4 (bytes32 (L.inetAddr (cStr first))))
  | [], first :: _ =>
    pure (match L.inetPton (cStr first) with
      | some addr => Address.filled a 10#16 (swap16 port) 8 addr.toList
      | none => Address.filled a 10#16 (swap16 port) 8 [])
  | [], [] => Prog.fail (.commonError "invalid case!")

/-- `msockaddr_in::init(host, port)` into the object `a`. -/
def initHost (R : Resolver) (a : MsockaddrIn) (host : Bytes) (port : BitVec 16) :
    Prog AddrInfos Exn MsockaddrIn :=
  if host = ascii "INADDR_ANY" then
    pure (Address.filled a 2#16 (swap16 port) 4 (bytes32 0#32))
  else if host = ascii "INADDR6_ANY" then
    pure (Address.filled a 10#16 (swap16 port) 8 (List.replicate 16 0#8))
  else do
    let z ← getAddrInfo L R host
    a.initFirst L port z

/-- `msockaddr_in::init(const std::string&)` into the object `a`. -/
def init (R : Resolver) (a : MsockaddrIn) (s : Bytes) : Prog AddrInfos Exn MsockaddrIn :=
  if s.take 5 = ascii "unix@" then
    strcpyPath (a.store 0 (bytes16 1#16)) (s.drop 5)
  else
    match find (ascii ":") s with
    | some pz => initHost L R a (cStr (s.take pz)) ((atoi (cStr (s.drop (pz + 1)))).setWidth 16)
    | none => Prog.fail (.commonError ("invalid case " ++ textOf (cStr s)))

def getStringAddr (a : MsockaddrIn) : Except Exn Bytes :=
  if a.family = 1#8 then .ok (cStr a.sunPath)
  else if a.family = 2#8 then .ok (inetNtoa a.sAddr)
  else if a.family = 10#8 then .ok (L.inetNtop a.s6Addr)
  else .error (.commonError ("3 invalid family " ++ toString a.family.toInt ++ " "))

def snprintf200 (s : Bytes) : Bytes := s.take 199

/-- `msockaddr_in::dump`. The port of an IPv6 address comes from `sockaddr_in`. -/
def dump (a : MsockaddrIn) : Except Exn Bytes :=
  if a.family = 1#8 then .ok (snprintf200 (ascii "unix@" ++ cStr a.sunPath))
  else if a.family = 2#8 then do
    let s ← a.getStringAddr L
    pure (snprintf200 (cStr s ++ ascii ":" ++ numeral 10 (swap16 a.sinPort).toNat))
  else if a.family = 10#8 then do
    let s ← a.getStringAddr L
    pure (snprintf200 (ascii "[" ++ cStr s ++ ascii "]:" ++ numeral 10 (swap16 a.sinPort).toNat))
  else .error (.commonError ("3 invalid family " ++ toString a.family.toInt ++ " "))

end MsockaddrIn

end

variable {c : Byte} (p : BitVec 16) (a : BitVec 32)

/-! ### Numeric texts -/

lemma inetNtoa_cons : ∃ c s, inetNtoa a = c :: s ∧ isDigit c = true := dotted_cons _ _

lemma not_mem_inetNtoa (hdigit : isDigit c = false) (hdot : c ≠ 46#8) (a : BitVec 32) :
    c ∉ inetNtoa a := by
  intro h
  rcases mem_dotted h with h | h
  · rw [hdigit] at h
    cases h
  · exact hdot h

lemma cStr_inetNtoa : cStr (inetNtoa a) = inetNtoa a := by
  refine cStr_eq_self fun c hc => ?_
  rintro rfl
  exact not_mem_inetNtoa (by decide) (by decide) a hc

lemma length_inetNtoa_le : (inetNtoa a).length ≤ 16 := length_dotted_le _

lemma inetNtoa_ne (hc : isDigit c = false) (s : Bytes) (a : BitVec 32) : inetNtoa a ≠ c :: s := by
  obtain ⟨d, r, hd, hdigit⟩ := inetNtoa_cons a
  rw [hd]
  intro h
  rw [(List.cons.inj h).1, hc] at hdigit
  cases hdigit

lemma length_portText_le : (numeral 10 p.toNat).length ≤ 5 := by
  rw [Http.length_numeral_le_iff (by norm_num) (by norm_num)]
  exact p.isLt.trans (by norm_num)

lemma atoi_portText : (atoi (cStr (numeral 10 p.toNat))).setWidth 16 = p := by
  have hlt : p.toNat < 2 ^ 16 := p.isLt
  have hzero : ∀ c ∈ numeral 10 p.toNat, c ≠ 0#8 := by
    intro c hc
    rintro rfl
    exact absurd (isDigit_of_mem hc) (by decide)
  rw [cStr_eq_self hzero, atoi, strtol_numeral (by omega)]
  apply BitVec.eq_of_toNat_eq
  rw [BitVec.ofInt_natCast, BitVec.toNat_setWidth, BitVec.toNat_ofNat]
  omega

/-! ### The cache -/

section

variable {L : InetText}

structure Sound (ai : AddrInfos) : Prop where
  numeric : ∀ {a : BitVec 32} {info}, ai (inetNtoa a) = some info → info.addrs = ([inetNtoa a], [])
  bracket : ∀ s, ai (91#8 :: s) = none

lemma Sound.update {ai : AddrInfos} (h : Sound ai) {host : Bytes} {z : AddrTexts} (t : ℤ)
    (hnumeric : ∀ a, host = inetNtoa a → z = ([inetNtoa a], []))
    (hbracket : ∀ s, host ≠ 91#8 :: s) : Sound (Function.update ai host (some ⟨z, t⟩)) := by
  constructor
  · intro a info hinfo
    by_cases hhost : inetNtoa a = host
    · rw [hhost, Function.update_self, Option.some.injEq] at hinfo
      rw [← hinfo]
      exact hnumeric a hhost.symm
    · rw [Function.update_of_ne hhost] at hinfo
      exact h.numeric hinfo
  · intro s
    rw [Function.update_of_ne (Ne.symm (hbracket s))]
    exact h.bracket s

lemma cStr_bracket (s : Bytes) : cStr (91#8 :: s) = 91#8 :: cStr s := by
  rw [cStr, takeWhile_cons_of_pos (by decide)]
  rfl

lemma getAddrInfo_wp (R : Resolver) {ai : AddrInfos} (h : Sound ai) (host : Bytes) :
    (getAddrInfo L R host).wp
      (fun z ai' => Sound ai' ∧ (∀ a, host = inetNtoa a → z = ([inetNtoa a], [])) ∧
        ∀ s, host ≠ 91#8 :: s) (fun _ ai' => Sound ai' ∧ ∀ a, host ≠ inetNtoa a) ai := by
  refine wp_bind.mpr (wp_state.mpr ?_)
  cases hc : cached R ai host with
  | some addrs =>
    -- the entry is not too old
    rw [cached] at hc
    cases hinfo : ai host with
    | none =>
      rw [hinfo] at hc
      cases hc
    | some info =>
      simp only [hinfo] at hc
      split_ifs at hc
      cases hc
      refine wp_pure.mpr ⟨h, ?_, ?_⟩
      · rintro a rfl
        exact h.numeric hinfo
      · rintro s rfl
        rw [h.bracket s] at hinfo
        cases hinfo
  | none =>
    cases hres : R.getaddrinfo (cStr host) with
    | error status =>
      refine wp_fail.mpr ⟨h, ?_⟩
      rintro a rfl
      rw [cStr_inetNtoa, R.numeric] at hres
      cases hres
    | ok res =>
      have hnumeric : ∀ a, host = inetNtoa a → collect L res ([], []) = ([inetNtoa a], []) := by
        rintro a rfl
        rw [cStr_inetNtoa, R.numeric] at hres
        cases hres
        rfl
      have hbracket : ∀ s, host ≠ 91#8 :: s := by
        rintro s rfl
        obtain ⟨status, hstatus⟩ := R.bracket (cStr s)
        rw [cStr_bracket, hstatus] at hres
        cases hres
      refine wp_bind.mpr (wp_modify.mpr (wp_pure.mpr ?_))
      exact ⟨h.update _ hnumeric hbracket, hnumeric, hbracket⟩

def cacheAfter (L : InetText) (lookups : List (Resolver × Bytes)) : AddrInfos :=
  lookups.foldl (fun ai lookup => ((getAddrInfo L lookup.1 lookup.2).next ai).getD ai) fun _ => none

lemma sound_cacheAfter (lookups : List (Resolver × Bytes)) : Sound (cacheAfter L lookups) := by
  have hstep (ai : AddrInfos) (h : Sound ai) (lookup : Resolver × Bytes) :
      Sound (((getAddrInfo L lookup.1 lookup.2).next ai).getD ai) := by
    obtain ⟨ai', hnext, hsound⟩ := next_of_wp
      (wp_mono (getAddrInfo_wp lookup.1 h lookup.2) (fun _ _ h => h.1) fun _ _ h => h.1)
    rw [hnext]
    exact hsound
  have hrun (ai : AddrInfos) (h : Sound ai) : Sound (lookups.foldl
      (fun ai lookup => ((getAddrInfo L lookup.1 lookup.2).next ai).getD ai) ai) := by
    induction lookups generalizing ai with
    | nil => exact h
    | cons lookup lookups ih => exact ih _ (hstep ai h lookup)
  refine hrun _ ⟨?_, fun _ => rfl⟩
  intro a info h
  cases h

end

/-! ### The round trip -/

section

variable {L : InetText} {R : Resolver} {ai : AddrInfos}

def RoundTrips (L : InetText) (R : Resolver) (ai : AddrInfos) (a c : MsockaddrIn) : Prop :=
  ∃ text, a.dump L = .ok text ∧ ∃ c' ai', c.init L R text ai = .done c' ai' ∧
    c'.operatorEq a = .ok true

lemma initHost_of_ne (R : Resolver) (c : MsockaddrIn) {d : Byte} (hd : d ≠ 73#8) (s : Bytes)
    (port : BitVec 16) :
    c.initHost L R (d :: s) port = getAddrInfo L R (d :: s) >>= c.initFirst L port := by
  have hany : d :: s ≠ ascii "INADDR_ANY" := fun heq => hd (List.cons.inj heq).1
  have hany6 : d :: s ≠ ascii "INADDR6_ANY" := fun heq => hd (List.cons.inj heq).1
  rw [initHost, if_neg hany, if_neg hany6]

lemma init_of_find (R : Resolver) (c : MsockaddrIn) {s : Bytes} (hunix : s.take 5 ≠ ascii "unix@")
    {pz : ℕ} (hfind : find (ascii ":") s = some pz) :
    c.init L R s = c.initHost L R (cStr (s.take pz))
      ((atoi (cStr (s.drop (pz + 1)))).setWidth 16) := by
  rw [init, if_neg hunix, hfind]

lemma initHost_numeric (R : Resolver) (h : Sound ai) (addr : BitVec 32) (port : BitVec 16)
    (c : MsockaddrIn) : ∃ ai', c.initHost L R (inetNtoa addr) port ai =
      .done (ofInet c (swap16 port) addr).toMsockaddrIn ai' := by
  have hlookup : (getAddrInfo L R (inetNtoa addr)).wp (fun z _ => z = ([inetNtoa addr], []))
      (fun _ _ => False) ai :=
    wp_mono (getAddrInfo_wp R h (inetNtoa addr)) (fun _ _ hz => hz.2.1 addr rfl)
      fun _ _ hz => hz.2 addr rfl
  obtain ⟨z, ai', hz, rfl⟩ := done_of_wp hlookup
  have hcode : c.initHost L R (inetNtoa addr) port =
      getAddrInfo L R (inetNtoa addr) >>= c.initFirst L port := by
    obtain ⟨d, s, hs, hdigit⟩ := inetNtoa_cons addr
    rw [hs]
    refine initHost_of_ne R c ?_ s port
    rintro rfl
    exact absurd hdigit (by decide)
  refine ⟨ai', ?_⟩
  rw [hcode, bind_of_done hz]
  simp only [initFirst, cStr_inetNtoa, L.inetAddr_ntoa]
  rfl

lemma initHost_bracket (R : Resolver) (h : Sound ai) (s : Bytes) (port : BitVec 16)
    (c c' : MsockaddrIn) (ai' : AddrInfos) : c.initHost L R (91#8 :: s) port ai ≠ .done c' ai' := by
  have hwp := getAddrInfo_wp (L := L) R h (91#8 :: s)
  rw [initHost_of_ne R c (by decide)]
  rw [wp] at hwp
  split at hwp
  · exact absurd rfl (hwp.2.2 s)
  · next hthrown =>
      rw [bind_of_thrown hthrown]
      rintro ⟨⟩
  · exact hwp.elim

lemma roundTrips_unix (R : Resolver) (ai : AddrInfos) {a : Address} (ha : a.family = 1#8)
    (hview : a.view = .unix (cStr a.sunPath)) (hzero : 0#8 ∈ a.sunPath) (c : MsockaddrIn) :
    RoundTrips L R ai a.toMsockaddrIn c := by
  have hlen : (cStr a.sunPath).length < 108 := by
    have := length_cStr_lt hzero
    simpa [sunPath] using this
  have hprefix : (ascii "unix@").length = 5 := rfl
  have hdump : a.dump L = .ok (ascii "unix@" ++ cStr a.sunPath) := by
    rw [dump, if_pos ha, snprintf200, take_of_length_le]
    rw [length_append, hprefix]
    omega
  have hpath : cStr (cStr a.sunPath) = cStr a.sunPath := cStr_eq_self fun b => mem_cStr
  have hinit : c.init L R (ascii "unix@" ++ cStr a.sunPath) ai =
      .done (ofPath c (cStr a.sunPath) hlen).toMsockaddrIn ai := by
    rw [init, take_left' hprefix, if_pos rfl, drop_left' hprefix,
      strcpyPath, hpath, bind_of_done (require_of_pos (by omega) ai)]
    rfl
  refine ⟨_, hdump, _, ai, hinit, ?_⟩
  rw [← Address.Equal, equal_iff, hview, view_ofPath _ _ fun b => mem_cStr]

lemma roundTrips_inet (R : Resolver) (h : Sound ai) {a : Address} (ha : a.family = 2#8)
    (hview : a.view = .inet a.sinPort a.sAddr) (c : MsockaddrIn) :
    RoundTrips L R ai a.toMsockaddrIn c := by
  have hdump : a.dump L =
      .ok (inetNtoa a.sAddr ++ 58#8 :: numeral 10 (swap16 a.sinPort).toNat) := by
    have hlen := length_inetNtoa_le a.sAddr
    have hport := length_portText_le (swap16 a.sinPort)
    have haddr : a.getStringAddr L = .ok (inetNtoa a.sAddr) := by
      rw [getStringAddr, ha]
      rfl
    rw [dump, ha, if_neg (by decide), if_pos rfl, haddr]
    show Except.ok (snprintf200 (cStr (inetNtoa a.sAddr) ++ [58#8] ++
      numeral 10 (swap16 a.sinPort).toNat)) = _
    rw [cStr_inetNtoa, append_assoc, singleton_append, snprintf200, take_of_length_le]
    rw [length_append, length_cons]
    omega
  obtain ⟨d, s, hs, hdigit⟩ := inetNtoa_cons a.sAddr
  have hunix : (inetNtoa a.sAddr ++ 58#8 :: numeral 10 (swap16 a.sinPort).toNat).take 5
      ≠ ascii "unix@" := by
    rw [hs, cons_append, take_succ_cons]
    intro heq
    rw [(List.cons.inj heq).1] at hdigit
    exact absurd hdigit (by decide)
  have hcolon : 58#8 ∉ inetNtoa a.sAddr := not_mem_inetNtoa (by decide) (by decide) _
  obtain ⟨ai', hhost⟩ := initHost_numeric (L := L) R h a.sAddr (swap16 a.sinPort) c
  have hinit : c.init L R (inetNtoa a.sAddr ++ 58#8 :: numeral 10 (swap16 a.sinPort).toNat) ai =
      .done (ofInet c a.sinPort a.sAddr).toMsockaddrIn ai' := by
    have hrest : (inetNtoa a.sAddr ++ 58#8 :: numeral 10 (swap16 a.sinPort).toNat).drop
        ((inetNtoa a.sAddr).length + 1) = numeral 10 (swap16 a.sinPort).toNat := by simp
    rw [init_of_find R c hunix (find_singleton hcolon), take_left, hrest, cStr_inetNtoa,
      atoi_portText, hhost, swap16_swap16]
  refine ⟨_, hdump, _, ai', hinit, ?_⟩
  rw [← Address.Equal, equal_iff, hview, view_ofInet]

lemma not_roundTrips_inet6 (R : Resolver) (h : Sound ai) {a : Address} (ha : a.family = 10#8)
    (c : MsockaddrIn) : ¬ RoundTrips L R ai a.toMsockaddrIn c := by
  rintro ⟨text, hdump, c', ai', hinit, -⟩
  obtain ⟨s, rfl⟩ : ∃ s, text = 91#8 :: s := by
    rw [dump, ha, getStringAddr, ha] at hdump
    exact ⟨_, (Except.ok.inj hdump).symm⟩
  have hunix : (91#8 :: s).take 5 ≠ ascii "unix@" := by
    rw [take_succ_cons]
    intro heq
    exact absurd (List.cons.inj heq).1 (by decide)
  have hcolon : find (ascii ":") (91#8 :: s) = (find (ascii ":") s).map (· + 1) := by
    exact find_cons_neg fun hpre => absurd (cons_prefix_cons.mp hpre).1 (by decide)
  cases hfind : find (ascii ":") s with
  | none =>
    rw [hfind, Option.map_none] at hcolon
    rw [init, if_neg hunix, hcolon] at hinit
    cases hinit
  | some pz =>
    rw [hfind, Option.map_some] at hcolon
    rw [init_of_find R c hunix hcolon, take_succ_cons, cStr_bracket] at hinit
    exact initHost_bracket R h _ _ c c' ai' hinit

/-- **Which addresses are read back from their texts**: those that are no IPv6 addresses. -/
theorem text_round_trip_iff (L : InetText) (lookups : List (Resolver × Bytes)) (R : Resolver)
    (a : Address) (c : MsockaddrIn) :
    RoundTrips L R (cacheAfter L lookups) a.toMsockaddrIn c ↔ a.family ≠ 10#8 := by
  have hsound := sound_cacheAfter (L := L) lookups
  constructor
  · intro hround ha
    exact not_roundTrips_inet6 R hsound ha c hround
  · intro hne
    rcases a.cases_family with ⟨ha, hview, hzero⟩ | ⟨ha, hview⟩ | ⟨ha, -⟩
    · exact roundTrips_unix R _ ha hview hzero c
    · exact roundTrips_inet R hsound ha hview c
    · exact absurd ha hne

/-- The address `[::1]:80`. -/
def loopback6 : Address :=
  Address.ofInet6 ⟨Vector.replicate 112 0#8⟩ (swap16 80#16)
    ⟨#[0, 0, 0, 0, 0, 0, 0, 0, 0, 0, 0, 0, 0, 0, 0, 1], rfl⟩

/-- **An IPv6 address is not read back**: `[::1]:80`. -/
theorem loopback6_not_read_back :
    loopback6.family = 10#8 ∧ ∀ (L : InetText) (lookups : List (Resolver × Bytes)) (R : Resolver)
      (c : MsockaddrIn), ¬ RoundTrips L R (cacheAfter L lookups) loopback6.toMsockaddrIn c := by
  have hfamily : loopback6.family = 10#8 := by
    have hsin : loopback6.sinFamily = 10#16 := Address.sinFamily_filled (by omega) _ _ _
    rw [MsockaddrIn.family, hsin]
    rfl
  refine ⟨hfamily, fun L lookups R c => ?_⟩
  exact not_roundTrips_inet6 R (sound_cacheAfter lookups) hfamily c

end

/-- `inet_addr` for four numbers with dots between them. -/
def dottedAddr (s : Bytes) : BitVec 32 :=
  match undotted s with
  | [b₀, b₁, b₂, b₃] => b₃ ++ b₂ ++ b₁ ++ b₀
  | _ => 0xFFFFFFFF#32

lemma dottedAddr_inetNtoa : dottedAddr (inetNtoa a) = a := by
  have hne : bytes32 a ≠ [] := cons_ne_nil _ _
  rw [dottedAddr, inetNtoa, undotted_dotted hne]
  exact load32_bytes32 a

def dottedText (T : Inet6Text) : InetText where
  toInet6Text := T
  inetAddr := dottedAddr
  inetAddr_ntoa := dottedAddr_inetNtoa

def numericOnly : Resolver where
  time := 0
  timeStored := 0
  getaddrinfo s :=
    if s = inetNtoa (dottedAddr s) then .ok [.inet (dottedAddr s)]
    else .error "Name or service not known"
  numeric a := by rw [dottedAddr_inetNtoa, if_pos rfl]
  bracket s := ⟨_, if_neg (Ne.symm (inetNtoa_ne (by decide) s _))⟩

example (T : Inet6Text) : Nonempty InetText ∧ Nonempty Resolver := ⟨⟨dottedText T⟩, ⟨numericOnly⟩⟩

end Megatron
