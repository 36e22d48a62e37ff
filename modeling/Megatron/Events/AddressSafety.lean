import Megatron.Corelib.SockaddrText
import Megatron.Events.Classes
import Megatron.Library.Metered

/-!
What the decoding of addresses writes to memory. `msockaddr_in::unpack` and `msockaddr_in::init`
copy a path with `strcpy` into `sun_path`, an array of 108 characters in an object of 112 bytes.
-/

namespace Megatron

open Library List Metered Prog
open Library.Http (ascii)

namespace MsockaddrIn

lemma store_nil (a : MsockaddrIn) (off : ℕ) : a.store off [] = a := by
  obtain ⟨v⟩ := a
  rw [store, MsockaddrIn.mk.injEq]
  refine Vector.ext fun i hi => ?_
  rw [Vector.getElem_ofFn, if_neg (by simp), byteAt, dif_pos hi]

def Terminated (a : MsockaddrIn) : Prop := a.sinFamily = 1#16 → 0#8 ∈ a.sunPath

lemma terminated_of_ne {a : MsockaddrIn} (h : a.sinFamily ≠ 1#16) : a.Terminated :=
  fun hfamily => absurd hfamily h

lemma zero_not_mem_sunPath (a : MsockaddrIn) {p : Bytes} (h : 108 ≤ p.length)
    (hp : ∀ c ∈ p, c ≠ 0#8) : 0#8 ∉ (a.store 2 (p ++ [0#8])).sunPath := by
  rw [sunPath, mem_map]
  rintro ⟨i, hi, hzero⟩
  have hi' : i < 108 := mem_range.mp hi
  have hin : i < p.length := by omega
  rw [byteAt_store _ _ _ _ (by omega), if_pos (by simp; omega), Nat.add_sub_cancel_left,
    getD_eq_getElem?_getD, List.getElem?_append_left hin, List.getElem?_eq_getElem hin,
    Option.getD_some] at hzero
  exact hp _ (getElem_mem hin) hzero

def withPath (a : MsockaddrIn) (p : Bytes) : MsockaddrIn :=
  (a.store 0 (bytes16 1#16)).store 2 (p ++ [0#8])

lemma withPath_terminated_iff (a : MsockaddrIn) {p : Bytes} (hp : ∀ c ∈ p, c ≠ 0#8) :
    (a.withPath p).Terminated ↔ p.length < 108 := by
  have hfamily : (a.withPath p).sinFamily = 1#16 := by
    rw [withPath, sinFamily_store _ le_rfl, sinFamily_store_self]
  constructor
  · intro h
    by_contra hlen
    exact zero_not_mem_sunPath _ (by omega) hp (h hfamily)
  · intro h _
    exact Address.zero_mem_sunPath_store _ h

end MsockaddrIn

/-! ### The decoders -/

structure Filling where
  input : InBuffer
  objects : List MsockaddrIn

/-- Code that reads from an `inBuffer` into objects. -/
abbrev Decoding (α : Type) := Prog Filling Exn α

def readInput {α : Type} (g : Reader α) : Decoding α := fun s =>
  match g s.input with
  | (.ok a, b) => .done a ⟨b, s.objects⟩
  | (.error e, b) => .thrown e ⟨b, s.objects⟩

def skipInput {α : Type} (g : Reader α) : Decoding Unit := do
  let _ ← readInput g
  pure ()

def finish (a : MsockaddrIn) : Decoding Unit :=
  Prog.modify fun s => { s with objects := s.objects ++ [a] }

section

variable (T : Inet6Text)

/-- `msockaddr_in::unpack` into the object `a`. -/
def unpackInto (a : MsockaddrIn) : Decoding Unit := do
  let fam ← readInput (getInt 8)
  if fam = 1#8 then do
    let s ← readInput getPSTR
    let a' ← MsockaddrIn.strcpyPath (a.store 0 (bytes16 1#16)) s
    finish a'
  else if fam = 2#8 then do
    let port ← readInput getPN
    let addr ← readInput getPN
    finish (Address.filled a 2#16 (swap16 (port.setWidth 16)) 4
      (bytes32 (swap32 (addr.setWidth 32))))
  else if fam = 10#8 then do
    let port ← readInput getPN
    let s ← readInput getPSTR
    finish (match T.inetPton (cStr s) with
      | some addr => Address.filled a 10#16 (swap16 (port.setWidth 16)) 8 addr.toList
      | none => Address.filled a 10#16 (swap16 (port.setWidth 16)) 8 [])
  else Prog.fail (.commonError ("2 invalid family " ++ toString fam.toNat ++ " "))

/-- The constructor `msockaddr_in()`. -/
def newAddress : MsockaddrIn := (MsockaddrIn.mk (Vector.replicate 112 0#8)).store 0 (bytes16 2#16)

/-- One step after the other, `n` times. -/
def times {μ : Type → Type} [Monad μ] (m : μ Unit) : ℕ → μ Unit
  | 0 => pure ()
  | n + 1 => do
      m
      times m n

inductive Member where
  | int (w : ℕ)
  | string
  | buffer
  | strings
  | address
  | addresses
  deriving DecidableEq, Repr

def EventClass.members : EventClass → List Member
  | .ping => [.int 32, .string, .int 16, .addresses, .int 64, .int 32, .int 32]
  | .pong => [.int 32, .address, .string, .int 32, .int 64, .int 32]
  | .toplinkDeliverREQ => [.int 32, .buffer, .strings]
  | .toplinkDeliverRSP => [.buffer]
  | .subscribeNotifications => []
  | .updateConfigREQ => [.string]
  | .updateConfigRSP => [.string]
  | .registerMyRefferrerNodeREQ => [.addresses, .address, .int 32]
  | .registerCloudRoot => [.addresses, .address]
  | .getReferrersREQ => [.addresses]
  | .getReferrersRSP => [.addresses]
  | .getCloudRootsREQ => [.addresses]
  | .getCloudRootsRSP => [.addresses]
  | .logMessage => [.string, .string]
  | .unsubscribe => []
  | .subscribe => []
  | .sendMessage => [.string, .string]
  | .notifySubscriber => [.string, .string]
  | .getBindPortsREQ => []
  | .getBindPortsRSP => [.addresses]
  | .jsonREQ => [.string, .string, .string]
  | .jsonRSP => [.int 32, .string, .string, .string]
  | .errorRSP => [.int 32, .string]
  | .testREQ => [.int 32, .int 32, .string, .string]
  | .testRSP => [.int 32, .int 32, .string, .string]
  | .addTaskREQ => [.int 32, .string, .int 32]
  | .addTaskRSP => [.int 32, .string, .int 32]

/-- Every address is read into an object of its own. -/
def Member.decode : Member → Decoding Unit
  | .int w => skipInput (getInt w)
  | .string => skipInput getPSTR
  | .buffer => skipInput getContainer
  | .strings => skipInput getStringSet
  | .address => unpackInto T newAddress
  | .addresses => do
      let n ← readInput (getInt 32)
      times (unpackInto T newAddress) n.toNat

def decodeMembers : List Member → Decoding Unit
  | [] => pure ()
  | m :: ms => do
      m.decode T
      decodeMembers ms

/-- The method `unpack` of an event class. -/
def decodeBody (c : EventClass) : Decoding Unit := decodeMembers T c.members

/-! ### The paths in the input -/

abbrev Recorded (α : Type) := Metered Byte Exn Bytes α

def unnoted {α : Type} (g : Reader α) : Recorded α := fun b => (g b, [])

def skipUnnoted {α : Type} (g : Reader α) : Recorded Unit := do
  let _ ← unnoted g
  pure ()

def recordAddr : Recorded Unit := do
  let fam ← unnoted (getInt 8)
  if fam = 1#8 then do
    let s ← unnoted getPSTR
    Metered.note [cStr s]
  else if fam = 2#8 then do
    let _ ← unnoted getPN
    let _ ← unnoted getPN
    pure ()
  else if fam = 10#8 then do
    let _ ← unnoted getPN
    let _ ← unnoted getPSTR
    pure ()
  else Metered.fail (.commonError ("2 invalid family " ++ toString fam.toNat ++ " "))

def Member.record : Member → Recorded Unit
  | .int w => skipUnnoted (getInt w)
  | .string => skipUnnoted getPSTR
  | .buffer => skipUnnoted getContainer
  | .strings => skipUnnoted getStringSet
  | .address => recordAddr
  | .addresses => do
      let n ← unnoted (getInt 32)
      times recordAddr n.toNat

def recordMembers : List Member → Recorded Unit
  | [] => pure ()
  | m :: ms => do
      m.record
      recordMembers ms

def recordBody (c : EventClass) : Recorded Unit := recordMembers c.members

end

/-! ### The reader is the `unpack` of the class -/

section

variable {α : Type}

@[simp] lemma erase_unnoted (g : Reader α) : (unnoted g).erase = g := rfl

def dropValue (g : Reader α) : Reader Unit := g >>= fun _ => pure ()

lemma erase_skipUnnoted (g : Reader α) : (skipUnnoted g).erase = dropValue g :=
  erase_bind _ _

lemma erase_recordAddr (T : Inet6Text) : recordAddr.erase = dropValue (unpackAddr T) := by
  simp only [recordAddr, dropValue, unpackAddr, erase_bind, erase_unnoted, erase_ite, erase_note,
    erase_pure, erase_fail, Reader.bind_assoc]
  refine congrArg (getInt 8 >>= ·) (funext fun fam => ?_)
  split_ifs
  · simp only [Reader.bind_assoc, Reader.pure_bind]
  · simp only [Reader.bind_assoc, Reader.pure_bind]
  · simp only [Reader.bind_assoc, Reader.pure_bind]
  · rfl

lemma erase_times {g : Recorded Unit} {get : Reader α} (h : g.erase = dropValue get) (n : ℕ) :
    (times g n).erase = dropValue (Reader.repeatN get n) := by
  induction n with
  | zero => rfl
  | succ n ih =>
    simp only [times, erase_bind, h, ih, Reader.repeatN, dropValue, Reader.bind_assoc,
      Reader.pure_bind]

lemma erase_addresses (T : Inet6Text) :
    Member.addresses.record.erase = dropValue (getSeq (unpackAddr T)) := by
  simp only [Member.record, erase_bind, erase_unnoted, erase_times (erase_recordAddr T),
    dropValue, getSeq, Reader.bind_assoc]

lemma dropValue_getAddrSet (T : Inet6Text) :
    dropValue (getAddrSet T) = dropValue (getSeq (unpackAddr T)) := by
  simp only [dropValue, getAddrSet, Reader.bind_assoc, Reader.pure_bind]

lemma erase_recordMembers_cons (m : Member) (ms : List Member) :
    (recordMembers (m :: ms)).erase = m.record.erase >>= fun _ => (recordMembers ms).erase := by
  rw [recordMembers, erase_bind]

lemma erase_recordBody (T : Inet6Text) (c : EventClass) :
    (recordBody c).erase = dropValue (unpackBody T c) := by
  have haddr : Member.address.record.erase = dropValue (unpackAddr T) := erase_recordAddr T
  have haddrs := erase_addresses T
  have hset : Member.addresses.record.erase = dropValue (getAddrSet T) :=
    haddrs.trans (dropValue_getAddrSet T).symm
  have hint (w : ℕ) : (Member.int w).record.erase = dropValue (getInt w) := erase_skipUnnoted _
  have hstring : Member.string.record.erase = dropValue getPSTR := erase_skipUnnoted _
  have hbuffer : Member.buffer.record.erase = dropValue getContainer := erase_skipUnnoted _
  have hstrings : Member.strings.record.erase = dropValue getStringSet := erase_skipUnnoted _
  have hnil : (recordMembers []).erase = (pure () : Reader Unit) := rfl
  -- two classes have a vector of addresses, the others a set
  cases c
  case getReferrersRSP =>
    simp only [recordBody, EventClass.members, erase_recordMembers_cons, haddrs, hnil,
      dropValue, unpackBody, Reader.bind_assoc, Reader.pure_bind]
  case getCloudRootsRSP =>
    simp only [recordBody, EventClass.members, erase_recordMembers_cons, haddrs, hnil,
      dropValue, unpackBody, Reader.bind_assoc, Reader.pure_bind]
  all_goals
    simp only [recordBody, EventClass.members, erase_recordMembers_cons, hint, hstring, hbuffer,
      hstrings, haddr, hset, hnil, dropValue, unpackBody, Reader.bind_assoc, Reader.pure_bind]

end

/-! ### The program follows the reader -/

def AllTerminated (s : Filling) : Prop := ∀ a ∈ s.objects, a.Terminated

/-- Every object that is filled has a terminated path. -/
def Safe (m : Decoding Unit) (s : Filling) : Prop :=
  m.wp (fun _ => AllTerminated) (fun _ => AllTerminated) s

def Fit (ps : List Bytes) : Prop := ∀ p ∈ ps, p.length < 108

def outcomeOf (objects : List MsockaddrIn) : Except Exn Unit × InBuffer → Outcome Filling Exn Unit
  | (.ok _, b) => .done () ⟨b, objects⟩
  | (.error e, b) => .thrown e ⟨b, objects⟩

structure Follows (m : Decoding Unit) (g : Recorded Unit) : Prop where
  fits : ∀ b objects, Fit (g.trace b) → ∃ new : List MsockaddrIn, (∀ a ∈ new, a.Terminated) ∧
    m ⟨b, objects⟩ = outcomeOf (objects ++ new) (g.erase b)
  cut : ∀ b objects, ¬ Fit (g.trace b) → ¬ Safe m ⟨b, objects⟩

section

variable {m n : Decoding Unit} {g h : Recorded Unit} {s : Filling}

variable {b b' : InBuffer} {e : Exn} {objects : List MsockaddrIn} {r : Except Exn Unit × InBuffer}
variable {α : Type} (T : Inet6Text) (a : MsockaddrIn)

lemma wp_outcomeOf (hm : m s = outcomeOf objects r) : Safe m s ↔ ∀ a ∈ objects, a.Terminated := by
  obtain ⟨e | x, b⟩ := r
  · rw [Safe, wp, hm]
    rfl
  · rw [Safe, wp, hm]
    rfl

lemma Follows.not_safe (hm : Follows m g) (hs : ¬ AllTerminated s) : ¬ Safe m s := by
  by_cases hfit : Fit (g.trace s.input)
  · obtain ⟨new, -, hrun⟩ := hm.fits s.input s.objects hfit
    intro hsafe
    rw [wp_outcomeOf hrun] at hsafe
    exact hs fun a ha => hsafe a (mem_append_left new ha)
  · exact hm.cut s.input s.objects hfit

/-- **What the input says of a whole decoder.** -/
lemma Follows.safe_iff (hm : Follows m g) (b : InBuffer) : Safe m ⟨b, []⟩ ↔ Fit (g.trace b) := by
  constructor
  · intro hsafe
    by_contra hfit
    exact hm.cut b [] hfit hsafe
  · intro hfit
    obtain ⟨new, hnew, hrun⟩ := hm.fits b [] hfit
    rw [wp_outcomeOf hrun]
    exact hnew

lemma fit_append {ps qs : List Bytes} : Fit (ps ++ qs) ↔ Fit ps ∧ Fit qs := forall_mem_append

lemma not_safe_bind (hm : ¬ Safe m s) (hn : Follows n h) : ¬ Safe (do m; n) s := by
  intro hsafe
  rw [Safe, wp_bind] at hsafe
  refine hm (wp_mono hsafe (fun _ s' hs' => ?_) fun _ _ hs' => hs')
  by_contra hterm
  exact hn.not_safe hterm hs'

lemma Follows.pure : Follows (pure ()) (pure ()) where
  fits b objects _ := ⟨[], by simp, by rw [append_nil]; rfl⟩
  cut b objects hfit := absurd (fun p hp => absurd hp not_mem_nil) hfit

lemma Follows.bind (hm : Follows m g) (hn : Follows n h) : Follows (do m; n) (do g; h) := by
  constructor
  · intro b objects hfit
    rcases hg : g b with ⟨⟨e | x, b'⟩, t⟩
    · have htrace : (do g; h : Recorded Unit).trace b = g.trace b := by
        rw [trace, bind_of_error hg, trace, hg]
      obtain ⟨new, hnew, hrun⟩ := hm.fits b objects (by rwa [htrace] at hfit)
      refine ⟨new, hnew, ?_⟩
      rw [erase, hg] at hrun
      rw [bind_of_thrown hrun, erase, bind_of_error hg]
      rfl
    · have htrace : (do g; h : Recorded Unit).trace b = g.trace b ++ h.trace b' := by
        rw [trace, bind_of_ok hg, trace, hg]
        rfl
      rw [htrace, fit_append] at hfit
      obtain ⟨new, hnew, hrun⟩ := hm.fits b objects hfit.1
      obtain ⟨new', hnew', hrun'⟩ := hn.fits b' (objects ++ new) hfit.2
      refine ⟨new ++ new', forall_mem_append.mpr ⟨hnew, hnew'⟩, ?_⟩
      rw [erase, hg] at hrun
      rw [bind_of_done hrun, hrun', append_assoc, erase, erase, bind_of_ok hg]
  · intro b objects hfit
    by_cases hfirst : Fit (g.trace b)
    · -- the path that does not fit is met by the second step
      obtain ⟨new, -, hrun⟩ := hm.fits b objects hfirst
      rcases hg : g b with ⟨⟨e | x, b'⟩, t⟩
      · refine absurd ?_ hfit
        rw [trace, bind_of_error hg]
        rwa [trace, hg] at hfirst
      · rw [erase, hg] at hrun
        rw [Safe, wp, bind_of_done hrun, ← wp, ← Safe]
        refine hn.cut b' (objects ++ new) fun hsecond => hfit ?_
        rw [trace, bind_of_ok hg]
        rw [trace, hg] at hfirst
        exact fit_append.mpr ⟨hfirst, hsecond⟩
    · exact not_safe_bind (hm.cut b objects hfirst) hn

lemma readInput_of_ok {get : Reader α} {x : α} (h : get b = (.ok x, b'))
    (objects : List MsockaddrIn) : readInput get ⟨b, objects⟩ = .done x ⟨b', objects⟩ := by
  rw [readInput, h]

lemma readInput_of_error {get : Reader α} (h : get b = (.error e, b'))
    (objects : List MsockaddrIn) : readInput get ⟨b, objects⟩ = .thrown e ⟨b', objects⟩ := by
  rw [readInput, h]

lemma unnoted_bind_of_ok {get : Reader α} {x : α}
    (h : get b = (.ok x, b')) (k : α → Recorded Unit) : (unnoted get >>= k) b = k x b' := by
  have hnoted : unnoted get b = ((.ok x, b'), []) := by rw [unnoted, h]
  rw [bind_of_ok hnoted]
  rfl

lemma unnoted_bind_of_error {get : Reader α} (h : get b = (.error e, b')) (k : α → Recorded Unit) :
    (unnoted get >>= k) b = ((.error e, b'), []) := by
  have hnoted : unnoted get b = ((.error e, b'), []) := by rw [unnoted, h]
  rw [bind_of_error hnoted]

lemma Follows.read (get : Reader α) {f : α → Decoding Unit} {k : α → Recorded Unit}
    (hf : ∀ x, Follows (f x) (k x)) : Follows (readInput get >>= f) (unnoted get >>= k) := by
  constructor
  · intro b objects hfit
    rcases hget : get b with ⟨e | x, b'⟩
    · refine ⟨[], by simp, ?_⟩
      rw [bind_of_thrown (readInput_of_error hget objects), erase,
        unnoted_bind_of_error hget, append_nil]
      rfl
    · rw [trace, unnoted_bind_of_ok hget] at hfit
      obtain ⟨new, hnew, hrun⟩ := (hf x).fits b' objects hfit
      refine ⟨new, hnew, ?_⟩
      rw [bind_of_done (readInput_of_ok hget objects), hrun, erase, erase, unnoted_bind_of_ok hget]
  · intro b objects hfit
    rcases hget : get b with ⟨e | x, b'⟩
    · rw [trace, unnoted_bind_of_error hget] at hfit
      exact absurd (fun p hp => absurd hp not_mem_nil) hfit
    · rw [trace, unnoted_bind_of_ok hget] at hfit
      rw [Safe, wp, bind_of_done (readInput_of_ok hget objects), ← wp, ← Safe]
      exact (hf x).cut b' objects hfit

lemma Follows.times (hm : Follows m g) (k : ℕ) : Follows (times m k) (times g k) := by
  induction k with
  | zero => exact Follows.pure
  | succ k ih => exact hm.bind ih

lemma Follows.finish {a : MsockaddrIn} (ha : a.Terminated) :
    Follows (Megatron.finish a) (Pure.pure ()) where
  fits b objects _ := ⟨[a], by simpa using ha, rfl⟩
  cut b objects hfit := absurd (fun p hp => absurd hp not_mem_nil) hfit

lemma Follows.path (s : Bytes) :
    Follows (do let a' ← MsockaddrIn.strcpyPath (a.store 0 (bytes16 1#16)) s; Megatron.finish a')
      (note [cStr s]) := by
  have hzero : ∀ c ∈ cStr s, c ≠ 0#8 := fun c hc => Address.mem_cStr hc
  constructor
  · intro b objects hfit
    have hlen : (cStr s).length < 108 := hfit (cStr s) (mem_singleton.mpr rfl)
    refine ⟨[a.withPath (cStr s)], ?_, ?_⟩
    · rw [forall_mem_singleton]
      exact (a.withPath_terminated_iff hzero).mpr hlen
    · rw [MsockaddrIn.strcpyPath, bind_assoc, bind_of_done (require_of_pos (by omega) _)]
      rfl
  · intro b objects hfit hsafe
    rw [Safe, wp_bind, MsockaddrIn.strcpyPath, wp_bind, wp_require] at hsafe
    have hterm : (a.withPath (cStr s)).Terminated :=
      hsafe.2 _ (mem_append_right objects (mem_singleton.mpr rfl))
    rw [a.withPath_terminated_iff hzero] at hterm
    refine hfit fun p hp => ?_
    rwa [mem_singleton.mp hp]

lemma Follows.fail (e : Exn) : Follows (fail e) (fail e) where
  fits b objects _ := ⟨[], by simp, by rw [append_nil]; rfl⟩
  cut b objects hfit := absurd (fun p hp => absurd hp not_mem_nil) hfit

lemma terminated_filled {family : BitVec 16} (hfamily : family ≠ 1#16) (port : BitVec 16)
    {off : ℕ} (hoff : 4 ≤ off) (bs : Bytes) : (Address.filled a family port off bs).Terminated := by
  refine MsockaddrIn.terminated_of_ne ?_
  rwa [Address.sinFamily_filled hoff]

lemma follows_unpackInto : Follows (unpackInto T a) recordAddr := by
  refine Follows.read _ fun fam => ?_
  split_ifs
  · exact Follows.read _ fun s => Follows.path a s
  · refine Follows.read _ fun port => Follows.read _ fun addr => Follows.finish ?_
    exact terminated_filled a (by decide) _ le_rfl _
  · refine Follows.read _ fun port => Follows.read _ fun s => Follows.finish ?_
    cases T.inetPton (cStr s) with
    | none | some addr => exact terminated_filled a (by decide) _ (by omega) _
  · exact Follows.fail _

lemma follows_member (m : Member) : Follows (m.decode T) m.record := by
  cases m with
  | int w | string | buffer | strings => exact Follows.read _ fun _ => Follows.pure
  | address => exact follows_unpackInto T newAddress
  | addresses => exact Follows.read _ fun n => (follows_unpackInto T newAddress).times n.toNat

lemma follows_members (ms : List Member) : Follows (decodeMembers T ms) (recordMembers ms) := by
  induction ms with
  | nil => exact Follows.pure
  | cons m ms ih => exact (follows_member T m).bind ih

end

lemma unpackInto_eq {T : Inet6Text} {a a' : MsockaddrIn} {b b' : InBuffer}
    (h : a.unpack T b = (.ok (some a'), b')) (objects : List MsockaddrIn) :
    unpackInto T a ⟨b, objects⟩ = .done () ⟨b', objects ++ [a']⟩ := by
  have hfinish {x : MsockaddrIn} {c : InBuffer}
      (hx : (pure (some x) : Reader (Option MsockaddrIn)) c = (.ok (some a'), b')) :
      Megatron.finish x ⟨c, objects⟩ = .done () ⟨b', objects ++ [a']⟩ := by
    obtain ⟨hok, rfl⟩ := Prod.mk.inj hx
    rw [Option.some.inj (Except.ok.inj hok)]
    rfl
  rw [MsockaddrIn.unpack] at h
  obtain ⟨fam, b₁, hfam, h⟩ := Reader.bind_eq_ok h
  rw [unpackInto, bind_of_done (readInput_of_ok hfam objects)]
  split_ifs at h ⊢ with h1 h2 h10
  · obtain ⟨s, b₂, hs, h⟩ := Reader.bind_eq_ok h
    rw [bind_of_done (readInput_of_ok hs objects)]
    split_ifs at h with hlen
    · subst h1
      rw [MsockaddrIn.strcpyPath, bind_assoc, bind_of_done (require_of_pos (by omega) _)]
      exact hfinish h
    · exact absurd (Prod.mk.inj h).1 (by simp)
  · obtain ⟨port, b₂, hport, h⟩ := Reader.bind_eq_ok h
    obtain ⟨addr, b₃, haddr, h⟩ := Reader.bind_eq_ok h
    rw [bind_of_done (readInput_of_ok hport objects), bind_of_done (readInput_of_ok haddr objects)]
    subst h2
    exact hfinish h
  · obtain ⟨port, b₂, hport, h⟩ := Reader.bind_eq_ok h
    obtain ⟨s, b₃, hs, h⟩ := Reader.bind_eq_ok h
    rw [bind_of_done (readInput_of_ok hport objects), bind_of_done (readInput_of_ok hs objects)]
    subst h10
    cases hpton : T.inetPton (cStr s) with
    | none =>
      rw [hpton] at h
      rw [Address.filled, MsockaddrIn.store_nil]
      exact hfinish h
    | some addr =>
      rw [hpton] at h
      exact hfinish h
  · exact absurd (Prod.mk.inj h).1 (by simp)

/-! ### Texts -/

section

variable {L : InetText} {R : Resolver} {ai : AddrInfos}

def InitSafe (L : InetText) (R : Resolver) (ai : AddrInfos) (a : MsockaddrIn) (s : Bytes) : Prop :=
  (a.init L R s).wp (fun a' _ => a'.Terminated) (fun _ _ => True) ai

lemma getAddrInfo_defined (host : Bytes) :
    (getAddrInfo L R host).wp (fun _ _ => True) (fun _ _ => True) ai := by
  refine wp_bind.mpr (wp_state.mpr ?_)
  cases cached R ai host with
  | some addrs => trivial
  | none =>
    cases R.getaddrinfo (cStr host) with
    | error status => trivial
    | ok res => exact wp_bind.mpr (wp_modify.mpr trivial)

lemma initHost_safe (a : MsockaddrIn) (host : Bytes) (port : BitVec 16) :
    (a.initHost L R host port).wp (fun a' _ => a'.Terminated) (fun _ _ => True) ai := by
  rw [MsockaddrIn.initHost]
  split_ifs
  · exact terminated_filled a (by decide) _ le_rfl _
  · exact terminated_filled a (by decide) _ (by omega) _
  · refine wp_bind.mpr (wp_mono (getAddrInfo_defined host) ?_ fun _ _ h => h)
    rintro ⟨_ | ⟨first, z4⟩, _ | ⟨first6, z6⟩⟩ ai' -
    · trivial
    · show (match L.inetPton (cStr first6) with
        | some addr => Address.filled a 10#16 (swap16 port) 8 addr.toList
        | none => Address.filled a 10#16 (swap16 port) 8 []).Terminated
      cases L.inetPton (cStr first6) with
      | none | some addr => exact terminated_filled a (by decide) _ (by omega) _
    · exact terminated_filled a (by decide) _ le_rfl _
    · exact terminated_filled a (by decide) _ le_rfl _

lemma initSafe_iff (a : MsockaddrIn) (s : Bytes) :
    InitSafe L R ai a s ↔ (s.take 5 = ascii "unix@" → (cStr (s.drop 5)).length < 108) := by
  have hzero : ∀ c ∈ cStr (s.drop 5), c ≠ 0#8 := fun c hc => Address.mem_cStr hc
  rw [InitSafe, MsockaddrIn.init]
  by_cases hunix : s.take 5 = ascii "unix@"
  · rw [if_pos hunix, MsockaddrIn.strcpyPath, wp_bind, wp_require, wp_pure]
    show _ ∧ (a.withPath (cStr (s.drop 5))).Terminated ↔ _
    rw [a.withPath_terminated_iff hzero]
    constructor
    · intro h _
      exact h.2
    · intro h
      have hlen := h hunix
      exact ⟨by omega, hlen⟩
  · rw [if_neg hunix]
    refine iff_of_true ?_ fun h => absurd h hunix
    cases find (ascii ":") s with
    | none => trivial
    | some pz => exact initHost_safe a _ _

end

/-- **Which bytes and texts are decoded safely**: those with paths of fewer than 108 characters. -/
theorem address_decoding_safe_iff (T : Inet6Text) (L : InetText) (R : Resolver) (ai : AddrInfos)
    (a : MsockaddrIn) (b : InBuffer) (c : EventClass) (s : Bytes) :
    (Safe (unpackInto T a) ⟨b, []⟩ ↔ Fit (recordAddr.trace b)) ∧
      (Safe (decodeBody T c) ⟨b, []⟩ ↔ Fit ((recordBody c).trace b)) ∧
      (InitSafe L R ai a s ↔ (s.take 5 = ascii "unix@" → (cStr (s.drop 5)).length < 108)) :=
  ⟨(follows_unpackInto T a).safe_iff b, (follows_members T c.members).safe_iff b, initSafe_iff a s⟩

def longPath : Bytes := List.replicate 110 97#8

/-- **A long path leaves its object.** -/
theorem long_path_leaves_object :
    (∀ T a, ¬ Safe (unpackInto T a) ⟨InBuffer.ofBytes (1#8 :: 110#8 :: longPath), []⟩) ∧
      (∀ T, ¬ Safe (decodeBody T .pong) ⟨InBuffer.ofBytes (0#8 :: 1#8 :: 110#8 :: longPath), []⟩) ∧
      ∀ L R ai a, ¬ InitSafe L R ai a (ascii "unix@" ++ longPath) := by
  have hlong : ¬ Fit [longPath] := by
    intro hfit
    have hlen := hfit longPath (mem_singleton.mpr rfl)
    rw [longPath, length_replicate] at hlen
    omega
  have haddr : recordAddr.trace (InBuffer.ofBytes (1#8 :: 110#8 :: longPath)) = [longPath] := by
    decide +kernel
  have hpong : (recordBody .pong).trace (InBuffer.ofBytes (0#8 :: 1#8 :: 110#8 :: longPath)) =
      [longPath] := by
    decide +kernel
  refine ⟨fun T a => ?_, fun T => ?_, fun L R ai a hsafe => ?_⟩
  · refine (follows_unpackInto T a).cut _ _ ?_
    rwa [haddr]
  · refine (follows_members T _).cut _ _ ?_
    rwa [← recordBody, hpong]
  · have hlen := (initSafe_iff a _).mp hsafe (by decide)
    exact absurd hlen (by decide +kernel)

end Megatron
