import Megatron.Corelib.IoBuffer
import Megatron.Library.Ordered

/-!
The stream operators `<<` and `>>` of `corelib/ioBuffer.h` for types built by
nesting: integers, `bool`, `std::string`, `REF_getter<refbuffer>`, `std::pair`
and the containers `vector`, `list`, `deque`, `set` and `map`.
-/

namespace Megatron

open Library List

/-- A C++ type with the operators `<`, `<<` and `>>`. -/
structure Streamable where
  /-- A `set` or `map` lists its entries in order. -/
  Val : Type
  /-- The operator `<`. -/
  lt : Val → Val → Bool
  strict : StrictTotal lt
  /-- The bytes that `<<` appends to an `outBuffer`. -/
  put : Val → Bytes
  get : (ℕ → ℕ) → Reader Val
  addrs : Val → Set ℕ
  /-- Equality of contents. -/
  same : Val → Val → Prop
  small : Val → Prop

namespace Streamable

/-- A written value is read back up to `same`. -/
structure Lawful (S : Streamable) : Prop where
  round_trip : ∀ {malloc : ℕ → ℕ}, Function.Injective malloc → ∀ {v : S.Val}, S.small v →
    ∀ p, (S.get malloc).Yields p (S.put v) fun v' => S.same v v' ∧
      S.addrs v' ⊆ malloc '' Set.Ioc p (p + (S.put v).length)
  eq_of_same : ∀ {v v' : S.Val}, S.same v v' → S.addrs v' = ∅ → v = v'

/-! ### Types without components -/

def plain {α : Type} (lt : α → α → Bool) (strict : StrictTotal lt) (put : α → Bytes)
    (get : Reader α) (small : α → Prop) : Streamable where
  Val := α
  lt := lt
  strict := strict
  put := put
  get _ := get
  addrs _ := ∅
  same := Eq
  small := small

lemma plain_lawful {α : Type} {lt : α → α → Bool} {strict : StrictTotal lt} {put : α → Bytes}
    {get : Reader α} {small : α → Prop} (h : ∀ v, small v → get.Decodes (put v) v) :
    (plain lt strict put get small).Lawful where
  round_trip _ v hv p := (h v hv p).mono fun _ ha => ⟨ha.symm, Set.empty_subset _⟩
  eq_of_same h _ := h

/-- The operator `<` of the integer types. -/
def intLt {w : ℕ} (signed : Bool) (a b : BitVec w) : Bool :=
  if signed then a.slt b else a.ult b

lemma intLt_strictTotal (w : ℕ) (signed : Bool) : StrictTotal (intLt (w := w) signed) := by
  cases signed with
  | false =>
    refine ⟨fun a => ?_, fun {a b c} => ?_, fun a b => ?_⟩
    · simp [intLt, BitVec.ult]
    · simp only [intLt, BitVec.ult, Bool.false_eq_true, if_false, decide_eq_true_eq]
      omega
    · simp only [intLt, BitVec.ult, Bool.false_eq_true, if_false, decide_eq_true_eq,
        ← BitVec.toNat_inj]
      omega
  | true =>
    refine ⟨fun a => ?_, fun {a b c} => ?_, fun a b => ?_⟩
    · simp [intLt, BitVec.slt]
    · simp only [intLt, BitVec.slt, if_true, decide_eq_true_eq]
      omega
    · simp only [intLt, BitVec.slt, if_true, decide_eq_true_eq, ← BitVec.toInt_inj]
      omega

/-- An integer type of `w` bits. -/
def intOf (w : ℕ) (signed : Bool) : Streamable :=
  plain (intLt signed) (intLt_strictTotal w signed) (putInt signed) (getInt w) fun _ => True

lemma intOf_lawful {w : ℕ} (hw : w ≤ 64) (signed : Bool) : (intOf w signed).Lawful :=
  plain_lawful fun v _ => getInt_decodes hw signed v

/-- The type `bool`. -/
def boolOf : Streamable :=
  plain (fun a b => !a && b) ⟨by decide, by decide, by decide⟩ putBool getBool fun _ => True

lemma boolOf_lawful : boolOf.Lawful := plain_lawful fun v _ => getBool_decodes v

/-- The type `std::string`, compared as `unsigned char`s. -/
def stringOf : Streamable :=
  plain (lexLt (intLt false)) (lexLt_strictTotal (intLt_strictTotal 8 false)) putPSTR getPSTR
    fun v => v.length < 2 ^ 32

lemma stringOf_lawful : stringOf.Lawful :=
  plain_lawful fun _ hv => getPSTR_decodes (hv.trans (by norm_num))

/-! ### References -/

private def refKey (s : Refbuffer) : ℕ × Bytes := (s.addr, s.container)

private lemma refKey_injective : Function.Injective refKey := by
  rintro ⟨a, c⟩ ⟨a', c'⟩ h
  simpa [refKey] using h

/-- The operator `<` of `REF_getter<refbuffer>` compares addresses. -/
def refLt (s s' : Refbuffer) : Bool :=
  pairLt (fun a b : ℕ => decide (a < b)) (lexLt (intLt false)) (refKey s) (refKey s')

lemma natLt_strictTotal : StrictTotal fun a b : ℕ => decide (a < b) :=
  ⟨fun a => by simp, fun {a b c} => by simp only [decide_eq_true_eq]; omega,
    fun a b => by simp only [decide_eq_true_eq]; omega⟩

lemma refLt_strictTotal : StrictTotal refLt :=
  (pairLt_strictTotal natLt_strictTotal (lexLt_strictTotal (intLt_strictTotal 8 false))).comap
    refKey_injective

/-- The type `REF_getter<refbuffer>`, without the null reference. -/
def refOf : Streamable where
  Val := Refbuffer
  lt := refLt
  strict := refLt_strictTotal
  put s := putRef (some s)
  get := getRef
  addrs s := {s.addr}
  same s s' := s'.container = s.container
  small s := s.container.length < 2 ^ 32

lemma refOf_lawful : refOf.Lawful where
  round_trip {malloc} _ s hs p := by
    refine (getRef_yields malloc (hs.trans (by norm_num)) p).mono ?_
    rintro s' ⟨hc, ha⟩
    refine ⟨hc, Set.singleton_subset_iff.mpr ⟨_, ⟨?_, ?_⟩, ha.symm⟩⟩
    · have := length_putPN_pos (sizeT s.container)
      omega
    · show _ ≤ p + (putPN (sizeT s.container) ++ s.container).length
      rw [length_append]
      omega
  eq_of_same _ h := absurd h (Set.singleton_ne_empty _)

/-- The type `std::pair`. -/
def pairOf (A B : Streamable) : Streamable where
  Val := A.Val × B.Val
  lt := pairLt A.lt B.lt
  strict := pairLt_strictTotal A.strict B.strict
  put v := A.put v.1 ++ B.put v.2
  get malloc := do
    let first ← A.get malloc
    let second ← B.get malloc
    pure (first, second)
  addrs v := A.addrs v.1 ∪ B.addrs v.2
  same v v' := A.same v.1 v'.1 ∧ B.same v.2 v'.2
  small v := A.small v.1 ∧ B.small v.2

variable {A E : Streamable} {malloc : ℕ → ℕ} {p : ℕ}

lemma pairOf_lawful {B : Streamable} (hA : A.Lawful) (hB : B.Lawful) : (pairOf A B).Lawful where
  round_trip {malloc} hm v hv p := by
    have hlen : ((pairOf A B).put v).length = (A.put v.1).length + (B.put v.2).length :=
      length_append
    refine Reader.Yields.bind (hA.round_trip hm hv.1 p) fun a ha => ?_
    refine Reader.Yields.map (hB.round_trip hm hv.2 _) fun b hb => ?_
    refine ⟨⟨ha.1, hb.1⟩, Set.union_subset (ha.2.trans ?_) (hb.2.trans ?_)⟩
    · exact Set.image_mono (Set.Ioc_subset_Ioc_right (by omega))
    · exact Set.image_mono (Set.Ioc_subset_Ioc (by omega) (by omega))
  eq_of_same h he := by
    obtain ⟨he₁, he₂⟩ := Set.union_empty_iff.mp he
    exact Prod.ext (hA.eq_of_same h.1 he₁) (hB.eq_of_same h.2 he₂)

/-! ### Sequences -/

private def entryRead (E : Streamable) (malloc : ℕ → ℕ) (x : ℕ × E.Val) (x' : E.Val) : Prop :=
  E.same x.2 x' ∧ E.addrs x' ⊆ malloc '' Set.Ioc x.1 (x.1 + (E.put x.2).length)

def addrsOf (E : Streamable) (l : List E.Val) : Set ℕ := {a | ∃ x ∈ l, a ∈ E.addrs x}

private lemma getSeq_yields_entries (hE : E.Lawful)
    (hm : Function.Injective malloc) {l : List E.Val} (hlen : l.length < 2 ^ 32)
    (hl : ∀ x ∈ l, E.small x) (p : ℕ) : (getSeq (E.get malloc)).Yields p (putSeq E.put l) fun l' =>
      List.Forall₂ (entryRead E malloc) (Reader.offset E.put (p + (putCount l.length).length) l)
        l' := getSeq_yields hlen (fun x hx q => hE.round_trip hm (hl x hx) q) p

private lemma addrsOf_subset {l l' : List E.Val} (h : List.Forall₂ (entryRead E malloc)
      (Reader.offset E.put (p + (putCount l.length).length) l) l') :
    addrsOf E l' ⊆ malloc '' Set.Ioc p (p + (putSeq E.put l).length) := by
  rintro a ⟨x', hx', ha⟩
  obtain ⟨q, x, -, ⟨-, hsub⟩, hpq, hq⟩ := Reader.exists_of_mem_offset h hx'
  refine Set.image_mono (Set.Ioc_subset_Ioc (by omega) ?_) (hsub ha)
  show q + (E.put x).length ≤ _
  rw [putSeq, length_append]
  omega

private lemma same_of_entries {l l' : List E.Val}
    (h : List.Forall₂ (entryRead E malloc) (Reader.offset E.put p l) l') :
    List.Forall₂ E.same l l' := Reader.forall₂_of_offset (fun _ _ _ h => h.1) h

private lemma eq_of_forall₂_same (hE : E.Lawful) {l l' : List E.Val}
    (h : List.Forall₂ E.same l l') (he : ∀ x ∈ l', E.addrs x = ∅) : l = l' := by
  induction h with
  | nil => rfl
  | cons hx _ ih =>
    obtain ⟨he₁, he₂⟩ := forall_mem_cons.mp he
    rw [hE.eq_of_same hx he₁, ih he₂]

private lemma addrs_eq_empty_of_mem {l : List E.Val} (h : addrsOf E l = ∅)
    {x : E.Val} (hx : x ∈ l) : E.addrs x = ∅ :=
  Set.eq_empty_of_forall_notMem fun a ha => Set.eq_empty_iff_forall_notMem.mp h a ⟨x, hx, ha⟩

def seqOf (A : Streamable) : Streamable where
  Val := List A.Val
  lt := lexLt A.lt
  strict := lexLt_strictTotal A.strict
  put := putSeq A.put
  get malloc := getSeq (A.get malloc)
  addrs := addrsOf A
  same := List.Forall₂ A.same
  small l := l.length < 2 ^ 32 ∧ ∀ x ∈ l, A.small x

lemma seqOf_lawful (hA : A.Lawful) : (seqOf A).Lawful where
  round_trip hm _ hl p :=
    (getSeq_yields_entries hA hm hl.1 hl.2 p).mono fun _ h => ⟨same_of_entries h, addrsOf_subset h⟩
  eq_of_same h he := eq_of_forall₂_same hA h fun _ hx => addrs_eq_empty_of_mem he hx

/-- The type `std::vector`; `reserve` only makes room. -/
def vectorOf (A : Streamable) : Streamable := seqOf A

/-- The type `std::list`. -/
def listOf (A : Streamable) : Streamable := seqOf A

/-- The type `std::deque`. -/
def dequeOf (A : Streamable) : Streamable := seqOf A

/-! ### Sets and maps -/

/-- An associative container sorted by `key`. -/
def assocOf (E K : Streamable) (key : E.Val → K.Val) : Streamable where
  Val := {l : List E.Val // Increasing K.lt key l}
  lt v v' := lexLt E.lt v.1 v'.1
  strict := (lexLt_strictTotal E.strict).comap Subtype.val_injective
  put v := putSeq E.put v.1
  get malloc := do
    let l ← getSeq (E.get malloc)
    pure ⟨l.foldl (fun s x => insertBy K.lt key x s) [],
      Increasing.foldl_insertBy K.strict l [] List.Pairwise.nil⟩
  addrs v := addrsOf E v.1
  same v v' := ∃ l, List.Forall₂ E.same v.1 l ∧ l.Perm v'.1
  small v := v.1.length < 2 ^ 32 ∧ ∀ x ∈ v.1, E.small x

section

variable {E K : Streamable} {key : E.Val → K.Val}

private lemma pairwise_key_ne
    (hK : K.Lawful) (hsame : ∀ {v v'}, E.same v v' → K.same (key v) (key v'))
    (haddrs : ∀ v, K.addrs (key v) ⊆ E.addrs v) {malloc : ℕ → ℕ} (hm : Function.Injective malloc)
    {l l' : List E.Val} {p : ℕ} (h : List.Forall₂ (entryRead E malloc) (Reader.offset E.put p l) l')
    (hl : l.Pairwise fun x y => key x ≠ key y) : l'.Pairwise fun x y => key x ≠ key y := by
  refine Reader.pairwise_of_offset ?_ h hl
  rintro q r x y a b ⟨hxa, hqa⟩ ⟨hyb, hrb⟩ hqr hne hab
  have hempty : K.addrs (key b) = ∅ := by
    refine Set.eq_empty_of_forall_notMem fun c hc => ?_
    obtain ⟨i, hi, hic⟩ := hqa (haddrs a (hab ▸ hc))
    obtain ⟨j, hj, hjc⟩ := hrb (haddrs b hc)
    have hij : i = j := hm (hic.trans hjc.symm)
    have hi' : i ≤ q + (E.put x).length := hi.2
    have hj' : r < j := hj.1
    omega
  have hx : key x = key b := hK.eq_of_same (hab ▸ hsame hxa) hempty
  have hy : key y = key b := hK.eq_of_same (hsame hyb) hempty
  exact hne (hx.trans hy.symm)

lemma assocOf_lawful (hE : E.Lawful) (hK : K.Lawful)
    (hsame : ∀ {v v'}, E.same v v' → K.same (key v) (key v'))
    (haddrs : ∀ v, K.addrs (key v) ⊆ E.addrs v) : (assocOf E K key).Lawful where
  round_trip {malloc} hm v hv p := by
    refine Reader.Yields.map (getSeq_yields_entries hE hm hv.1 hv.2 p) fun l' h => ?_
    have hne := pairwise_key_ne hK hsame haddrs hm h (v.2.pairwise_ne K.strict)
    have hperm : (l'.foldl (fun s x => insertBy K.lt key x s) []).Perm l' :=
      foldl_insertBy_perm K.strict l' [] hne (by simp)
    refine ⟨⟨l', same_of_entries h, hperm.symm⟩, ?_⟩
    rintro a ⟨x, hx, ha⟩
    exact addrsOf_subset h ⟨x, hperm.mem_iff.mp hx, ha⟩
  eq_of_same {v v'} h he := by
    obtain ⟨l, hl, hperm⟩ := h
    have hvl : v.1 = l := eq_of_forall₂_same hE hl fun x hx =>
      addrs_eq_empty_of_mem he (hperm.mem_iff.mp hx)
    exact Subtype.ext (v.2.eq_of_perm K.strict v'.2 (hvl ▸ hperm))

end

/-- The type `std::set`. -/
def setOf (A : Streamable) : Streamable := assocOf A A id

def mapOf (A B : Streamable) : Streamable := assocOf (pairOf A B) A Prod.fst

lemma setOf_lawful (hA : A.Lawful) : (setOf A).Lawful :=
  assocOf_lawful hA hA (fun h => h) fun _ => subset_rfl

lemma mapOf_lawful {B : Streamable} (hA : A.Lawful) (hB : B.Lawful) : (mapOf A B).Lawful :=
  assocOf_lawful (pairOf_lawful hA hB) hA (fun h => h.1) fun _ => Set.subset_union_left

end Streamable

/-! ### Type expressions -/

inductive Width where
  | w8 | w16 | w32 | w64
  deriving DecidableEq, Repr

def Width.bits : Width → ℕ
  | .w8 => 8
  | .w16 => 16
  | .w32 => 32
  | .w64 => 64

lemma Width.bits_le (w : Width) : w.bits ≤ 64 := by
  cases w <;> decide

inductive Ty where
  | int (w : Width) (signed : Bool)
  | bool
  | string
  | ref
  | pair (a b : Ty)
  | vector (a : Ty)
  | list (a : Ty)
  | deque (a : Ty)
  | set (a : Ty)
  | map (a b : Ty)
  deriving DecidableEq, Repr

open Streamable

namespace Ty

def interp : Ty → Streamable
  | .int w signed => Streamable.intOf w.bits signed
  | .bool => Streamable.boolOf
  | .string => Streamable.stringOf
  | .ref => Streamable.refOf
  | .pair a b => Streamable.pairOf a.interp b.interp
  | .vector a => Streamable.vectorOf a.interp
  | .list a => Streamable.listOf a.interp
  | .deque a => Streamable.dequeOf a.interp
  | .set a => Streamable.setOf a.interp
  | .map a b => Streamable.mapOf a.interp b.interp

lemma interp_lawful (t : Ty) : t.interp.Lawful := by
  induction t with
  | int w signed => exact intOf_lawful w.bits_le signed
  | bool => exact boolOf_lawful
  | string => exact stringOf_lawful
  | ref => exact refOf_lawful
  | pair a b iha ihb => exact pairOf_lawful iha ihb
  | vector a ih | list a ih | deque a ih => exact seqOf_lawful ih
  | set a ih => exact setOf_lawful ih
  | map a b iha ihb => exact mapOf_lawful iha ihb

def refFree : Ty → Bool
  | .int _ _ => true
  | .bool => true
  | .string => true
  | .ref => false
  | .pair a b => a.refFree && b.refFree
  | .vector a => a.refFree
  | .list a => a.refFree
  | .deque a => a.refFree
  | .set a => a.refFree
  | .map a b => a.refFree && b.refFree

private lemma addrsOf_eq_empty {E : Streamable} (h : ∀ x, E.addrs x = ∅) (l : List E.Val) :
    addrsOf E l = ∅ := by
  refine Set.eq_empty_of_forall_notMem ?_
  rintro a ⟨x, -, ha⟩
  rw [h x] at ha
  exact ha

private lemma addrs_pair_eq_empty {A B : Streamable} (hA : ∀ x, A.addrs x = ∅)
    (hB : ∀ x, B.addrs x = ∅) (v : (pairOf A B).Val) :
    (pairOf A B).addrs v = ∅ := Set.union_empty_iff.mpr ⟨hA v.1, hB v.2⟩

lemma addrs_eq_empty_of_refFree {t : Ty} (h : t.refFree = true) (v : t.interp.Val) :
    t.interp.addrs v = ∅ := by
  induction t with
  | int w signed | bool | string => rfl
  | ref => exact absurd h Bool.false_ne_true
  | pair a b iha ihb =>
    obtain ⟨ha, hb⟩ := Bool.and_eq_true_iff.mp h
    exact addrs_pair_eq_empty (iha ha) (ihb hb) v
  | vector a ih | list a ih | deque a ih => exact addrsOf_eq_empty (ih h) v
  | set a ih => exact addrsOf_eq_empty (ih h) v.1
  | map a b iha ihb =>
    obtain ⟨ha, hb⟩ := Bool.and_eq_true_iff.mp h
    exact addrsOf_eq_empty (addrs_pair_eq_empty (iha ha) (ihb hb)) v.1

end Ty

/-- **The stream operators are inverse**, up to the addresses of references. -/
theorem stream_round_trip (t : Ty) (v : t.interp.Val) (hsmall : t.interp.small v)
    (malloc : ℕ → ℕ) (hmalloc : Function.Injective malloc) (b : InBuffer)
    (rest : Bytes) (hb : b.unread = t.interp.put v ++ rest) : ∃ v', t.interp.get malloc b =
    (.ok v', b.advance (t.interp.put v).length) ∧ (b.advance (t.interp.put v).length).unread =
    rest ∧ t.interp.same v v' ∧ (t.refFree = true → v' = v) := by
  obtain ⟨v', hget, hsame, -⟩ := t.interp_lawful.round_trip hmalloc hsmall b.pos b rest rfl hb
  refine ⟨v', hget, Cursor.unread_advance_of_append hb, hsame, fun hfree => ?_⟩
  exact (t.interp_lawful.eq_of_same hsame (Ty.addrs_eq_empty_of_refFree hfree v')).symm

/-- The map from `"a"` to the vector of `-1` and `300`. -/
def sampleMap : (Ty.map .string (.vector (.int .w32 true))).interp.Val :=
  ⟨[([0x61#8], [-1#32, 300#32])], pairwise_singleton _ _⟩

theorem stream_round_trip_sampleMap :
    ∃ v', (Ty.map .string (.vector (.int .w32 true))).interp.get id
        ⟨(Ty.map .string (.vector (.int .w32 true))).interp.put sampleMap ++ [0xFF#8], 0⟩
        = (.ok v', ⟨(Ty.map .string (.vector (.int .w32 true))).interp.put sampleMap
            ++ [0xFF#8], 16⟩) ∧ v' = sampleMap := by
  have hsmall : (Ty.map .string (.vector (.int .w32 true))).interp.small sampleMap := by
    refine ⟨(by norm_num : 1 < 2 ^ 32), fun x hx => ?_⟩
    rw [mem_singleton.mp hx]
    exact ⟨(by norm_num : 1 < 2 ^ 32), (by norm_num : 2 < 2 ^ 32), fun _ _ => trivial⟩
  obtain ⟨v', hget, -, -, heq⟩ := stream_round_trip (.map .string (.vector (.int .w32 true)))
    sampleMap hsmall id Function.injective_id ⟨_, 0⟩ [0xFF#8] rfl
  exact ⟨v', hget, heq rfl⟩

end Megatron
