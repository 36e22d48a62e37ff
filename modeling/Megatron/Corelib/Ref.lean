import Mathlib.Algebra.Group.Nat.Defs
import Mathlib.Data.List.Nodup
import Mathlib.Logic.Relation
import Megatron.Library.Runs

/-!
Reference counting (`corelib/REF.h`). A getter lies in a variable or is a member of an object;
deleting an object destroys its members, and these release their objects in turn.
-/

namespace Megatron.Ref

open Library List Function

/-- An address that `new` returns again is another object. -/
abbrev Obj := ℕ

/-- Where a `REF_getter` lies: in the object `home`, or in none. -/
structure Place where
  home : Option Obj
  slot : ℕ
  deriving DecidableEq, Repr

/-- Objects and getters that live, and the deleted objects with the count at their end. -/
structure Heap where
  refCount : Obj → Option (BitVec 32)
  live : List Place
  ptr : Place → Option Obj
  deleted : List (Obj × BitVec 32)

namespace Heap

def setCount (h : Heap) (o : Obj) (c : Option (BitVec 32)) : Heap :=
  { h with refCount := update h.refCount o c }

def erase (h : Heap) (g : Place) : Heap := { h with live := h.live.erase g }

/-- The pointer of a getter, which must not have been destroyed. -/
def read (h : Heap) (g : Place) : Option (Option Obj) :=
  if g ∈ h.live then some (h.ptr g) else none

def increfcount (h : Heap) : Option Obj → Option Heap
  | none => some h
  | some o => (h.refCount o).map fun c => h.setCount o (some (c + 1))

/-- The method `decrefcount`. The depth `n` is bounded by the number of getters. -/
def decrefcount : ℕ → Option Obj → Heap → Option Heap
  | 0, _, _ => none
  | _ + 1, none, h => some h
  | n + 1, some o, h =>
    (h.refCount o).bind fun prev =>
      if prev = 1 then
        -- `delete`: the members, the last one first, and then `~Refcountable`.
        (foldlM (fun h g => (h.read g).bind fun p => decrefcount n p (h.erase g))
          (h.setCount o (some (prev - 1))) (h.live.filter (·.home = some o))).bind fun h =>
            (h.refCount o).map fun c => { h.setCount o none with deleted := (o, c) :: h.deleted }
      else some (h.setCount o (some (prev - 1)))

def construct (h : Heap) (g : Place) (p : Option Obj) : Option Heap :=
  increfcount { h with live := g :: h.live, ptr := update h.ptr g p } p

/-- The destructor, where the life of a getter ends. -/
def destroy (h : Heap) (g : Place) : Option Heap :=
  (h.read g).bind fun p => decrefcount (h.live.length + 1) p (h.erase g)

/-- The operator `=`. It writes the pointer that `decrefcount` may have set to `NULL`. -/
def assign (h : Heap) (l r : Place) : Option Heap :=
  if l = r then some h
  else do
    let h ← h.increfcount (← h.read r)
    let h ← decrefcount (h.live.length + 1) (← h.read l) h
    let p ← h.read r
    if l ∈ h.live then some { h with ptr := update h.ptr l p } else none

end Heap

inductive Op where
  | new (o : Obj)
  | construct (g : Place) (p : Option Obj)
  | copy (g bcg : Place)
  | assign (l r : Place)
  | destroy (g : Place)
  deriving DecidableEq, Repr

def step (h : Heap) : Op → Option Heap
  | .new o => some (h.setCount o (some 0))
  | .construct g p => h.construct g p
  | .copy g bcg => (h.read bcg).bind fun p => h.construct g p
  | .assign l r => h.assign l r
  | .destroy g => h.destroy g

/-! ### What is expected -/

def pointers (f : Place → Option Obj) (live : List Place) (o : Obj) : ℕ :=
  live.countP (f · = some o)

def one (p : Option Obj) (o : Obj) : ℕ := if p = some o then 1 else 0

/-- The counts agree with the getters by `f`, and with one pointer `p` more. -/
structure Sound (f : Place → Option Obj) (p : Option Obj) (h : Heap) : Prop where
  nodup : h.live.Nodup
  count : ∀ o c, h.refCount o = some c → c.toNat = pointers f h.live o + one p o
  alive : ∀ o, 0 < pointers f h.live o + one p o → h.refCount o ≠ none
  home : ∀ g ∈ h.live, ∀ o ∈ g.home, h.refCount o ≠ none
  once : (h.deleted.map Prod.fst).Nodup
  gone : ∀ d ∈ h.deleted, d.2 = 0 ∧ h.refCount d.1 = none

structure Counted (h : Heap) : Prop extends Sound h.ptr none h where
  refCount_eq : ∀ o c, h.refCount o = some c → c.toInt = pointers h.ptr h.live o

def Right (h : Heap) (op : Op) : Prop :=
  ∃ h', step h op = some h' ∧ Counted h' ∧
    ∀ o, h'.refCount o = some 0 → h.refCount o = none ∨ h.refCount o = some 0

def Owns (h : Heap) (o o' : Obj) : Prop := ∃ g ∈ h.live, g.home = some o ∧ h.ptr g = some o'

def Legal (h : Heap) (op : Op) : Prop :=
  (∀ o, ¬ Relation.TransGen (Owns h) o o) ∧
  match op with
  | .new o => h.refCount o = none ∧ o ∉ h.deleted.map Prod.fst
  | .construct g p =>
    g ∉ h.live ∧ (∀ o ∈ g.home, h.refCount o ≠ none) ∧ ∀ o ∈ p, h.refCount o ≠ none
  | .copy g bcg => g ∉ h.live ∧ (∀ o ∈ g.home, h.refCount o ≠ none) ∧ bcg ∈ h.live
  | .assign l r => l ∈ h.live ∧ r ∈ h.live
  | .destroy g => g ∈ h.live

/-- The objects that lose their last getter by `l = r`: all that point to one afterwards lie in
such objects. -/
inductive Falls (h : Heap) (l r : Place) : Option Obj → Prop
  | intro {o : Obj} (howned : ∃ g ∈ h.live, h.ptr g = some o)
      (hall : ∀ g ∈ h.live, update h.ptr l (h.ptr r) g = some o → Falls h l r g.home) :
      Falls h l r (some o)

open Classical in
/-- The getters that do not lie in such an object. -/
noncomputable def survivors (h : Heap) (l r : Place) : List Place :=
  h.live.filter fun g => ¬ Falls h l r g.home

lemma mem_survivors {h : Heap} {l r g : Place} :
    g ∈ survivors h l r ↔ g ∈ h.live ∧ ¬ Falls h l r g.home := by
  simp [survivors]

/-- `r` is still there when it is read, and no object gets 2^31 getters. -/
def Harmless (h : Heap) : Op → Prop
  | .construct g p => ∀ o, pointers (update h.ptr g p) (g :: h.live) o < 2 ^ 31
  | .copy g bcg => ∀ o, pointers (update h.ptr g (h.ptr bcg)) (g :: h.live) o < 2 ^ 31
  | .assign l r => l ≠ r → ¬ Falls h l r r.home ∧
      ∀ o, pointers (update h.ptr l (h.ptr r)) (survivors h l r) o < 2 ^ 31
  | _ => True

/-! ### Counting -/

section

variable {f : Place → Option Obj} {h : Heap} {g l : Place} {o : Obj} {p : Option Obj}
  {live : List Place}

@[simp] lemma one_none : one none o = 0 := rfl

@[simp] lemma one_self : one (some o) o = 1 := if_pos rfl

lemma pointers_update (hnodup : live.Nodup) (hl : l ∈ live) :
    pointers (update f l p) live o = pointers f (live.erase l) o + one p o := by
  have hrest : countP (update f l p · = some o) (live.erase l) = pointers f (live.erase l) o := by
    refine countP_congr fun g hg => ?_
    rw [update_of_ne ((hnodup.mem_erase_iff.mp hg).1)]
  rw [pointers, (perm_cons_erase hl).countP_eq, countP_cons, hrest, update_self]
  simp [one]

lemma pointers_erase (hnodup : live.Nodup) (hl : l ∈ live) :
    pointers f live o = pointers f (live.erase l) o + one (f l) o := by
  rw [← pointers_update hnodup hl, update_eq_self]

lemma pointers_cons (hg : g ∉ live) (hnodup : live.Nodup) :
    pointers (update f g p) (g :: live) o = pointers f live o + one p o := by
  rw [pointers_update (nodup_cons.mpr ⟨hg, hnodup⟩) mem_cons_self, erase_cons_head]

lemma pointers_eq_zero_iff : pointers f live o = 0 ↔ ∀ g ∈ live, f g ≠ some o := by
  simp [pointers]

lemma toInt_eq_iff {c : BitVec 32} {n : ℕ} : c.toInt = n ↔ c.toNat = n ∧ n < 2 ^ 31 := by
  rw [BitVec.toInt_eq_toNat_cond]
  split <;> omega

lemma Sound.pointers_of_none (hs : Sound f p h) (ho : h.refCount o = none) :
    pointers f h.live o + one p o = 0 := by
  by_contra hne
  exact hs.alive o (Nat.pos_of_ne_zero hne) ho

lemma setCount_of_ne {o' : Obj} {c : Option (BitVec 32)} (hne : o' ≠ o) :
    (h.setCount o c).refCount o' = h.refCount o' := update_of_ne hne _ _

lemma setCount_self {c : Option (BitVec 32)} : (h.setCount o c).refCount o = c := update_self ..

/-- The same numbers, told in another way. -/
lemma Sound.congr {f' ptr : Place → Option Obj} {p' : Option Obj} (hs : Sound f p h)
    (hsub : live <+ h.live)
    (heq : ∀ o, pointers f' live o + one p' o = pointers f h.live o + one p o) :
    Sound f' p' { h with live, ptr } where
  nodup := hs.nodup.sublist hsub
  count o c hc := (hs.count o c hc).trans (heq o).symm
  alive o ho := hs.alive o (heq o ▸ ho)
  home g hg := hs.home g (hsub.subset hg)
  once := hs.once
  gone := hs.gone

lemma Sound.erase (hs : Sound f none h) (hg : g ∈ h.live) : Sound f (f g) (h.erase g) :=
  hs.congr erase_sublist fun _ => (pointers_erase hs.nodup hg).symm

lemma Sound.notMem_deleted (hs : Sound f p h) (ho : h.refCount o ≠ none) :
    o ∉ h.deleted.map Prod.fst := by
  intro hmem
  obtain ⟨d, hd, rfl⟩ := mem_map.mp hmem
  exact ho (hs.gone d hd).2

/-- A new count of one object, or its end. -/
lemma Sound.setCount (hs : Sound f p h) {p' : Option Obj} {c' : Option (BitVec 32)}
    (ho : o ∉ h.deleted.map Prod.fst) (hcount : ∀ c ∈ c', c.toNat = pointers f h.live o + one p' o)
    (hend : c' = none → pointers f h.live o + one p' o = 0 ∧ ∀ g ∈ h.live, g.home ≠ some o)
    (hp : ∀ o', o' ≠ o → one p' o' = one p o') : Sound f p' (h.setCount o c') := by
  refine ⟨hs.nodup, fun o' c hc => ?_, fun o' hpos => ?_, fun g hg o' ho' => ?_, hs.once, ?_⟩
  · rcases eq_or_ne o' o with rfl | hne
    · exact hcount c (setCount_self.symm.trans hc)
    · rw [hp o' hne]
      exact hs.count o' c ((setCount_of_ne hne).symm.trans hc)
  · rcases eq_or_ne o' o with rfl | hne
    · rw [setCount_self]
      exact fun hnone => absurd (hend hnone).1 (Nat.ne_of_gt hpos)
    · rw [setCount_of_ne hne]
      exact hs.alive o' (hp o' hne ▸ hpos)
  · rcases eq_or_ne o' o with rfl | hne
    · rw [setCount_self]
      exact fun hnone => (hend hnone).2 g hg ho'
    · rw [setCount_of_ne hne]
      exact hs.home g hg o' ho'
  · intro d hd
    rw [setCount_of_ne fun heq => ho (mem_map.mpr ⟨d, hd, heq⟩)]
    exact hs.gone d hd

/-- The end of a deletion. -/
lemma Sound.delete (hs : Sound f none h) (ho : h.refCount o = some 0)
    (hmembers : ∀ g ∈ h.live, g.home ≠ some o) :
    Sound f none { h.setCount o none with deleted := (o, 0) :: h.deleted } := by
  have hnot := hs.notMem_deleted (ho ▸ Option.some_ne_none _)
  have hend : Sound f none (h.setCount o none) :=
    hs.setCount hnot nofun (fun _ => ⟨(hs.count o 0 ho).symm, hmembers⟩) fun _ _ => rfl
  refine ⟨hend.nodup, hend.count, hend.alive, hend.home, nodup_cons.mpr ⟨hnot, hs.once⟩, ?_⟩
  exact forall_mem_cons.mpr ⟨⟨rfl, setCount_self⟩, hend.gone⟩

end

/-! ### Deletions inside of deletions -/

section

variable {f ptr : Place → Option Obj} {L : List Place} {P Q : Obj → Prop}

/-- While objects are released, from the getters `L` on. -/
structure During (f ptr : Place → Option Obj) (L : List Place) (P : Obj → Prop) (p : Option Obj)
    (h : Heap) : Prop extends Sound f p h where
  sub : h.live <+ L
  same : h.ptr = ptr
  left : ∀ g ∈ L, g ∉ h.live → ∃ k ∈ g.home, P k

structure Released (x : Option Obj) (h h' : Heap) : Prop where
  sub : h'.live <+ h.live
  zero : ∀ o, h'.refCount o = some 0 ↔ h.refCount o = some 0
  left : ∀ g ∈ h.live, g ∉ h'.live → ∃ k ∈ g.home, x = some k ∨ h.refCount k ≠ some 0

def Releases (f ptr : Place → Option Obj) (L : List Place) (P Q : Obj → Prop) (n : ℕ)
    (D : Option Obj → Heap → Option Heap) : Prop :=
  ∀ p h, h.live.length < n → During f ptr L P p h → (∀ o ∈ p, Q o) →
    ∃ h', D p h = some h' ∧ During f ptr L P none h' ∧ Released none h h'

variable (hf : ∀ g ∈ L, ∀ k ∈ g.home, P k → f g = ptr g) (hQ : ∀ g ∈ L, ∀ o ∈ ptr g, Q o)
  (hP : ∀ o, Q o → (∀ g ∈ L, f g = some o → ∃ k ∈ g.home, P k) → P o)

include hf hQ in
lemma During.members {n : ℕ} {D : Option Obj → Heap → Option Heap}
    (hD : Releases f ptr L P Q n D) {o : Obj} (ho : P o) {ms : List Place} {h : Heap}
    (hd : During f ptr L P none h) (hlen : h.live.length ≤ n) (hzero : h.refCount o = some 0)
    (hms : ∀ g ∈ ms, g ∈ h.live ∧ g.home = some o) (hnodup : ms.Nodup) :
    ∃ h', foldlM (fun h g => (h.read g).bind fun p => D p (h.erase g)) h ms = some h' ∧
      During f ptr L P none h' ∧ Released (some o) h h' ∧ ∀ g ∈ ms, g ∉ h'.live := by
  induction ms generalizing h with
  | nil => exact ⟨h, rfl, hd, ⟨.refl _, fun _ => .rfl, fun g hg hno => absurd hg hno⟩, by simp⟩
  | cons g ms ih =>
    obtain ⟨⟨hg, hhome⟩, hms⟩ := forall_mem_cons.mp hms
    obtain ⟨hgms, hnodup⟩ := nodup_cons.mp hnodup
    have hgL := hd.sub.subset hg
    have hfg : f g = h.ptr g := by rw [hd.same, hf g hgL o hhome ho]
    have hd₁ : During f ptr L P (h.ptr g) (h.erase g) := by
      refine ⟨hfg ▸ hd.toSound.erase hg, erase_sublist.trans hd.sub, hd.same, ?_⟩
      intro g' hg' hno
      rcases eq_or_ne g' g with rfl | hne
      · exact ⟨o, hhome, ho⟩
      · exact hd.left g' hg' fun hin => hno ((mem_erase_of_ne hne).mpr hin)
    have hlen₁ : (h.erase g).live.length < n := by
      have hpos := length_pos_of_mem hg
      rw [Heap.erase, length_erase_of_mem hg]
      omega
    obtain ⟨h₂, hrun, hd₂, hr⟩ := hD _ _ hlen₁ hd₁ (hd.same ▸ hQ g hgL)
    have hin : ∀ g' ∈ h.live, g' ≠ g → g'.home = some o → g' ∈ h₂.live := by
      intro g' hg' hne hh
      by_contra hno
      obtain ⟨k, hk, hx | hx⟩ := hr.left g' ((mem_erase_of_ne hne).mpr hg') hno
      · cases hx
      · cases hh.symm.trans hk
        exact hx hzero
    have hms₂ : ∀ g' ∈ ms, g' ∈ h₂.live ∧ g'.home = some o := fun g' hg' =>
      ⟨hin g' (hms g' hg').1 (fun heq => hgms (heq ▸ hg')) (hms g' hg').2, (hms g' hg').2⟩
    have hsub := hr.sub.trans (erase_sublist (a := g))
    obtain ⟨h₃, hrest, hd₃, hr₃, hgone⟩ :=
      ih hd₂ (Nat.le_trans hsub.length_le hlen) ((hr.zero o).mpr hzero) hms₂ hnodup
    refine ⟨h₃, ?_, hd₃, ⟨hr₃.sub.trans hsub, fun q => (hr₃.zero q).trans (hr.zero q), ?_⟩, ?_⟩
    · rw [foldlM_cons, Heap.read, if_pos hg, Option.bind_some, hrun]
      exact hrest
    · intro g' hg' hno
      by_cases hin₂ : g' ∈ h₂.live
      · obtain ⟨k, hk, hx⟩ := hr₃.left g' hin₂ hno
        exact ⟨k, hk, hx.imp_right fun hne heq => hne ((hr.zero k).mpr heq)⟩
      · rcases eq_or_ne g' g with rfl | hne
        · exact ⟨o, hhome, .inl rfl⟩
        · obtain ⟨k, hk, hx | hx⟩ := hr.left g' ((mem_erase_of_ne hne).mpr hg') hin₂
          · cases hx
          · exact ⟨k, hk, .inr hx⟩
    · refine forall_mem_cons.mpr ⟨fun hg₃ => ?_, hgone⟩
      exact hd.nodup.not_mem_erase (hr.sub.subset (hr₃.sub.subset hg₃))

include hf hQ hP in
lemma releases (n : ℕ) : Releases f ptr L P Q n (Heap.decrefcount n) := by
  induction n with
  | zero => exact fun p h hlen => absurd hlen (Nat.not_lt_zero _)
  | succ n ih =>
    rintro (_ | o) h hlen hd hq
    · exact ⟨h, rfl, hd, .refl _, fun _ => .rfl, fun g hg hno => absurd hg hno⟩
    have halive : h.refCount o ≠ none := hd.alive o (by rw [one_self]; omega)
    obtain ⟨prev, hprev⟩ := Option.ne_none_iff_exists'.mp halive
    have hcount : prev.toNat = pointers f h.live o + 1 := by
      simpa using hd.count o prev hprev
    have hs₁ : Sound f none (h.setCount o (some (prev - 1))) := by
      refine hd.toSound.setCount (hd.notMem_deleted halive) ?_ nofun fun o' hne => ?_
      · rintro c ⟨⟩
        rw [one_none]
        bv_omega
      · simp [one, hne.symm]
    have hd₁ : During f ptr L P none (h.setCount o (some (prev - 1))) :=
      ⟨hs₁, hd.sub, hd.same, hd.left⟩
    have hne : ∀ {k}, k ≠ o → (h.setCount o (some (prev - 1))).refCount k = h.refCount k :=
      fun hk => setCount_of_ne hk
    simp only [Heap.decrefcount, hprev, Option.bind_some]
    by_cases hone : prev = 1
    · have hself : (h.setCount o (some (prev - 1))).refCount o = some 0 := by
        simp [Heap.setCount, hone]
      have hnone : pointers f h.live o = 0 := by
        rw [hone] at hcount
        exact (Nat.succ.inj hcount).symm
      have ho : P o := by
        refine hP o (hq o rfl) fun g hg hfg => hd.left g hg fun hlive => ?_
        exact pointers_eq_zero_iff.mp hnone g hlive hfg
      obtain ⟨h₂, hrun, hd₂, hr, hgone⟩ :=
        hd₁.members hf hQ ih ho (Nat.le_of_lt_succ hlen) hself
          (fun g hg => (mem_filter.mp hg).imp_right of_decide_eq_true) (hd.nodup.filter _)
      have hzero := (hr.zero o).mpr hself
      have hmembers : ∀ g ∈ h₂.live, g.home ≠ some o := fun g hg hh =>
        hgone g (mem_filter.mpr ⟨hr.sub.subset hg, decide_eq_true hh⟩) hg
      refine ⟨{ h₂.setCount o none with deleted := (o, 0) :: h₂.deleted }, ?_,
        ⟨hd₂.toSound.delete hzero hmembers, hd₂.sub, hd₂.same, hd₂.left⟩, hr.sub, ?_, ?_⟩
      · rw [if_pos hone]
        erw [hrun]
        rw [Option.bind_some, hzero]
        rfl
      · intro q
        rcases eq_or_ne q o with rfl | hq'
        · simp [Heap.setCount, hprev, hone]
        · exact (Eq.congr_left (setCount_of_ne hq')).trans ((hr.zero q).trans (by rw [hne hq']))
      · intro g hg hno
        obtain ⟨k, hk, hx⟩ := hr.left g hg hno
        refine ⟨k, hk, .inr fun hk0 => ?_⟩
        have hko : k ≠ o := by
          rintro rfl
          rw [hprev, hone] at hk0
          cases hk0
        rcases hx with hx | hx
        · exact hko (Option.some.inj hx).symm
        · exact hx ((hne hko).trans hk0)
    · rw [if_neg hone]
      refine ⟨_, rfl, hd₁, .refl _, fun q => ?_, fun g hg hno => absurd hg hno⟩
      rcases eq_or_ne q o with rfl | hq'
      · simp only [Heap.setCount, update_self, hprev, Option.some.injEq]
        constructor <;> intro heq <;> bv_omega
      · rw [hne hq']

end

/-! ### The operations -/

section

variable {h h' : Heap} {g l r : Place} {p k : Option Obj} {op : Op}

lemma Counted.pointers_lt (hc : Counted h) (o : Obj) : pointers h.ptr h.live o < 2 ^ 31 := by
  cases ho : h.refCount o with
  | none =>
    have hzero := hc.toSound.pointers_of_none ho
    omega
  | some c => exact (toInt_eq_iff.mp (hc.refCount_eq o c ho)).2

lemma Counted.pointee (hc : Counted h) (hg : g ∈ h.live) : ∀ o ∈ h.ptr g, h.refCount o ≠ none :=
  fun _ ho hnone => pointers_eq_zero_iff.mp (hc.toSound.pointers_of_none hnone) g hg ho

lemma Counted.increfcount (hc : Counted h) (hp : ∀ o ∈ p, h.refCount o ≠ none) (live : List Place)
    (q : Place → Option Obj) : ∃ R, ({ h with live, ptr := q } : Heap).increfcount p =
        some { h with refCount := R, live, ptr := q } ∧
      Sound h.ptr p { h with refCount := R } ∧
      ∀ o, (R o = some 0 → h.refCount o = some 0) ∧ (R o = none → h.refCount o = none) := by
  rcases p with _ | o
  · exact ⟨h.refCount, rfl, hc.toSound, fun _ => ⟨id, id⟩⟩
  · obtain ⟨c, hco⟩ := Option.ne_none_iff_exists'.mp (hp o rfl)
    have hcount := hc.count o c hco
    have hlt := hc.pointers_lt o
    have hsucc : (c + 1).toNat = pointers h.ptr h.live o + one (some o) o := by
      rw [one_none] at hcount
      rw [one_self]
      bv_omega
    refine ⟨_, by rw [Heap.increfcount, hco]; rfl, ?_, fun o' => ?_⟩
    · refine hc.toSound.setCount (hc.notMem_deleted (hp o rfl)) ?_ nofun fun o' hne => ?_
      · rintro _ ⟨⟩
        exact hsucc
      · simp [one, hne.symm]
    · rcases eq_or_ne o' o with rfl | hne
      · rw [update_self]
        refine ⟨fun hz => ?_, nofun⟩
        rw [Option.some.inj hz, one_self] at hsucc
        cases hsucc
      · rw [update_of_ne hne]
        exact ⟨id, id⟩

lemma right_iff_of_sound (hstep : step h op = some h') (hs : Sound h'.ptr none h')
    (hzero : ∀ o, h'.refCount o = some 0 → h.refCount o = none ∨ h.refCount o = some 0) :
    Right h op ↔ ∀ o, pointers h'.ptr h'.live o < 2 ^ 31 := by
  constructor
  · rintro ⟨h₁, h₁step, hc, -⟩
    cases hstep.symm.trans h₁step
    exact hc.pointers_lt
  · intro hlt
    exact ⟨h', hstep, ⟨hs, fun o c hc => toInt_eq_iff.mpr ⟨hs.count o c hc, hlt o⟩⟩, hzero⟩

lemma Counted.construct (hc : Counted h) (hg : g ∉ h.live)
    (hhome : ∀ o ∈ g.home, h.refCount o ≠ none) (hp : ∀ o ∈ p, h.refCount o ≠ none)
    (hop : step h op = h.construct g p) :
    Right h op ↔ ∀ o, pointers (update h.ptr g p) (g :: h.live) o < 2 ^ 31 := by
  obtain ⟨R, hR, hs, hzero⟩ := hc.increfcount hp (g :: h.live) (update h.ptr g p)
  refine right_iff_of_sound (hop.trans hR)
    ⟨nodup_cons.mpr ⟨hg, hs.nodup⟩, ?_, ?_, ?_, hs.once, hs.gone⟩ fun o ho => .inr ((hzero o).1 ho)
  · intro o c ho
    rw [pointers_cons hg hs.nodup]
    exact hs.count o c ho
  · intro o ho
    rw [pointers_cons hg hs.nodup] at ho
    exact hs.alive o ho
  · exact forall_mem_cons.mpr ⟨fun o ho hnone => hhome o ho ((hzero o).2 hnone), hs.home⟩

lemma Falls.reaches (hfall : Falls h l r k) :
    ∃ x o, h.ptr l = some x ∧ k = some o ∧ Relation.ReflTransGen (Owns h) x o := by
  induction hfall with
  | @intro o howned hall ih =>
    obtain ⟨g, hg, hgo⟩ := howned
    by_cases hgl : g = l
    · exact ⟨o, o, hgl ▸ hgo, rfl, .refl⟩
    · obtain ⟨x, k, hx, hk, hpath⟩ := ih g hg (by rwa [update_of_ne hgl])
      exact ⟨x, o, hx, rfl, hpath.tail ⟨g, hg, hk, hgo⟩⟩

lemma not_falls_home (hacyclic : ∀ o, ¬ Relation.TransGen (Owns h) o o) (hl : l ∈ h.live) :
    ¬ Falls h l r l.home := by
  intro hfall
  obtain ⟨x, o, hx, ho, hpath⟩ := hfall.reaches
  exact hacyclic x (.tail' hpath ⟨l, hl, ho, hx⟩)

lemma Falls.deleted (hs : Sound (update h.ptr l (h.ptr r)) none h')
    (hsub : h'.live ⊆ h.live) (hzero : ∀ o, h'.refCount o = some 0 → h.refCount o = some 0)
    (hc : Counted h) (hfall : Falls h l r k) : ∃ o ∈ k, h'.refCount o = none := by
  induction hfall with
  | @intro o howned hall ih =>
    refine ⟨o, rfl, ?_⟩
    by_contra halive
    obtain ⟨c, hco⟩ := Option.ne_none_iff_exists'.mp halive
    have hnone : pointers (update h.ptr l (h.ptr r)) h'.live o = 0 := by
      refine pointers_eq_zero_iff.mpr fun g hg hgo => ?_
      obtain ⟨k, hk, hgone⟩ := ih g (hsub hg) hgo
      exact hs.home g hg k hk hgone
    have hcount := hs.count o c hco
    rw [hnone] at hcount
    obtain rfl : c = 0 := BitVec.eq_of_toNat_eq hcount
    have hempty := hc.count o 0 (hzero o hco)
    obtain ⟨g, hg, hgo⟩ := howned
    exact pointers_eq_zero_iff.mp hempty.symm g hg hgo

lemma Counted.assign (hc : Counted h) (hacyclic : ∀ o, ¬ Relation.TransGen (Owns h) o o)
    (hl : l ∈ h.live) (hr : r ∈ h.live) (hne : l ≠ r) :
    Right h (.assign l r) ↔ Harmless h (.assign l r) := by
  obtain ⟨R, hR, hs, hzero⟩ := hc.increfcount (hc.pointee hr) h.live h.ptr
  have hd : During (update h.ptr l (h.ptr r)) h.ptr h.live (fun o => Falls h l r (some o))
      (h.ptr l) { h with refCount := R } := by
    refine ⟨hs.congr (.refl _) fun o => ?_, .refl _, rfl, fun g hg hno => absurd hg hno⟩
    rw [pointers_update hs.nodup hl, pointers_erase hs.nodup hl, Nat.add_right_comm]
  have hf : ∀ g ∈ h.live, ∀ k ∈ g.home, Falls h l r (some k) →
      update h.ptr l (h.ptr r) g = h.ptr g := by
    intro g hg k hk hfall
    refine update_of_ne ?_ _ _
    rintro rfl
    exact not_falls_home hacyclic hl (hk ▸ hfall)
  have hP : ∀ o, (∃ g ∈ h.live, h.ptr g = some o) → (∀ g ∈ h.live,
      update h.ptr l (h.ptr r) g = some o → ∃ k ∈ g.home, Falls h l r (some k)) →
      Falls h l r (some o) := by
    intro o howned hall
    refine .intro howned fun g hg hgo => ?_
    obtain ⟨k, hk, hfall⟩ := hall g hg hgo
    exact hk ▸ hfall
  obtain ⟨h₂, hrun, hd₂, hrel⟩ := releases hf (fun g hg o ho => ⟨g, hg, ho⟩) hP _ (h.ptr l)
    { h with refCount := R } (Nat.lt_succ_self _) hd fun o ho => ⟨l, hl, ho⟩
  have hzero₂ : ∀ o, h₂.refCount o = some 0 → h.refCount o = some 0 := fun o ho =>
    (hzero o).1 ((hrel.zero o).mp ho)
  have hmem : ∀ g ∈ h.live, g ∈ h₂.live ↔ ¬ Falls h l r g.home := by
    intro g hg
    constructor
    · intro hg₂ hfall
      obtain ⟨k, hk, hgone⟩ := hfall.deleted hd₂.toSound hd₂.sub.subset hzero₂ hc
      exact hd₂.home g hg₂ k hk hgone
    · intro hfall
      by_contra hno
      obtain ⟨k, hk, hk'⟩ := hd₂.left g hg hno
      exact hfall (hk ▸ hk')
  have hl₂ := (hmem l hl).mpr (not_falls_home hacyclic hl)
  have heval : step h (.assign l r) = (h₂.read r).bind fun p =>
      if l ∈ h₂.live then some { h₂ with ptr := update h₂.ptr l p } else none := by
    simp [step, Heap.assign, hne, Heap.read, hl, hr, hR, hrun]
  by_cases hfall : Falls h l r r.home
  · constructor
    · rintro ⟨h', hstep, -⟩
      rw [heval, Heap.read, if_neg fun hr₂ => (hmem r hr).mp hr₂ hfall] at hstep
      cases hstep
    · exact fun hharmless => absurd hfall (hharmless hne).1
  · rw [Heap.read, if_pos ((hmem r hr).mpr hfall), Option.bind_some, if_pos hl₂, hd₂.same] at heval
    have hperm : h₂.live ~ survivors h l r := by
      have hnodup : (survivors h l r).Nodup := hc.nodup.filter _
      refine (perm_ext_iff_of_nodup hd₂.nodup hnodup).mpr fun g => ?_
      rw [mem_survivors]
      exact ⟨fun hg => ⟨hd₂.sub.subset hg, (hmem g (hd₂.sub.subset hg)).mp hg⟩,
        fun hg => (hmem g hg.1).mpr hg.2⟩
    have hsame (o : Obj) : pointers (update h.ptr l (h.ptr r)) h₂.live o =
        pointers (update h.ptr l (h.ptr r)) (survivors h l r) o := hperm.countP_eq _
    refine (right_iff_of_sound heval (hd₂.toSound.congr (.refl _) fun _ => rfl)
      fun o ho => .inr (hzero₂ o ho)).trans ?_
    simp only [hsame]
    exact ⟨fun hlt _ => ⟨hfall, hlt⟩, fun hharmless => (hharmless hne).2⟩

lemma right_iff_harmless (hc : Counted h) (hlegal : Legal h op) : Right h op ↔ Harmless h op := by
  obtain ⟨hacyclic, hlegal⟩ := hlegal
  cases op with
  | new o =>
    have hnone := hc.toSound.pointers_of_none hlegal.1
    have hstep : step h (.new o) = some (h.setCount o (some 0)) := rfl
    refine (right_iff_of_sound hstep (hc.toSound.setCount hlegal.2 ?_ nofun fun _ _ => rfl)
      fun o' ho' => ?_).trans (iff_of_true hc.pointers_lt trivial)
    · rintro _ ⟨⟩
      exact hnone.symm
    · rcases eq_or_ne o' o with rfl | hne
      · exact .inl hlegal.1
      · exact .inr ((setCount_of_ne hne).symm.trans ho')
  | construct g p => exact hc.construct hlegal.1 hlegal.2.1 hlegal.2.2 rfl
  | copy g bcg =>
    obtain ⟨hg, hhome, hbcg⟩ := hlegal
    refine hc.construct hg hhome (hc.pointee hbcg) ?_
    rw [step, Heap.read, if_pos hbcg, Option.bind_some]
  | assign l r =>
    by_cases hne : l = r
    · have hstep : step h (.assign l r) = some h := if_pos hne
      exact (right_iff_of_sound hstep hc.toSound fun _ => .inr).trans
        (iff_of_true hc.pointers_lt fun hlr => absurd hne hlr)
    · exact hc.assign hacyclic hlegal.1 hlegal.2 hne
  | destroy g =>
    obtain ⟨h', hrun, hd, hrel⟩ := releases (P := fun _ => True) (Q := fun _ => True)
      (fun _ _ _ _ _ => rfl) (fun _ _ _ _ => trivial) (fun _ _ _ => trivial)
      (h.live.length + 1) (h.ptr g) (h.erase g)
      (Nat.lt_succ_of_le erase_sublist.length_le)
      ⟨hc.toSound.erase hlegal, .refl _, rfl, fun g hg hno => absurd hg hno⟩ fun _ _ => trivial
    have hstep : step h (.destroy g) = some h' := by
      rw [step, Heap.destroy, Heap.read, if_pos hlegal, Option.bind_some, hrun]
    refine (right_iff_of_sound hstep (hd.same ▸ hd.toSound) fun o ho => .inr ?_).trans
      (iff_of_true (fun o => ?_) trivial)
    · exact (hrel.zero o).mp ho
    · have hle := (hd.sub.trans erase_sublist).countP_le (p := fun g => h.ptr g = some o)
      rw [hd.same]
      exact Nat.lt_of_le_of_lt hle (hc.pointers_lt o)

end

/-- **Reference counting is right as long as every operation is harmless.** -/
theorem refs_right_iff (h : { h : Heap // Counted h }) (ops : List Op) :
    Meets step (fun h op => Legal h op ∧ Right h op) h ops ↔
      Meets step (fun h op => Legal h op ∧ Harmless h op) h ops := by
  refine Meets.congr (fun h op hc => and_congr_right (right_iff_harmless hc)) ?_ h.2
  rintro h op h' - ⟨-, h₁, hstep, hc, -⟩ hstep'
  cases hstep.symm.trans hstep'
  exact hc

/-- **The assignment `n = n->parent`** deletes the node and then reads its member. -/
theorem parent_read_after_delete : let n : Place := ⟨none, 0⟩
    let parent : Place := ⟨some 0, 0⟩
    ∃ h, run step ⟨fun _ => none, [], fun _ => none, []⟩
        [.new 0, .new 1, .construct n (some 0), .construct parent (some 1)] = some h ∧
      Legal h (.assign n parent) ∧ step h (.assign n parent) = none := by
  refine ⟨_, rfl, ⟨fun o ho => ?_, by decide⟩, by decide⟩
  obtain ⟨_, ⟨g, hg, hhome, -⟩, -⟩ := Relation.TransGen.head'_iff.mp ho
  obtain ⟨_, -, g', hg', hhome', hptr⟩ := Relation.TransGen.tail'_iff.mp ho
  have hfirst : 0 = o := by
    rcases mem_pair.mp hg with rfl | rfl
    · exact Option.some.inj hhome
    · cases hhome
  rcases mem_pair.mp hg' with rfl | rfl
  · cases hfirst.trans (Option.some.inj hptr).symm
  · cases hhome'

end Megatron.Ref
