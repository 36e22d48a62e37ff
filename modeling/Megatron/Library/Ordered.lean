import Mathlib.Tactic
import Mathlib.Data.List.Sort

/-!
Ordered associative containers as strictly increasing lists.
-/

namespace Library

open List

variable {α κ γ : Type}

structure StrictTotal (lt : κ → κ → Bool) : Prop where
  irrefl : ∀ a, lt a a = false
  trans : ∀ {a b c}, lt a b = true → lt b c = true → lt a c = true
  tri : ∀ a b, lt a b = true ∨ a = b ∨ lt b a = true

namespace StrictTotal

variable {lt : κ → κ → Bool}

lemma asymm (h : StrictTotal lt) {a b : κ} (hab : lt a b = true) : lt b a = false := by
  by_contra hba
  have haa := h.trans hab (by simpa using hba)
  rw [h.irrefl a] at haa
  exact Bool.false_ne_true haa

lemma ne_of_lt (h : StrictTotal lt) {a b : κ} (hab : lt a b = true) : a ≠ b := by
  rintro rfl
  rw [h.irrefl a] at hab
  exact Bool.false_ne_true hab

lemma eq_of_not_lt (h : StrictTotal lt) {a b : κ} (hab : lt a b = false)
    (hba : lt b a = false) : a = b := by
  rcases h.tri a b with h' | h' | h'
  · rw [hab] at h'; exact absurd h' Bool.false_ne_true
  · exact h'
  · rw [hba] at h'; exact absurd h' Bool.false_ne_true

lemma comap (h : StrictTotal lt) {f : α → κ} (hf : Function.Injective f) :
    StrictTotal fun a b => lt (f a) (f b) where
  irrefl a := h.irrefl (f a)
  trans := h.trans
  tri a b := by
    rcases h.tri (f a) (f b) with h' | h' | h'
    · exact .inl h'
    · exact .inr (.inl (hf h'))
    · exact .inr (.inr h')

end StrictTotal

lemma gt_strictTotal [LinearOrder α] : StrictTotal fun x y : α => decide (y < x) where
  irrefl a := by simp
  trans hab hbc := by
    rw [decide_eq_true_eq] at hab hbc ⊢
    exact hbc.trans hab
  tri a b := by
    simp only [decide_eq_true_eq]
    rcases lt_trichotomy a b with h | h | h
    · exact .inr (.inr h)
    · exact .inr (.inl h)
    · exact .inl h

/-! ### Lexicographic comparisons -/

def lexLt (lt : κ → κ → Bool) : List κ → List κ → Bool
  | [], [] => false
  | [], _ :: _ => true
  | _ :: _, [] => false
  | a :: as, b :: bs => if lt a b then true else if lt b a then false else lexLt lt as bs

def pairLt (lt : κ → κ → Bool) (lt' : γ → γ → Bool) (x y : κ × γ) : Bool :=
  if lt x.1 y.1 then true else if lt y.1 x.1 then false else lt' x.2 y.2

variable {lt : κ → κ → Bool} {lt' : γ → γ → Bool}

section

variable (h : StrictTotal lt)
include h

lemma pairLt_iff (x y : κ × γ) :
    pairLt lt lt' x y = true ↔ lt x.1 y.1 = true ∨ (x.1 = y.1 ∧ lt' x.2 y.2 = true) := by
  rw [pairLt]
  by_cases hab : lt x.1 y.1 = true
  · simp [hab]
  · by_cases hba : lt y.1 x.1 = true
    · have hne := h.ne_of_lt hba
      simp [hab, hba, hne.symm]
    · have he := h.eq_of_not_lt (by simpa using hab) (by simpa using hba)
      simp [he, h.irrefl]

lemma pairLt_trans {x y z : κ × γ}
    (h' : lt' x.2 y.2 = true → lt' y.2 z.2 = true → lt' x.2 z.2 = true)
    (hxy : pairLt lt lt' x y = true) (hyz : pairLt lt lt' y z = true) :
    pairLt lt lt' x z = true := by
  rw [pairLt_iff h] at hxy hyz ⊢
  rcases hxy with hxy | ⟨hxy, hxy'⟩ <;> rcases hyz with hyz | ⟨hyz, hyz'⟩
  · exact .inl (h.trans hxy hyz)
  · exact .inl (hyz ▸ hxy)
  · exact .inl (hxy ▸ hyz)
  · exact .inr ⟨hxy.trans hyz, h' hxy' hyz'⟩

lemma pairLt_tri {x y : κ × γ} (h' : lt' x.2 y.2 = true ∨ x.2 = y.2 ∨ lt' y.2 x.2 = true) :
    pairLt lt lt' x y = true ∨ x = y ∨ pairLt lt lt' y x = true := by
  rw [pairLt_iff h, pairLt_iff h, Prod.ext_iff]
  rcases h.tri x.1 y.1 with hlt | heq | hgt
  · exact .inl (.inl hlt)
  · exact h'.imp (fun h' => .inr ⟨heq, h'⟩)
      (.imp (fun h' => ⟨heq, h'⟩) fun h' => .inr ⟨heq.symm, h'⟩)
  · exact .inr (.inr (.inl hgt))

lemma pairLt_strictTotal (h' : StrictTotal lt') : StrictTotal (pairLt lt lt') where
  irrefl x := by simp [pairLt, h.irrefl, h'.irrefl]
  trans := pairLt_trans h h'.trans
  tri x y := pairLt_tri h (h'.tri x.2 y.2)

-- where both lists have a head, they are compared as pairs of head and tail
lemma lexLt_strictTotal : StrictTotal (lexLt lt) where
  irrefl l := by
    induction l with
    | nil => rfl
    | cons a as ih => simp [lexLt, h.irrefl, ih]
  trans {a b c} := by
    induction a generalizing b c with
    | nil => cases b <;> cases c <;> simp [lexLt]
    | cons x xs ih =>
      rcases b with _ | ⟨y, ys⟩
      · exact nofun
      rcases c with _ | ⟨z, zs⟩
      · exact fun _ => nofun
      · exact pairLt_trans h (x := (x, xs)) (y := (y, ys)) (z := (z, zs)) ih
  tri a b := by
    induction a generalizing b with
    | nil => cases b <;> simp [lexLt]
    | cons x xs ih =>
      cases b with
      | nil => simp [lexLt]
      | cons y ys =>
        refine (pairLt_tri h (x := (x, xs)) (y := (y, ys)) (ih ys)).imp_right (.imp_left ?_)
        rintro ⟨⟩
        rfl

end

/-! ### Increasing lists and insertion -/

def Increasing (lt : κ → κ → Bool) (key : α → κ) (l : List α) : Prop :=
  l.Pairwise fun a b => lt (key a) (key b) = true

/-- Insertion by key; an entry that is present is kept. -/
def insertBy (lt : κ → κ → Bool) (key : α → κ) (x : α) : List α → List α
  | [] => [x]
  | y :: l =>
    if lt (key x) (key y) then x :: y :: l
    else if lt (key y) (key x) then y :: insertBy lt key x l
    else y :: l

/-- Removal of the entries whose key is equivalent to `k`. -/
def eraseBy (lt : κ → κ → Bool) (key : α → κ) (k : κ) (l : List α) : List α :=
  l.filter fun x => lt (key x) k || lt k (key x)

section

variable {lt : κ → κ → Bool} {key : α → κ}

variable {l : List α} {x : α}

lemma mem_insertBy {z : α} (h : z ∈ insertBy lt key x l) : z = x ∨ z ∈ l := by
  induction l with
  | nil => exact .inl (by simpa [insertBy] using h)
  | cons y l ih =>
    rw [insertBy] at h
    split at h
    · simpa using h
    · split at h
      · rcases mem_cons.mp h with rfl | h'
        · simp
        · rcases ih h' with rfl | h''
          · exact .inl rfl
          · exact .inr (mem_cons_of_mem y h'')
      · exact .inr h

lemma mem_insertBy_id (ht : StrictTotal lt) {x z : κ} {l : List κ} :
    z ∈ insertBy lt id x l ↔ z = x ∨ z ∈ l := by
  refine ⟨mem_insertBy, ?_⟩
  induction l with
  | nil => simp [insertBy]
  | cons y l ih =>
    intro h
    rw [insertBy]
    split
    · simpa using h
    · rename_i hxy
      split
      · rcases h with rfl | h
        · exact mem_cons_of_mem y (ih (.inl rfl))
        · rcases mem_cons.mp h with rfl | h
          · exact mem_cons_self
          · exact mem_cons_of_mem y (ih (.inr h))
      · -- the element is there already
        rename_i hyx
        have he : x = y := ht.eq_of_not_lt (by simpa using hxy) (by simpa using hyx)
        rcases h with rfl | h
        · exact he ▸ mem_cons_self
        · exact h

lemma mem_eraseBy_id (ht : StrictTotal lt) {x z : κ} {l : List κ} :
    z ∈ eraseBy lt id x l ↔ z ∈ l ∧ z ≠ x := by
  simp only [eraseBy, mem_filter, id_eq, Bool.or_eq_true]
  refine and_congr_right fun _ => ⟨?_, fun hne => ?_⟩
  · rintro (h | h)
    · exact ht.ne_of_lt h
    · exact (ht.ne_of_lt h).symm
  · rcases ht.tri z x with h | h | h
    · exact .inl h
    · exact absurd h hne
    · exact .inr h

lemma Increasing.eraseBy (h : Increasing lt key l) (k : κ) :
    Increasing lt key (eraseBy lt key k l) := List.Pairwise.filter _ h

lemma Increasing.insertBy (ht : StrictTotal lt) (x : α)
    (h : Increasing lt key l) : Increasing lt key (insertBy lt key x l) := by
  induction l with
  | nil => exact pairwise_singleton _ x
  | cons y l ih =>
    obtain ⟨hy, hl⟩ := pairwise_cons.mp h
    rw [Library.insertBy]
    split
    · rename_i hxy
      refine pairwise_cons.mpr ⟨fun z hz => ?_, h⟩
      rcases mem_cons.mp hz with rfl | hz'
      · exact hxy
      · exact ht.trans hxy (hy z hz')
    · split
      · rename_i hyx
        refine pairwise_cons.mpr ⟨fun z hz => ?_, ih hl⟩
        rcases mem_insertBy hz with rfl | hz'
        · exact hyx
        · exact hy z hz'
      · exact h

lemma insertBy_perm (ht : StrictTotal lt)
    (h : ∀ y ∈ l, key y ≠ key x) : (insertBy lt key x l).Perm (x :: l) := by
  induction l with
  | nil => exact List.Perm.refl _
  | cons y l ih =>
    rw [insertBy]
    split
    · exact List.Perm.refl _
    · rename_i hxy
      split
      · exact ((ih fun z hz => h z (mem_cons_of_mem y hz)).cons y).trans
          (List.Perm.swap x y l)
      · rename_i hyx
        have he := ht.eq_of_not_lt (by simpa using hyx) (by simpa using hxy)
        exact absurd he (h y mem_cons_self)

lemma insertBy_eq_append (h : ∀ y ∈ l, lt (key y) (key x) = true ∧ lt (key x) (key y) = false) :
    insertBy lt key x l = l ++ [x] := by
  induction l with
  | nil => rfl
  | cons y l ih =>
    obtain ⟨hyx, hxy⟩ := h y mem_cons_self
    rw [insertBy, hxy, hyx, ih fun z hz => h z (mem_cons_of_mem y hz)]
    simp

lemma length_insertBy_le (x : α) (l : List α) : (insertBy lt key x l).length ≤ l.length + 1 := by
  induction l with
  | nil => simp [insertBy]
  | cons y l ih =>
    rw [insertBy]
    split
    · simp
    · split <;> simp [ih]

lemma Increasing.foldl_insertBy (ht : StrictTotal lt) (l acc : List α) (h : Increasing lt key acc) :
    Increasing lt key (l.foldl (fun s x => Library.insertBy lt key x s) acc) := by
  induction l generalizing acc with
  | nil => exact h
  | cons x l ih => exact ih _ (h.insertBy ht x)

lemma foldl_insertBy_perm (ht : StrictTotal lt) (l acc : List α)
    (hne : l.Pairwise fun a b => key a ≠ key b) (hacc : ∀ y ∈ acc, ∀ x ∈ l, key y ≠ key x) :
    (l.foldl (fun s x => insertBy lt key x s) acc).Perm (acc ++ l) := by
  induction l generalizing acc with
  | nil => simp
  | cons x l ih =>
    obtain ⟨hx, hl⟩ := pairwise_cons.mp hne
    have hins := insertBy_perm ht fun y hy => hacc y hy x mem_cons_self
    refine (ih _ hl ?_).trans ?_
    · intro y hy z hz
      rcases mem_insertBy hy with rfl | hy'
      · exact hx z hz
      · exact hacc y hy' z (mem_cons_of_mem x hz)
    · exact (hins.append_right l).trans perm_middle.symm

lemma foldl_insertBy_of_increasing (l acc : List α) (h : (acc ++ l).Pairwise fun a b =>
      lt (key a) (key b) = true ∧ lt (key b) (key a) = false) :
    l.foldl (fun s x => insertBy lt key x s) acc = acc ++ l := by
  induction l generalizing acc with
  | nil => simp
  | cons x l ih =>
    have happ : insertBy lt key x acc = acc ++ [x] :=
      insertBy_eq_append fun y hy => (pairwise_append.mp h).2.2 y hy x mem_cons_self
    rw [foldl_cons, happ, ih]
    · simp
    · simpa using h

lemma length_foldl_insertBy_le (l acc : List α) :
    (l.foldl (fun s x => insertBy lt key x s) acc).length ≤ acc.length + l.length := by
  induction l generalizing acc with
  | nil => simp
  | cons x l ih =>
    have h1 := ih (insertBy lt key x acc)
    have h2 : (insertBy lt key x acc).length ≤ acc.length + 1 := length_insertBy_le x acc
    rw [foldl_cons, length_cons]
    omega

lemma Increasing.eq_of_perm (ht : StrictTotal lt) {l' : List α} (h : Increasing lt key l)
    (h' : Increasing lt key l') (hp : l.Perm l') : l = l' := by
  refine hp.eq_of_pairwise (fun a b _ _ hab hba => ?_) h h'
  have := ht.asymm hab
  rw [hba] at this
  exact absurd this (by simp)

lemma Increasing.pairwise_ne (ht : StrictTotal lt) (h : Increasing lt key l) :
    l.Pairwise fun a b => key a ≠ key b := List.Pairwise.imp (fun hab => ht.ne_of_lt hab) h

end

end Library
