import Megatron.Library.Ordered

/-!
Comparisons that need not be total, and the sets that are kept sorted by them.
-/

namespace Library

open List

variable {α κ : Type}

structure StrictWeakOn (s : Set α) (r : α → α → Prop) : Prop where
  irrefl : ∀ a ∈ s, ¬ r a a
  asymm : ∀ a ∈ s, ∀ b ∈ s, r a b → ¬ r b a
  trans : ∀ a ∈ s, ∀ b ∈ s, ∀ c ∈ s, r a b → r b c → r a c
  incomp_trans : ∀ a ∈ s, ∀ b ∈ s, ∀ c ∈ s,
    ¬ r a b ∧ ¬ r b a → ¬ r b c ∧ ¬ r c b → ¬ r a c ∧ ¬ r c a

namespace StrictTotal

variable {lt : κ → κ → Bool} {f : α → κ} {s : Set α} {r : α → α → Prop}

lemma incomp_iff (h : StrictTotal lt) (hr : ∀ a ∈ s, ∀ b ∈ s, r a b ↔ lt (f a) (f b) = true)
    {a b : α} (ha : a ∈ s) (hb : b ∈ s) : ¬ r a b ∧ ¬ r b a ↔ f a = f b := by
  rw [hr a ha b hb, hr b hb a ha]
  constructor
  · rintro ⟨hab, hba⟩
    exact h.eq_of_not_lt (by simpa using hab) (by simpa using hba)
  · intro heq
    rw [heq, h.irrefl]
    exact ⟨Bool.false_ne_true, Bool.false_ne_true⟩

lemma strictWeakOn (h : StrictTotal lt)
    (hr : ∀ a ∈ s, ∀ b ∈ s, r a b ↔ lt (f a) (f b) = true) : StrictWeakOn s r where
  irrefl a ha := by
    rw [hr a ha a ha, h.irrefl]
    exact Bool.false_ne_true
  asymm a ha b hb hab := by
    rw [hr b hb a ha, h.asymm ((hr a ha b hb).mp hab)]
    exact Bool.false_ne_true
  trans a ha b hb c hc hab hbc := by
    rw [hr a ha b hb] at hab
    rw [hr b hb c hc] at hbc
    rw [hr a ha c hc]
    exact h.trans hab hbc
  incomp_trans a ha b hb c hc hab hbc := by
    rw [h.incomp_iff hr ha hb] at hab
    rw [h.incomp_iff hr hb hc] at hbc
    rw [h.incomp_iff hr ha hc]
    exact hab.trans hbc

end StrictTotal

/-! ### Sets -/

inductive SetOp (κ : Type) where
  | insert (x : κ)
  | erase (x : κ)

def SetOp.member : SetOp κ → κ
  | .insert x => x
  | .erase x => x

/-- One operation on a set that is sorted by `lt`. -/
def SetOp.apply (lt : κ → κ → Bool) (l : List κ) : SetOp κ → List κ
  | .insert x => insertBy lt id x l
  | .erase x => eraseBy lt id x l

def contents (lt : κ → κ → Bool) (ops : List (SetOp κ)) : List κ := ops.foldl (SetOp.apply lt) []

section

variable {lt : κ → κ → Bool}

lemma contents_concat (lt : κ → κ → Bool) (ops : List (SetOp κ)) (op : SetOp κ) :
    contents lt (ops ++ [op]) = op.apply lt (contents lt ops) := by
  rw [contents, foldl_append]
  rfl

lemma mem_of_mem_contents {ops : List (SetOp κ)} {x : κ} (h : x ∈ contents lt ops) :
    ∃ op ∈ ops, op.member = x := by
  induction ops using List.reverseRecOn with
  | nil => cases h
  | append_singleton ops op ih =>
    rw [contents_concat] at h
    cases op with
    | insert y =>
      rcases mem_insertBy h with rfl | h
      · exact ⟨.insert x, by simp, rfl⟩
      · obtain ⟨op, hop, rfl⟩ := ih h
        exact ⟨op, mem_append_left _ hop, rfl⟩
    | erase y =>
      obtain ⟨op, hop, rfl⟩ := ih (mem_of_mem_filter h)
      exact ⟨op, mem_append_left _ hop, rfl⟩

lemma contents_increasing (ht : StrictTotal lt) (ops : List (SetOp κ)) :
    Increasing lt id (contents lt ops) := by
  induction ops using List.reverseRecOn with
  | nil => exact List.Pairwise.nil
  | append_singleton ops op ih =>
    rw [contents_concat]
    cases op with
    | insert x => exact ih.insertBy ht x
    | erase x => exact ih.eraseBy x

lemma contents_pairwise (ht : StrictTotal lt) (ops : List (SetOp κ)) :
    (contents lt ops).Pairwise (· ≠ ·) := (contents_increasing ht ops).pairwise_ne ht

lemma mem_contents_erase (ht : StrictTotal lt) (ops : List (SetOp κ)) (x z : κ) :
    z ∈ contents lt (ops ++ [.erase x]) ↔ z ∈ contents lt ops ∧ z ≠ x := by
  rw [contents_concat]
  exact mem_eraseBy_id ht

lemma mem_contents_insert (ht : StrictTotal lt) (ops : List (SetOp κ)) (x z : κ) :
    z ∈ contents lt (ops ++ [.insert x]) ↔ z = x ∨ z ∈ contents lt ops := by
  rw [contents_concat]
  exact mem_insertBy_id ht

/-! ### Comparisons of images -/

variable {less : α → α → Bool} {f : α → κ} {s : Set α}

lemma map_insertBy (hf : ∀ a ∈ s, ∀ b ∈ s, less a b = lt (f a) (f b)) {x : α} (hx : x ∈ s)
    {l : List α} (hl : ∀ y ∈ l, y ∈ s) :
    (insertBy less id x l).map f = insertBy lt id (f x) (l.map f) := by
  induction l with
  | nil => rfl
  | cons y l ih =>
    obtain ⟨hy, hl⟩ := forall_mem_cons.mp hl
    rw [map_cons, insertBy, insertBy]
    simp only [id_eq, hf x hx y hy, hf y hy x hx]
    split_ifs
    · rfl
    · rw [map_cons, ih hl]
    · rfl

lemma map_eraseBy (hf : ∀ a ∈ s, ∀ b ∈ s, less a b = lt (f a) (f b)) {x : α} (hx : x ∈ s)
    {l : List α} (hl : ∀ y ∈ l, y ∈ s) :
    (eraseBy less id x l).map f = eraseBy lt id (f x) (l.map f) := by
  rw [eraseBy, eraseBy, filter_map]
  refine congrArg _ (filter_congr fun y hy => ?_)
  simp only [Function.comp, id_eq, hf x hx y (hl y hy), hf y (hl y hy) x hx]

def SetOp.map (f : α → κ) : SetOp α → SetOp κ
  | .insert x => .insert (f x)
  | .erase x => .erase (f x)

lemma map_contents (hf : ∀ a ∈ s, ∀ b ∈ s, less a b = lt (f a) (f b)) {ops : List (SetOp α)}
    (hops : ∀ op ∈ ops, op.member ∈ s) :
    (contents less ops).map f = contents lt (ops.map (SetOp.map f)) := by
  induction ops using List.reverseRecOn with
  | nil => rfl
  | append_singleton ops op ih =>
    have hbefore : ∀ op ∈ ops, op.member ∈ s := fun op hop => hops op (mem_append_left _ hop)
    have hmem : op.member ∈ s := hops op (by simp)
    have hin : ∀ y ∈ contents less ops, y ∈ s := by
      intro y hy
      obtain ⟨op, hop, rfl⟩ := mem_of_mem_contents hy
      exact hbefore op hop
    rw [contents_concat, map_append, map_singleton, contents_concat, ← ih hbefore]
    cases op with
    | insert x => exact map_insertBy hf hmem hin
    | erase x => exact map_eraseBy hf hmem hin

end

end Library
