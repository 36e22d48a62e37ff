import Mathlib.Tactic

/-!
Readers over a finite sequence of symbols, and the judgement that a reader
consumes exactly a given word.
-/

namespace Library

open List

/-- A sequence of symbols with the position of the next unread one. -/
structure Cursor (β : Type) where
  data : List β
  pos : ℕ
  deriving DecidableEq, Repr

namespace Cursor

variable {β : Type}

def unread (c : Cursor β) : List β := c.data.drop c.pos

/-- The cursor moved on by `n` symbols. -/
def advance (c : Cursor β) (n : ℕ) : Cursor β := { c with pos := c.pos + n }

variable (c : Cursor β) (n : ℕ)

@[simp] lemma advance_pos : (c.advance n).pos = c.pos + n := rfl

@[simp] lemma advance_data : (c.advance n).data = c.data := rfl

@[simp] lemma advance_zero : c.advance 0 = c := rfl

lemma advance_advance (m n : ℕ) : (c.advance m).advance n = c.advance (m + n) := by
  simp [advance, Nat.add_assoc]

lemma unread_advance : (c.advance n).unread = c.unread.drop n := by
  simp [unread, advance, drop_drop]

lemma unread_advance_of_append {c : Cursor β} {w rest : List β}
    (h : c.unread = w ++ rest) : (c.advance w.length).unread = rest := by
  rw [unread_advance, h, drop_left]

lemma length_unread : c.unread.length = c.data.length - c.pos := by
  simp [unread]

end Cursor

/-- A reader takes a cursor and returns a value or an error, and the cursor where it stopped. -/
def Reader (β ε α : Type) := Cursor β → Except ε α × Cursor β

namespace Reader

variable {β ε α γ : Type}

instance : Monad (Reader β ε) where
  pure a := fun c => (.ok a, c)
  bind g f := fun c =>
    match g c with
    | (.ok a, c') => f a c'
    | (.error e, c') => (.error e, c')

def fail (e : ε) : Reader β ε α := fun c => (.error e, c)

def Yields (g : Reader β ε α) (p : ℕ) (w : List β) (Q : α → Prop) : Prop :=
  ∀ (c : Cursor β) (rest : List β), c.pos = p → c.unread = w ++ rest →
    ∃ a, g c = (.ok a, c.advance w.length) ∧ Q a

/-- The reader turns the word `w` into the value `a`, at every position and
whatever comes after it. -/
def Decodes (g : Reader β ε α) (w : List β) (a : α) : Prop := ∀ p, g.Yields p w (· = a)

lemma pure_apply (a : α) (c : Cursor β) : (pure a : Reader β ε α) c = (.ok a, c) := rfl

variable {Q : α → Prop} {R : γ → Prop} {T : α → α → Prop} {a : α} {b : γ} {c c' : Cursor β}
variable {f : α → Reader β ε γ} {g : Reader β ε α} {l' : List α} {p : ℕ} {w : List β} {δ : Type}

lemma bind_of_ok (h : g c = (.ok a, c')) (f : α → Reader β ε γ) : (g >>= f) c = f a c' := by
  show (match g c with | (.ok a, c') => f a c' | (.error e, c') => (.error e, c')) = _
  rw [h]

lemma bind_of_error {e : ε} (h : g c = (.error e, c'))
    (f : α → Reader β ε γ) : (g >>= f) c = (.error e, c') := by
  show (match g c with | (.ok a, c') => f a c' | (.error e, c') => (.error e, c')) = _
  rw [h]

lemma bind_eq_ok {x : γ} (h : (g >>= f) c = (.ok x, c')) :
    ∃ a c₁, g c = (.ok a, c₁) ∧ f a c₁ = (.ok x, c') := by
  rcases hg : g c with ⟨a | a, c₁⟩
  · rw [bind_of_error hg] at h; cases h
  · rw [bind_of_ok hg] at h; exact ⟨a, c₁, rfl, h⟩

lemma Yields.pure (h : Q a) : (pure a : Reader β ε α).Yields p [] Q :=
  fun _ _ _ _ => ⟨a, rfl, h⟩

lemma Yields.mono {R : α → Prop} (h : g.Yields p w Q) (hQR : ∀ a, Q a → R a) : g.Yields p w R := by
  intro c rest hp hc
  obtain ⟨a, ha, hQ⟩ := h c rest hp hc
  exact ⟨a, ha, hQR a hQ⟩

lemma Yields.bind {v : List β} (hg : g.Yields p w Q)
    (hf : ∀ a, Q a → (f a).Yields (p + w.length) v R) : (g >>= f).Yields p (w ++ v) R := by
  intro c rest hp hc
  rw [append_assoc] at hc
  obtain ⟨a, ha, hQ⟩ := hg c (v ++ rest) hp hc
  obtain ⟨b, hb, hR⟩ := hf a hQ (c.advance w.length) rest (by rw [Cursor.advance_pos, hp])
    (Cursor.unread_advance_of_append hc)
  refine ⟨b, ?_, hR⟩
  rw [bind_of_ok ha, hb, Cursor.advance_advance, length_append]

lemma Yields.map {f : α → γ} (hg : g.Yields p w Q) (hf : ∀ a, Q a → R (f a)) :
    (g >>= fun a => Pure.pure (f a)).Yields p w R := by
  have h := Yields.bind hg (fun a ha => Yields.pure (p := p + w.length) (hf a ha))
  rwa [append_nil] at h

lemma Decodes.bind {v : List β}
    (hg : g.Decodes w a) (hf : (f a).Decodes v b) : (g >>= f).Decodes (w ++ v) b := by
  intro p
  refine Yields.bind (hg p) ?_
  rintro _ rfl
  exact hf _

lemma Decodes.pure (a : α) : (Pure.pure a : Reader β ε α).Decodes [] a :=
  fun _ => Yields.pure rfl

lemma Decodes.map (f : α → γ) (hg : g.Decodes w a) :
    (g >>= fun x => Pure.pure (f x)).Decodes w (f a) := by
  intro p
  refine Yields.map (hg p) ?_
  rintro _ rfl
  rfl

lemma Decodes.apply (hg : g.Decodes w a) {rest : List β} (hc : c.unread = w ++ rest) :
    g c = (.ok a, c.advance w.length) := by
  obtain ⟨x, hx, rfl⟩ := hg c.pos c rest rfl hc
  exact hx

/-! ### Counted sequences -/

/-- Reads `n` entries one after the other. -/
def repeatN (g : Reader β ε α) : ℕ → Reader β ε (List α)
  | 0 => pure []
  | n + 1 => do
      let a ← g
      let as ← repeatN g n
      pure (a :: as)

lemma length_of_repeatN :
    ∀ {n : ℕ} {c c' : Cursor β} {l : List α}, repeatN g n c = (.ok l, c') → l.length = n
  | 0, c, c', l, h => by
      simp only [repeatN, pure_apply, Prod.mk.injEq, Except.ok.injEq] at h
      simp [← h.1]
  | n + 1, c, c', l, h => by
      rw [repeatN] at h
      obtain ⟨a, c₁, -, h₁⟩ := bind_eq_ok h
      obtain ⟨as, c₂, h₂, h₃⟩ := bind_eq_ok h₁
      simp only [pure_apply, Prod.mk.injEq, Except.ok.injEq] at h₃
      rw [← h₃.1, length_cons, length_of_repeatN h₂]

lemma repeatN_forall₂ {h : Reader β ε γ} {P : α → Prop} {R : α → γ → Prop}
    (hgh : ∀ c c' a, g c = (.ok a, c') → P a → ∃ x, h c = (.ok x, c') ∧ R a x) :
    ∀ {n : ℕ} {c c' : Cursor β} {l : List α}, repeatN g n c = (.ok l, c') → (∀ a ∈ l, P a) →
      ∃ l', repeatN h n c = (.ok l', c') ∧ List.Forall₂ R l l'
  | 0, c, c', l, hl, _ => by
      obtain ⟨rfl, rfl⟩ : [] = l ∧ c = c' := by
        simpa only [repeatN, pure_apply, Prod.mk.injEq, Except.ok.injEq] using hl
      exact ⟨[], rfl, List.Forall₂.nil⟩
  | n + 1, c, c', l, hl, hP => by
      obtain ⟨a, c₁, ha, h₁⟩ := bind_eq_ok hl
      obtain ⟨as, c₂, has, h₂⟩ := bind_eq_ok h₁
      obtain ⟨rfl, rfl⟩ : a :: as = l ∧ c₂ = c' := by
        simpa only [pure_apply, Prod.mk.injEq, Except.ok.injEq] using h₂
      obtain ⟨hPa, hPas⟩ := forall_mem_cons.mp hP
      obtain ⟨x, hx, hax⟩ := hgh _ _ _ ha hPa
      obtain ⟨xs, hxs, hasxs⟩ := repeatN_forall₂ hgh has hPas
      refine ⟨x :: xs, ?_, hasxs.cons hax⟩
      rw [repeatN, bind_of_ok hx, bind_of_ok hxs, pure_apply]

/-- Entry `i` of a counted sequence starts where the words of the entries
before it end. -/
def offset (w : α → List β) (p : ℕ) : List α → List (ℕ × α)
  | [] => []
  | x :: xs => (p, x) :: offset w (p + (w x).length) xs

lemma Yields.repeatN {w : δ → List β} {Q : ℕ × δ → α → Prop} :
    ∀ (l : List δ) (p : ℕ), (∀ x ∈ l, ∀ q, g.Yields q (w x) (Q (q, x))) →
      (repeatN g l.length).Yields p (l.flatMap w) fun l' => List.Forall₂ Q (offset w p l) l'
  | [], p, _ => Yields.pure List.Forall₂.nil
  | x :: xs, p, h => by
      have hx := h x mem_cons_self p
      have hxs := Yields.repeatN xs (p + (w x).length)
        (fun y hy => h y (mem_cons_of_mem x hy))
      rw [flatMap_cons]
      refine Yields.bind hx fun a ha => ?_
      exact Yields.map hxs fun as has => List.Forall₂.cons ha has

lemma forall₂_of_offset {w : δ → List β} {Q : ℕ × δ → α → Prop} {R : δ → α → Prop}
    (hQR : ∀ q x a, Q (q, x) a → R x a) {l : List δ}
    (h : List.Forall₂ Q (offset w p l) l') : List.Forall₂ R l l' := by
  induction l generalizing p l' with
  | nil =>
    cases h
    exact List.Forall₂.nil
  | cons x xs ih =>
    cases h with
    | cons hx hxs => exact List.Forall₂.cons (hQR p x _ hx) (ih hxs)

lemma exists_of_mem_offset {w : δ → List β}
    {Q : ℕ × δ → α → Prop} {l : List δ} (h : List.Forall₂ Q (offset w p l) l') (ha : a ∈ l') :
    ∃ q x, x ∈ l ∧ Q (q, x) a ∧ p ≤ q ∧ q + (w x).length ≤ p + (l.flatMap w).length := by
  induction l generalizing p l' with
  | nil =>
    cases h
    exact absurd ha not_mem_nil
  | cons x xs ih =>
    cases h with
    | cons hx hxs =>
      rw [flatMap_cons, length_append]
      rcases mem_cons.mp ha with rfl | ha'
      · exact ⟨p, x, mem_cons_self, hx, le_refl p, by omega⟩
      · obtain ⟨q, y, hy, hQ, hpq, hq⟩ := ih hxs ha'
        exact ⟨q, y, mem_cons_of_mem x hy, hQ, by omega, by omega⟩

lemma pairwise_of_offset {w : δ → List β} {Q : ℕ × δ → α → Prop} {S : δ → δ → Prop}
    (hST : ∀ {q r x y a b}, Q (q, x) a → Q (r, y) b → q + (w x).length ≤ r → S x y → T a b)
    {l : List δ} (h : List.Forall₂ Q (offset w p l) l') (hl : l.Pairwise S) : l'.Pairwise T := by
  induction l generalizing p l' with
  | nil =>
    cases h
    exact List.Pairwise.nil
  | cons x xs ih =>
    obtain ⟨hx, hxs⟩ := pairwise_cons.mp hl
    cases h with
    | cons hQ hQs =>
      refine pairwise_cons.mpr ⟨fun b hb => ?_, ih hQs hxs⟩
      obtain ⟨r, y, hy, hQ', hr, -⟩ := exists_of_mem_offset hQs hb
      exact hST hQ hQ' hr (hx y hy)

lemma Decodes.repeatN {w : δ → List β} {f : δ → α} (l : List δ)
    (h : ∀ x ∈ l, g.Decodes (w x) (f x)) :
    (Reader.repeatN g l.length).Decodes (l.flatMap w) (l.map f) := by
  induction l with
  | nil => exact Decodes.pure []
  | cons x xs ih =>
    rw [flatMap_cons]
    refine Decodes.bind (h x mem_cons_self) ?_
    exact Decodes.map _ (ih fun y hy => h y (mem_cons_of_mem x hy))

lemma Decodes.field {ws : List (List β)} (hg : g.Decodes w a) (hf : (f a).Decodes ws.flatten b) :
    (g >>= f).Decodes (w :: ws).flatten b := by
  rw [flatten_cons]
  exact hg.bind hf

/-- Whatever the reader returns satisfies `Q`. -/
def Ensures (g : Reader β ε α) (Q : α → Prop) : Prop :=
  ∀ (c c' : Cursor β) (a : α), g c = (.ok a, c') → Q a

lemma Ensures.pure (h : Q a) : (pure a : Reader β ε α).Ensures Q := by
  intro c c' x hx
  rw [pure_apply, Prod.mk.injEq, Except.ok.injEq] at hx
  exact hx.1 ▸ h

lemma Ensures.fail (x : ε) : (Reader.fail x : Reader β ε α).Ensures Q := by
  intro c c' a ha
  cases ha

lemma Ensures.bind (hg : g.Ensures Q) (hf : ∀ a, Q a → (f a).Ensures R) : (g >>= f).Ensures R := by
  intro c c' x hx
  obtain ⟨a, c₁, ha, hb⟩ := bind_eq_ok hx
  exact hf a (hg _ _ _ ha) _ _ _ hb

lemma Ensures.skip (hf : ∀ a, (f a).Ensures R) : (g >>= f).Ensures R :=
  Ensures.bind (Q := fun _ => True) (fun _ _ _ _ => trivial) fun a _ => hf a

end Reader

end Library
