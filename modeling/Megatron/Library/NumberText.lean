import Megatron.Library.HttpSyntax

/-!
Numbers in texts, as the C library reads them.
-/

namespace Library.NumberText

open Http List

def isSpace (c : Octet) : Bool := c == 32#8 || (decide (9#8 ≤ c) && decide (c ≤ 13#8))

def isDigit (c : Octet) : Bool := decide (48#8 ≤ c) && decide (c ≤ 57#8)

def leadingValue (s : Octets) : ℕ :=
  (s.takeWhile isDigit).foldl (fun n c => 10 * n + (c.toNat - 48)) 0

def signedValue : Octets → ℤ
  | [] => 0
  | c :: s =>
    if c = 45#8 then -(leadingValue s : ℤ)
    else if c = 43#8 then leadingValue s
    else leadingValue (c :: s)

/-- `strtol(s, NULL, 10)`, which keeps to the range of a `long` of 64 bits. -/
def strtol (s : Octets) : ℤ := max (-2 ^ 63) (min (2 ^ 63 - 1) (signedValue (s.dropWhile isSpace)))

/-! ### Numerals -/

lemma isDigit_digitChar : ∀ d < 10, isDigit (digitChar d) = true := by decide

lemma toNat_digitChar : ∀ d < 10, (digitChar d).toNat - 48 = d := by decide

lemma of_isDigit : ∀ c : Octet, isDigit c = true → isSpace c = false ∧ c ≠ 45#8 ∧ c ≠ 43#8 := by
  decide +kernel

variable {bs : List Octet} {c : Octet} {ds : List ℕ} (n : ℕ)

lemma isDigit_of_mem {n : ℕ} (h : c ∈ numeral 10 n) : isDigit c = true := by
  obtain ⟨d, hd, rfl⟩ := mem_numeral (by norm_num) h
  exact isDigit_digitChar d hd

lemma numeral_ne_nil : numeral 10 n ≠ [] := by
  rw [numeral]
  split_ifs with h
  · exact cons_ne_nil _ _
  · simpa using Nat.digits_ne_nil_iff_ne_zero.mpr h

lemma foldl_ofDigits {α : Type*} (b : ℕ) (f : ℕ → α) (val : α → ℕ) (h : ∀ d ∈ ds, val (f d) = d) :
    (ds.reverse.map f).foldl (fun n c => b * n + val c) 0 = Nat.ofDigits b ds := by
  induction ds with
  | nil => rfl
  | cons d ds ih =>
    obtain ⟨hd, hds⟩ := forall_mem_cons.mp h
    rw [reverse_cons, map_append, foldl_append, ih hds, Nat.ofDigits_cons]
    simp only [map_cons, map_nil, foldl_cons, foldl_nil, hd]
    exact Nat.add_comm _ _

lemma foldl_digits (h : ∀ d ∈ ds, d < 10) :
    (ds.reverse.map digitChar).foldl (fun n c => 10 * n + (c.toNat - 48)) 0 = Nat.ofDigits 10 ds :=
  foldl_ofDigits 10 digitChar (fun c => c.toNat - 48) fun d hd => toNat_digitChar d (h d hd)

lemma foldl_numeral : (numeral 10 n).foldl (fun n c => 10 * n + (c.toNat - 48)) 0 = n := by
  rw [numeral]
  split_ifs with h
  · rw [h]
    rfl
  · rw [foldl_digits fun d hd => Nat.digits_lt_base (by norm_num) hd, Nat.ofDigits_digits]

lemma leadingValue_numeral : leadingValue (numeral 10 n) = n := by
  have hall : (numeral 10 n).takeWhile isDigit = numeral 10 n :=
    takeWhile_eq_self_iff.mpr fun c hc => isDigit_of_mem hc
  rw [leadingValue, hall, foldl_numeral]

lemma strtol_numeral {n : ℕ} (h : n < 2 ^ 63) : strtol (numeral 10 n) = n := by
  obtain ⟨c, s, hs⟩ := exists_cons_of_ne_nil (numeral_ne_nil n)
  have hmem : c ∈ numeral 10 n := by
    rw [hs]
    exact mem_cons_self
  have hdigit := isDigit_of_mem hmem
  obtain ⟨hspace, hminus, hplus⟩ := of_isDigit c hdigit
  have hdrop : (c :: s).dropWhile isSpace = c :: s := by
    rw [dropWhile_cons_of_neg (by simp [hspace])]
  have hvalue : signedValue (c :: s) = n := by
    rw [signedValue, if_neg hminus, if_neg hplus, ← hs, leadingValue_numeral]
  rw [strtol, hs, hdrop, hvalue]
  omega

/-! ### Dotted decimal -/

def dotted : List Octet → Octets
  | [] => []
  | [b] => numeral 10 b.toNat
  | b :: c :: bs => numeral 10 b.toNat ++ 46#8 :: dotted (c :: bs)

def splitDots : Octets → Octets → List Octets
  | part, [] => [part]
  | part, c :: s => if c = 46#8 then part :: splitDots [] s else splitDots (part ++ [c]) s

def undotted (s : Octets) : List Octet :=
  (splitDots [] s).map fun part => BitVec.ofNat 8 (leadingValue part)

lemma mem_dotted (h : c ∈ dotted bs) : isDigit c = true ∨ c = 46#8 := by
  induction bs using dotted.induct with
  | case1 => cases h
  | case2 b => exact .inl (isDigit_of_mem h)
  | case3 b b' bs ih =>
    rw [dotted, mem_append, mem_cons] at h
    rcases h with h | h | h
    · exact .inl (isDigit_of_mem h)
    · exact .inr h
    · exact ih h

lemma dotted_cons (b : Octet) (bs : List Octet) :
    ∃ c s, dotted (b :: bs) = c :: s ∧ isDigit c = true := by
  obtain ⟨c, s, hs⟩ := exists_cons_of_ne_nil (numeral_ne_nil b.toNat)
  have hmem : c ∈ numeral 10 b.toNat := by
    rw [hs]
    exact mem_cons_self
  have hdigit := isDigit_of_mem hmem
  cases bs with
  | nil => exact ⟨c, s, hs, hdigit⟩
  | cons b' bs => exact ⟨c, s ++ 46#8 :: dotted (b' :: bs), by rw [dotted, hs]; rfl, hdigit⟩

lemma length_dotted_le (bs : List Octet) : (dotted bs).length ≤ 4 * bs.length := by
  have hnumeral (b : Octet) : (numeral 10 b.toNat).length ≤ 3 := by
    rw [length_numeral_le_iff (by norm_num) (by norm_num)]
    exact b.isLt.trans (by norm_num)
  induction bs using dotted.induct with
  | case1 => exact Nat.le_refl 0
  | case2 b =>
    have := hnumeral b
    rw [dotted, length_singleton]
    omega
  | case3 b b' bs ih =>
    have := hnumeral b
    rw [dotted, length_append, length_cons, length_cons]
    omega

lemma splitDots_append (part : Octets) {p : Octets} (h : 46#8 ∉ p) (s : Octets) :
    splitDots part (p ++ s) = splitDots (part ++ p) s := by
  induction p generalizing part with
  | nil => rw [nil_append, append_nil]
  | cons c p ih =>
    obtain ⟨hc, hp⟩ := not_or.mp (mem_cons.not.mp h)
    rw [cons_append, splitDots, if_neg (Ne.symm hc), ih _ hp, append_assoc, singleton_append]

lemma dot_not_mem_numeral : 46#8 ∉ numeral 10 n := by
  intro h
  exact absurd (isDigit_of_mem h) (by decide)

lemma splitDots_dotted (h : bs ≠ []) :
    splitDots [] (dotted bs) = bs.map fun b => numeral 10 b.toNat := by
  induction bs using dotted.induct with
  | case1 => exact absurd rfl h
  | case2 b =>
    have hsplit := splitDots_append [] (dot_not_mem_numeral b.toNat) []
    rw [append_nil] at hsplit
    rw [dotted, hsplit, splitDots]
    rfl
  | case3 b b' bs ih =>
    rw [dotted, splitDots_append _ (dot_not_mem_numeral b.toNat), splitDots, if_pos rfl,
      ih (cons_ne_nil _ _)]
    rfl

lemma undotted_dotted (h : bs ≠ []) : undotted (dotted bs) = bs := by
  have hoctet : ((fun part => BitVec.ofNat 8 (leadingValue part)) ∘
      fun b : Octet => numeral 10 b.toNat) = id := by
    funext b
    simp only [Function.comp, leadingValue_numeral, BitVec.ofNat_toNat, BitVec.setWidth_eq, id]
  rw [undotted, splitDots_dotted h, map_map, hoctet, map_id]

example : dotted [127#8, 0#8, 0#8, 1#8] = ascii "127.0.0.1" := by decide +kernel

end Library.NumberText
