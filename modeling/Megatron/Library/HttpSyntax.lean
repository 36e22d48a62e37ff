import Mathlib.Tactic
import Mathlib.Data.List.TakeWhile
import Mathlib.Data.Nat.Digits.Lemmas

/-!
The text of HTTP/1.1 messages (RFC 7230): numbers, lines and header fields.
-/

namespace Library.Http

open List

abbrev Octet := BitVec 8

abbrev Octets := List Octet

def ascii (s : String) : Octets := s.toList.map fun c => BitVec.ofNat 8 c.toNat

def crlf : Octets := [13#8, 10#8]

/-- The digit with the value `d`, in lower case. -/
def digitChar (d : ℕ) : Octet := BitVec.ofNat 8 (if d < 10 then 48 + d else 87 + d)

def digitValue (base : ℕ) (c : Octet) : Option ℕ :=
  let v :=
    if 48 ≤ c.toNat ∧ c.toNat ≤ 57 then c.toNat - 48
    else if 97 ≤ c.toNat ∧ c.toNat ≤ 102 then c.toNat - 87
    else if 65 ≤ c.toNat ∧ c.toNat ≤ 70 then c.toNat - 55
    else base
  if v < base then some v else none

def numeral (base n : ℕ) : Octets :=
  if n = 0 then [digitChar 0] else (base.digits n).reverse.map digitChar

def parseNumeral (base : ℕ) (s : Octets) : Option ℕ :=
  if s = [] then none
  else (s.mapM (digitValue base)).map fun ds => Nat.ofDigits base ds.reverse

section

variable {base : ℕ}

lemma digitValue_digitChar (hbase : base ≤ 16) {d : ℕ} (hd : d < base) :
    digitValue base (digitChar d) = some d := by
  have hd16 : d < 16 := hd.trans_le hbase
  interval_cases d <;> simp [digitValue, digitChar, hd]

lemma mapM_digitValue (hbase : base ≤ 16) {ds : List ℕ} (h : ∀ d ∈ ds, d < base) :
    (ds.map digitChar).mapM (digitValue base) = some ds := by
  induction ds with
  | nil => rfl
  | cons d ds ih =>
    obtain ⟨hd, hds⟩ := forall_mem_cons.mp h
    rw [map_cons, mapM_cons, digitValue_digitChar hbase hd, ih hds]
    rfl

lemma parseNumeral_numeral (hbase : 1 < base) (hbase' : base ≤ 16) (n : ℕ) :
    parseNumeral base (numeral base n) = some n := by
  by_cases hn : n = 0
  · subst hn
    have h0 : [digitChar 0] = [0].map digitChar := rfl
    rw [numeral, if_pos rfl, parseNumeral, if_neg (by simp), h0,
      mapM_digitValue hbase' (by simpa using by omega)]
    simp
  · have hne : base.digits n ≠ [] := Nat.digits_ne_nil_iff_ne_zero.mpr hn
    have hlt : ∀ d ∈ (base.digits n).reverse, d < base := fun d hd =>
      Nat.digits_lt_base hbase (mem_reverse.mp hd)
    rw [numeral, if_neg hn, parseNumeral, if_neg (by simpa using hne), mapM_digitValue hbase' hlt,
      Option.map_some, reverse_reverse, Nat.ofDigits_digits]

lemma mem_numeral (hbase : 1 < base) {n : ℕ} {c : Octet} (h : c ∈ numeral base n) :
    ∃ d < base, c = digitChar d := by
  rw [numeral] at h
  split_ifs at h
  · exact ⟨0, by omega, mem_singleton.mp h⟩
  · obtain ⟨d, hd, rfl⟩ := mem_map.mp h
    exact ⟨d, Nat.digits_lt_base hbase (mem_reverse.mp hd), rfl⟩

lemma parseNumeral_eq_none {s : Octets} {c : Octet} (hc : c ∈ s)
    (h : digitValue base c = none) : parseNumeral base s = none := by
  have hmapM : s.mapM (digitValue base) = none := by
    induction s with
    | nil => cases hc
    | cons a s ih =>
      rw [mapM_cons]
      rcases mem_cons.mp hc with rfl | hc
      · rw [h]
        rfl
      · rw [ih hc]
        cases digitValue base a <;> rfl
  rw [parseNumeral, hmapM]
  simp

lemma length_numeral_le_iff (hbase : 1 < base) {n k : ℕ} (hk : 0 < k) :
    (numeral base n).length ≤ k ↔ n < base ^ k := by
  rw [numeral]
  split_ifs with hn
  · subst hn
    have : 0 < base ^ k := Nat.pow_pos (by omega)
    simp only [length_singleton]
    omega
  · rw [length_map, length_reverse]
    exact Nat.digits_length_le_iff hbase n

end

/-! ### Lines -/

def IsLine : Octets → Prop
  | [] | [_] => True
  | a :: b :: l => ¬ (a = 13#8 ∧ b = 10#8) ∧ IsLine (b :: l)

def consLine (a : Octet) : List Octets → List Octets
  | [] => [[a]]
  | l :: ls => (a :: l) :: ls

def splitLines : Octets → List Octets
  | [] => [[]]
  | [a] => [[a]]
  | a :: b :: rest =>
    if a = 13#8 ∧ b = 10#8 then [] :: splitLines rest else consLine a (splitLines (b :: rest))

def joinLines (ls : List Octets) : Octets := ls.flatMap (· ++ crlf)

@[simp] lemma joinLines_nil : joinLines [] = [] := rfl

@[simp] lemma joinLines_cons (l : Octets) (ls : List Octets) :
    joinLines (l :: ls) = l ++ crlf ++ joinLines ls := by
  simp [joinLines]

lemma joinLines_append (ls ls' : List Octets) :
    joinLines (ls ++ ls') = joinLines ls ++ joinLines ls' := by
  simp [joinLines]

instance decidableIsLine : (l : Octets) → Decidable (IsLine l)
  | [] => .isTrue trivial
  | [_] => .isTrue trivial
  | a :: b :: l =>
    have := decidableIsLine (b :: l)
    inferInstanceAs (Decidable (¬ (a = 13#8 ∧ b = 10#8) ∧ IsLine (b :: l)))

variable {l : Octets} {ls : List Octets} (s : Octets)

lemma isLine_of_not_mem (h : 13#8 ∉ l) : IsLine l := by
  induction l with
  | nil => trivial
  | cons a l ih =>
    obtain ⟨ha, hl⟩ := not_or.mp (mem_cons.not.mp h)
    cases l with
    | nil => trivial
    | cons b l => exact ⟨fun hab => ha hab.1.symm, ih hl⟩

lemma splitLines_of_isLine (h : IsLine l) : splitLines l = [l] := by
  induction l with
  | nil => rfl
  | cons a l ih =>
    cases l with
    | nil => rfl
    | cons b l =>
      rw [splitLines, if_neg h.1, ih h.2]
      rfl

lemma splitLines_ne_nil : splitLines s ≠ [] := by
  fun_induction splitLines s with
  | case1 | case2 | case3 => simp
  | case4 a b rest h ih => cases splitLines (b :: rest) <;> simp [consLine]

lemma joinLines_splitLines : joinLines (splitLines s) = s ++ crlf := by
  fun_induction splitLines s with
  | case1 | case2 => simp
  | case3 a b rest h ih =>
    rw [joinLines_cons, ih, h.1, h.2]
    rfl
  | case4 a b rest h ih =>
    cases hs : splitLines (b :: rest) with
    | nil => exact absurd hs (splitLines_ne_nil _)
    | cons l ls =>
      rw [hs, joinLines_cons] at ih
      rw [consLine, joinLines_cons, cons_append, cons_append, cons_append, ih]

lemma splitLines_cons {b : Octet} {rest : Octets}
    (h : splitLines (b :: rest) = l :: ls) : l = [] ∨ ∃ l', l = b :: l' := by
  cases rest with
  | nil =>
    cases h
    exact .inr ⟨[], rfl⟩
  | cons c rest =>
    rw [splitLines] at h
    split_ifs at h
    · cases h
      exact .inl rfl
    · cases hs : splitLines (c :: rest) with
      | nil => exact absurd hs (splitLines_ne_nil _)
      | cons l' ls' =>
        rw [hs, consLine] at h
        cases h
        exact .inr ⟨l', rfl⟩

lemma isLine_of_mem_splitLines : ∀ l ∈ splitLines s, IsLine l := by
  fun_induction splitLines s with
  | case1 | case2 =>
    intro l h
    rw [mem_singleton.mp h]
    trivial
  | case3 a b rest hab ih => exact forall_mem_cons.mpr ⟨trivial, ih⟩
  | case4 a b rest hab ih =>
    cases hs : splitLines (b :: rest) with
    | nil => exact absurd hs (splitLines_ne_nil _)
    | cons l' ls' =>
      rw [hs] at ih
      obtain ⟨hl', hls'⟩ := forall_mem_cons.mp ih
      refine forall_mem_cons.mpr ⟨?_, hls'⟩
      rcases splitLines_cons hs with rfl | ⟨l'', rfl⟩
      · trivial
      · exact ⟨hab, hl'⟩

def takeLine : Octets → Option (Octets × Octets)
  | [] | [_] => none
  | a :: b :: rest =>
    if a = 13#8 ∧ b = 10#8 then some ([], rest)
    else (takeLine (b :: rest)).map fun p => (a :: p.1, p.2)

def headFrom (line : Octets) : Octets → Option (List Octets × Octets)
  | [] | [_] => none
  | a :: b :: rest =>
    if a = 13#8 ∧ b = 10#8 then
      if line = [] then some ([], rest)
      else (headFrom [] rest).map fun p => (line :: p.1, p.2)
    else headFrom (line ++ [a]) (b :: rest)

def readHead (b : Octets) : Option (List Octets × Octets) := headFrom [] b

lemma takeLine_append (h : IsLine l) (rest : Octets) :
    takeLine (l ++ crlf ++ rest) = some (l, rest) := by
  induction l with
  | nil => rfl
  | cons a l ih =>
    cases l with
    | nil =>
      have hne : ¬ (a = 13#8 ∧ (13#8 : Octet) = 10#8) := by simp
      rw [crlf, cons_append, nil_append, cons_append, cons_append, takeLine, if_neg hne]
      rfl
    | cons b l =>
      rw [cons_append, cons_append, cons_append, cons_append, takeLine,
        if_neg h.1, ← cons_append, ← cons_append, ih h.2]
      rfl

lemma headFrom_line (h : IsLine l) (line rest : Octets) : headFrom line (l ++ crlf ++ rest) =
      if line ++ l = [] then some ([], rest)
      else (readHead rest).map fun p => ((line ++ l) :: p.1, p.2) := by
  induction l generalizing line with
  | nil =>
    rw [append_nil]
    rfl
  | cons a l ih =>
    have hline : line ++ a :: l = (line ++ [a]) ++ l := by simp
    cases l with
    | nil =>
      have hne : ¬ (a = 13#8 ∧ (13#8 : Octet) = 10#8) := by simp
      rw [hline, ← ih trivial, crlf, cons_append, nil_append, cons_append,
        cons_append, headFrom, if_neg hne]
    | cons b l =>
      rw [hline, ← ih h.2, cons_append, cons_append, cons_append, cons_append, headFrom, if_neg h.1]

lemma readHead_line (h : IsLine l) (hne : l ≠ []) (rest : Octets) :
    readHead (l ++ crlf ++ rest) = (readHead rest).map fun p => (l :: p.1, p.2) := by
  rw [readHead, headFrom_line h, nil_append, if_neg hne]

lemma readHead_crlf (rest : Octets) : readHead (crlf ++ rest) = some ([], rest) := rfl

lemma readHead_append (h : ∀ l ∈ ls, IsLine l ∧ l ≠ []) (rest : Octets) :
    readHead (joinLines ls ++ rest) = (readHead rest).map fun p => (ls ++ p.1, p.2) := by
  induction ls with
  | nil =>
    rw [joinLines_nil, nil_append]
    simp
  | cons l ls ih =>
    obtain ⟨⟨hl, hne⟩, hls⟩ := forall_mem_cons.mp h
    rw [joinLines_cons, append_assoc, readHead_line hl hne, ih hls, Option.map_map]
    rfl

lemma readHead_joinLines (h : ∀ l ∈ ls, IsLine l ∧ l ≠ []) (rest : Octets) :
    readHead (joinLines ls ++ (crlf ++ rest)) = some (ls, rest) := by
  rw [readHead_append h, readHead_crlf, Option.map_some, append_nil]

lemma readHead_early (h : ∀ l ∈ ls, IsLine l) (hnil : [] ∈ ls) (rest : Octets) : ∃ ls' rest',
    readHead (joinLines ls ++ (crlf ++ rest)) = some (ls', rest') ∧ rest.length < rest'.length := by
  obtain ⟨pre, post, rfl, hpre⟩ := eq_append_cons_of_mem hnil
  have hlines : ∀ l ∈ pre, IsLine l ∧ l ≠ [] := by
    intro l hl
    refine ⟨h l (mem_append_left _ hl), ?_⟩
    rintro rfl
    exact hpre hl
  refine ⟨pre, joinLines post ++ (crlf ++ rest), ?_, ?_⟩
  · rw [joinLines_append, append_assoc, joinLines_cons, nil_append, append_assoc,
      readHead_append hlines, readHead_crlf, Option.map_some, append_nil]
  · simp [crlf]
    omega

/-! ### Header fields -/

/-- `tchar`: an octet of a field name. -/
def isTokenChar (c : Octet) : Bool :=
  (48 ≤ c.toNat && c.toNat ≤ 57) || (65 ≤ c.toNat && c.toNat ≤ 90) ||
    (97 ≤ c.toNat && c.toNat ≤ 122) || (ascii "!#$%&'*+-.^_`|~").contains c

def isBlank (c : Octet) : Bool := c = 32#8 || c = 9#8

def isFieldChar (c : Octet) : Bool := c = 9#8 || (32 ≤ c.toNat && c ≠ 127#8)

def lower (c : Octet) : Octet := if 65 ≤ c.toNat ∧ c.toNat ≤ 90 then c + 32#8 else c

def trim (s : Octets) : Octets := ((s.dropWhile isBlank).reverse.dropWhile isBlank).reverse

def parseField (line : Octets) : Option (Octets × Octets) :=
  match line.dropWhile isTokenChar with
  | [] => none
  | c :: value =>
    if c = 58#8 ∧ line.takeWhile isTokenChar ≠ [] ∧ value.all isFieldChar = true then
      some ((line.takeWhile isTokenChar).map lower, trim value)
    else none

def isFold : Octets → Bool
  | [] => false
  | c :: _ => isBlank c

/-- Lines with their continuations joined to them; `line` is the current one. -/
def unfoldFrom (line : Octets) : List Octets → List Octets
  | [] => [line]
  | l :: ls => if isFold l then unfoldFrom (line ++ l) ls else line :: unfoldFrom l ls

def unfold : List Octets → List Octets
  | [] => []
  | l :: ls => unfoldFrom l ls

def readFields (ls : List Octets) : Option (List (Octets × Octets)) := (unfold ls).mapM parseField

def valuesOf (name : Octets) (fields : List (Octets × Octets)) : List Octets :=
  (fields.filter fun f => f.1 = name).map Prod.snd

lemma isFieldChar_digitChar {d : ℕ} (hd : d < 16) :
    isFieldChar (digitChar d) = true ∧ isBlank (digitChar d) = false := by
  interval_cases d <;> decide

lemma isLine_of_isFieldChar (h : l.all isFieldChar = true) : IsLine l := by
  refine isLine_of_not_mem fun hmem => ?_
  have := all_eq_true.mp h _ hmem
  revert this
  decide

section

variable {x y : Octets} {name value : Octets}

lemma valuesOf_append (name : Octets) (fs fs' : List (Octets × Octets)) :
    valuesOf name (fs ++ fs') = valuesOf name fs ++ valuesOf name fs' := by
  simp [valuesOf]

variable {fs : List (Octets × Octets)} (line : Octets) (ls : List Octets)

lemma valuesOf_cons_of_ne {n : Octets} (h : n ≠ name) :
    valuesOf name ((n, value) :: fs) = valuesOf name fs := by
  simp [valuesOf, h]

lemma parseField_token {token text : Octets} (htoken : token.all isTokenChar = true)
    (hne : token ≠ []) : parseField (token ++ 58#8 :: text) =
      if text.all isFieldChar = true then some (token.map lower, trim text) else none := by
  have hcolon : isTokenChar 58#8 = false := by decide
  have htake : (token ++ 58#8 :: text).takeWhile isTokenChar = token := by
    rw [takeWhile_append_of_pos fun c hc => all_eq_true.mp htoken c hc]
    simp [hcolon]
  have hdrop : (token ++ 58#8 :: text).dropWhile isTokenChar = 58#8 :: text := by
    rw [dropWhile_append_of_pos fun c hc => all_eq_true.mp htoken c hc]
    simp [hcolon]
  rw [parseField, htake, hdrop]
  simp [hne]

section

variable (h : parseField x = some (name, value))
include h

lemma exists_of_parseField :
    ∃ token text, x = token ++ 58#8 :: text ∧ token.all isTokenChar = true ∧ token ≠ [] ∧
      text.all isFieldChar = true ∧ name = token.map lower := by
  rw [parseField] at h
  split at h
  · cases h
  · rename_i c text hdrop
    split_ifs at h with hc
    obtain ⟨rfl, hne, htext⟩ := hc
    refine ⟨x.takeWhile isTokenChar, text, ?_, all_takeWhile, hne, htext, ?_⟩
    · rw [← hdrop, takeWhile_append_dropWhile]
    · exact (Prod.ext_iff.mp (Option.some.inj h)).1.symm

lemma parseField_append (c : Octets) :
    (c.all isFieldChar = true → ∃ value', parseField (x ++ c) = some (name, value')) ∧
      (c.all isFieldChar = false → parseField (x ++ c) = none) := by
  obtain ⟨token, text, rfl, htoken, hne, htext, rfl⟩ := exists_of_parseField h
  rw [append_assoc, cons_append, parseField_token htoken hne, all_append, htext, Bool.true_and]
  constructor
  · intro hc
    exact ⟨_, if_pos hc⟩
  · intro hc
    exact if_neg (by simp [hc])

lemma isFold_of_parseField : isFold x = false := by
  obtain ⟨token, text, rfl, htoken, hne, -, -⟩ := exists_of_parseField h
  cases token with
  | nil => exact absurd rfl hne
  | cons c token =>
    have hc : isTokenChar c = true := (all_eq_true.mp htoken) c mem_cons_self
    rw [cons_append, isFold]
    by_contra hblank
    rw [Bool.not_eq_false, isBlank, Bool.or_eq_true, decide_eq_true_eq, decide_eq_true_eq]
      at hblank
    rcases hblank with rfl | rfl <;> revert hc <;> decide

lemma isLine_of_parseField : IsLine x ∧ x ≠ [] := by
  obtain ⟨token, text, rfl, htoken, -, htext, -⟩ := exists_of_parseField h
  refine ⟨isLine_of_not_mem fun hmem => ?_, by simp⟩
  rcases mem_append.mp hmem with hmem | hmem
  · exact absurd (all_eq_true.mp htoken _ hmem) (by decide)
  · rcases mem_cons.mp hmem with hmem | hmem
    · exact absurd hmem (by decide)
    · exact absurd (all_eq_true.mp htext _ hmem) (by decide)

end

lemma unfoldFrom_eq : unfoldFrom line ls =
      (line ++ (ls.takeWhile isFold).flatten) :: unfold (ls.dropWhile isFold) := by
  induction ls generalizing line with
  | nil => simp [unfoldFrom, unfold]
  | cons l ls ih =>
    rw [unfoldFrom]
    by_cases hl : isFold l = true
    · rw [if_pos hl, ih, takeWhile_cons_of_pos hl, dropWhile_cons_of_pos hl,
        flatten_cons, append_assoc]
    · rw [if_neg hl, takeWhile_cons_of_neg hl, dropWhile_cons_of_neg hl]
      simp [unfold]

lemma unfoldFrom_append (hx : isFold x = false) (ls' : List Octets) :
    unfoldFrom line (ls ++ x :: ls') = unfoldFrom line ls ++ unfoldFrom x ls' := by
  induction ls generalizing line with
  | nil => simp [unfoldFrom, hx]
  | cons l ls ih =>
    rw [cons_append, unfoldFrom, unfoldFrom]
    split_ifs
    · exact ih (line ++ l)
    · rw [ih l, cons_append]

lemma readFields_append (hx : isFold x = false) (ls' : List Octets) : readFields (ls ++ x :: ls') =
      (readFields ls).bind fun fs => (readFields (x :: ls')).map (fs ++ ·) := by
  cases ls with
  | nil =>
    rw [nil_append, readFields, readFields]
    simp [unfold]
  | cons l ls =>
    rw [cons_append, readFields, unfold, unfoldFrom_append l ls hx, mapM_append,
      readFields, readFields, unfold, unfold]
    cases (unfoldFrom l ls).mapM parseField with
    | none => rfl
    | some fs => cases (unfoldFrom x ls').mapM parseField <;> rfl

lemma readFields_fields_append {xs : List Octets}
    (h : List.Forall₂ (fun x f => parseField x = some f) xs fs) (hy : isFold y = false)
    (ls : List Octets) : readFields (xs ++ y :: ls) = (readFields (y :: ls)).map (fs ++ ·) := by
  induction h with
  | nil => simp
  | @cons x f xs fs hx hxs ih =>
    have hone : readFields [x] = some [f] := by
      rw [readFields, unfold, unfoldFrom, mapM_cons, hx]
      rfl
    obtain ⟨z, zs, hz, hzs⟩ : ∃ z zs, isFold z = false ∧ xs ++ y :: ls = z :: zs := by
      cases hxs with
      | nil => exact ⟨y, ls, hy, rfl⟩
      | cons hz _ => exact ⟨_, _, isFold_of_parseField hz, rfl⟩
    rw [cons_append, ← singleton_append, hzs, readFields_append [x] hz, hone, ← hzs, ih]
    cases readFields (y :: ls) <;> rfl

lemma readFields_swap {nx vx ny vy : Octets} (hx : parseField x = some (nx, vx))
    (hy : parseField y = some (ny, vy)) (ls : List Octets) :
    (readFields (x :: ls) = none ∧ readFields (y :: ls) = none) ∨
      ∃ vx' vy' fs, readFields (x :: ls) = some ((nx, vx') :: fs) ∧
        readFields (y :: ls) = some ((ny, vy') :: fs) := by
  rw [readFields, readFields, unfold, unfold, unfoldFrom_eq, unfoldFrom_eq, mapM_cons, mapM_cons]
  generalize (ls.takeWhile isFold).flatten = c
  cases hc : c.all isFieldChar with
  | false =>
    rw [(parseField_append hx c).2 hc, (parseField_append hy c).2 hc]
    exact .inl ⟨rfl, rfl⟩
  | true =>
    obtain ⟨vx', hvx⟩ := (parseField_append hx c).1 hc
    obtain ⟨vy', hvy⟩ := (parseField_append hy c).1 hc
    rw [hvx, hvy]
    cases (unfold (ls.dropWhile isFold)).mapM parseField with
    | none => exact .inl ⟨rfl, rfl⟩
    | some fs => exact .inr ⟨vx', vy', fs, rfl, rfl⟩

lemma trim_cons_blank {s : Octets} (h : ∀ c ∈ s, isBlank c = false) : trim (32#8 :: s) = s := by
  have hdrop {t : Octets} (ht : ∀ c ∈ t, isBlank c = false) : t.dropWhile isBlank = t := by
    cases t with
    | nil => rfl
    | cons c t => rw [dropWhile_cons_of_neg (by simp [ht c mem_cons_self])]
  rw [trim, dropWhile_cons_of_pos (by decide), hdrop h,
    hdrop fun c hc => h c (mem_reverse.mp hc), reverse_reverse]

end

end Library.Http
