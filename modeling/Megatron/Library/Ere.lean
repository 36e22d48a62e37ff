import Mathlib.Data.List.GetD
import Megatron.Library.HttpSyntax
import Megatron.Library.Scan

/-!
Extended regular expressions of POSIX, without back-references.
-/

namespace Library

open Http List

inductive Ere where
  | set (p : Octet → Bool)
  | empty
  | bol
  | eol
  | seq (a b : Ere)
  | alt (a b : Ere)
  | rep (a : Ere) (min : ℕ) (max : Option ℕ)
  | group (a : Ere)

namespace Ere

/-- The expression matches the part of the text from a place up to another. -/
inductive Matches (t : Octets) : Ere → ℕ → ℕ → Prop
  | set {p : Octet → Bool} {c : Octet} {i : ℕ} (hc : t[i]? = some c) (hp : p c = true) :
      Matches t (.set p) i (i + 1)
  | empty {i : ℕ} (hi : i ≤ t.length) : Matches t .empty i i
  | bol : Matches t .bol 0 0
  | eol : Matches t .eol t.length t.length
  | seq {a b : Ere} {i j k : ℕ} (ha : Matches t a i j) (hb : Matches t b j k) :
      Matches t (.seq a b) i k
  | altLeft {a b : Ere} {i j : ℕ} (ha : Matches t a i j) : Matches t (.alt a b) i j
  | altRight {a b : Ere} {i j : ℕ} (hb : Matches t b i j) : Matches t (.alt a b) i j
  | repZero {a : Ere} {max : Option ℕ} {i : ℕ} (hi : i ≤ t.length) : Matches t (.rep a 0 max) i i
  | repSucc {a : Ere} {min : ℕ} {max : Option ℕ} {i j k : ℕ} (hmax : max ≠ some 0)
      (ha : Matches t a i j) (hrest : Matches t (.rep a (min - 1) (max.map (· - 1))) j k) :
      Matches t (.rep a min max) i k
  | group {a : Ere} {i j : ℕ} (ha : Matches t a i j) : Matches t (.group a) i j

def groups : Ere → ℕ
  | .seq a b | .alt a b => a.groups + b.groups
  | .rep a _ _ => a.groups
  | .group a => a.groups + 1
  | .set _ | .empty | .bol | .eol => 0

/-- `^` does not occur. -/
def BolFree : Ere → Prop
  | .bol => False
  | .seq a b | .alt a b => a.BolFree ∧ b.BolFree
  | .rep a _ _ | .group a => a.BolFree
  | .set _ | .empty | .eol => True

section

variable {t : Octets} {e : Ere} {i j : ℕ}

lemma Matches.le (h : Matches t e i j) : i ≤ j ∧ j ≤ t.length := by
  induction h with
  | set hc _ =>
    obtain ⟨hlt, -⟩ := List.getElem?_eq_some_iff.mp hc
    omega
  | empty hi | repZero hi => exact ⟨le_rfl, hi⟩
  | bol => exact ⟨le_rfl, Nat.zero_le _⟩
  | eol => exact ⟨le_rfl, le_rfl⟩
  | seq _ _ iha ihb => exact ⟨iha.1.trans ihb.1, ihb.2⟩
  | altLeft _ ih | altRight _ ih | group _ ih => exact ih
  | repSucc _ _ _ iha ihr => exact ⟨iha.1.trans ihr.1, ihr.2⟩

lemma Matches.of_drop {p : ℕ} (hp : p ≤ t.length) (h : Matches (t.drop p) e i j)
    (he : e.BolFree) : Matches t e (p + i) (p + j) := by
  have hlen : p + (t.drop p).length = t.length := by
    rw [length_drop]
    omega
  induction h with
  | set hc hs =>
    rw [List.getElem?_drop] at hc
    exact .set hc hs
  | empty hi => exact .empty (by omega)
  | bol => exact he.elim
  | eol =>
    rw [hlen]
    exact .eol
  | seq _ _ iha ihb => exact .seq (iha he.1) (ihb he.2)
  | altLeft _ ih => exact .altLeft (ih he.1)
  | altRight _ ih => exact .altRight (ih he.2)
  | repZero hi => exact .repZero (by omega)
  | repSucc hmax _ _ iha ihr => exact .repSucc hmax (iha he) (ihr he)
  | group _ ih => exact .group (ih he)

lemma Matches.drop {p : ℕ} (h : Matches t e i j) (he : e.BolFree) (hp : p ≤ i) :
    Matches (t.drop p) e (i - p) (j - p) := by
  have hlen : (t.drop p).length = t.length - p := length_drop ..
  induction h with
  | @set _ _ i hc hs =>
    have hi : i + 1 - p = i - p + 1 := by omega
    rw [hi]
    refine .set ?_ hs
    rw [List.getElem?_drop, ← hc]
    congr 1
    omega
  | empty hi => exact .empty (by omega)
  | bol => exact he.elim
  | eol =>
    rw [← hlen]
    exact .eol
  | seq ha _ iha ihb => exact .seq (iha he.1 hp) (ihb he.2 (hp.trans ha.le.1))
  | altLeft _ ih => exact .altLeft (ih he.1 hp)
  | altRight _ ih => exact .altRight (ih he.2 hp)
  | repZero hi => exact .repZero (by omega)
  | repSucc hmax ha _ iha ihr => exact .repSucc hmax (iha he hp) (ihr he (hp.trans ha.le.1))
  | group _ ih => exact .group (ih he hp)

lemma matches_drop (he : e.BolFree) {p : ℕ} (hp : p ≤ t.length) :
    Matches (t.drop p) e i j ↔ Matches t e (p + i) (p + j) := by
  refine ⟨fun h => h.of_drop hp he, fun h => ?_⟩
  have hdrop := h.drop he (Nat.le_add_right p i)
  rwa [Nat.add_sub_cancel_left, Nat.add_sub_cancel_left] at hdrop

lemma Matches.empty_end (h : Matches t e i j) (he : e.BolFree) (hij : i = j) :
    Matches t e t.length t.length := by
  induction h with
  | set _ _ => exact absurd hij (Nat.lt_succ_self _).ne
  | empty _ => exact .empty le_rfl
  | bol => exact he.elim
  | eol => exact .eol
  | seq ha hb iha ihb =>
    have ha' := ha.le.1
    have hb' := hb.le.1
    exact .seq (iha he.1 (by omega)) (ihb he.2 (by omega))
  | altLeft _ ih => exact .altLeft (ih he.1 hij)
  | altRight _ ih => exact .altRight (ih he.2 hij)
  | repZero _ => exact .repZero le_rfl
  | repSucc hmax ha hr iha ihr =>
    have ha' := ha.le.1
    have hr' := hr.le.1
    exact .repSucc hmax (iha he (by omega)) (ihr he (by omega))
  | group _ ih => exact .group (ih he hij)

end

def literal : Octets → Ere
  | [] => .empty
  | c :: k => .seq (.set (· == c)) (literal k)

def alternatives : List Octets → Ere
  | [] => .set fun _ => false
  | [k] => literal k
  | k :: ks => .alt (literal k) (alternatives ks)

lemma matches_literal {t k : Octets} {i j : ℕ} :
    Matches t (literal k) i j ↔ i ≤ t.length ∧ k <+: t.drop i ∧ j = i + k.length := by
  induction k generalizing i with
  | nil =>
    rw [literal, length_nil, Nat.add_zero]
    constructor
    · intro h
      cases h with
      | empty hi => exact ⟨hi, nil_prefix, rfl⟩
    · rintro ⟨hi, -, rfl⟩
      exact .empty hi
  | cons c k ih =>
    rw [literal, length_cons]
    constructor
    · intro h
      cases h with
      | seq ha hb =>
        cases ha with
        | set hc hp =>
          obtain ⟨hlt, rfl⟩ := List.getElem?_eq_some_iff.mp hc
          obtain ⟨-, hk, rfl⟩ := ih.mp hb
          have hc' := beq_iff_eq.mp hp
          refine ⟨hlt.le, ?_, by omega⟩
          rw [drop_eq_getElem_cons hlt, hc']
          exact cons_prefix_cons.mpr ⟨rfl, hk⟩
    · rintro ⟨hi, hk, rfl⟩
      have hlt : i < t.length := by
        have hlen := hk.length_le
        rw [length_cons, length_drop] at hlen
        omega
      rw [drop_eq_getElem_cons hlt] at hk
      obtain ⟨hc, hk⟩ := cons_prefix_cons.mp hk
      refine .seq (.set (List.getElem?_eq_getElem hlt) (beq_iff_eq.mpr hc.symm)) ?_
      exact ih.mpr ⟨hlt, hk, by omega⟩

lemma matches_alternatives {t : Octets} {ks : List Octets} {i j : ℕ} :
    Matches t (alternatives ks) i j ↔ ∃ k ∈ ks, Matches t (literal k) i j := by
  induction ks using alternatives.induct with
  | case1 =>
    constructor
    · intro h
      cases h with
      | set _ hp => cases hp
    · rintro ⟨k, hk, -⟩
      exact absurd hk not_mem_nil
  | case2 k =>
    rw [alternatives]
    exact ⟨fun h => ⟨k, mem_singleton_self k, h⟩, fun ⟨k', hk', h⟩ => by
      rwa [← mem_singleton.mp hk']⟩
  | case3 k ks hne ih =>
    rw [alternatives]
    · constructor
      · intro h
        cases h with
        | altLeft ha => exact ⟨k, mem_cons_self, ha⟩
        | altRight hb =>
          obtain ⟨k', hk', h⟩ := ih.mp hb
          exact ⟨k', mem_cons_of_mem _ hk', h⟩
      · rintro ⟨k', hk', h⟩
        rcases mem_cons.mp hk' with rfl | hk'
        · exact .altLeft h
        · exact .altRight (ih.mpr ⟨k', hk', h⟩)
    · exact hne

lemma groups_alternatives (ks : List Octets) : (alternatives ks).groups = 0 := by
  have hliteral (k : Octets) : (literal k).groups = 0 := by
    induction k with
    | nil => rfl
    | cons c k ih => rw [literal, groups, ih, groups]
  induction ks using alternatives.induct with
  | case1 => rfl
  | case2 k => exact hliteral k
  | case3 k ks hne ih =>
    rw [alternatives]
    · rw [groups, hliteral, ih]
    · exact hne

lemma bolFree_alternatives (ks : List Octets) : (alternatives ks).BolFree := by
  have hliteral (k : Octets) : (literal k).BolFree := by
    induction k with
    | nil => exact trivial
    | cons c k ih => exact ⟨trivial, ih⟩
  induction ks using alternatives.induct with
  | case1 => exact trivial
  | case2 k => exact hliteral k
  | case3 k ks hne ih =>
    rw [alternatives]
    · exact ⟨hliteral k, ih⟩
    · exact hne

/-! ### The C library -/

/-- `regexec` with room for ten matches: the leftmost and longest one, and its groups. -/
structure Regexec (e : Ere) where
  exec : Octets → Option (List (Option (ℕ × ℕ)))
  none_iff : ∀ t, exec t = none ↔ ∀ i j, ¬ e.Matches t i j
  whole : ∀ {t pm}, exec t = some pm → ∃ i j gs, pm = some (i, j) :: gs ∧
    First (e.Matches t) 0 i j ∧ gs.length = 9 ∧
    (∀ g, some g ∈ gs → i ≤ g.1 ∧ g.1 ≤ g.2 ∧ g.2 ≤ j) ∧
    ∀ k, e.groups ≤ k → gs.getD k none = none

namespace Regexec

variable {e : Ere} (re : Regexec e)

def group1 (t : Octets) : Option (ℕ × ℕ) := (re.exec t).bind fun pm => pm.getD 1 none

variable {re} {t : Octets} {i j : ℕ}

lemma exec_of_first (h : First (e.Matches t) 0 i j) : ∃ gs, re.exec t = some (some (i, j) :: gs) ∧
    gs.length = 9 ∧ (∀ g, some g ∈ gs → i ≤ g.1 ∧ g.1 ≤ g.2 ∧ g.2 ≤ j) ∧
    ∀ k, e.groups ≤ k → gs.getD k none = none := by
  cases hpm : re.exec t with
  | none => exact absurd h.matched ((re.none_iff t).mp hpm i j)
  | some pm =>
    obtain ⟨i', j', gs, rfl, hfirst, hgs⟩ := re.whole hpm
    obtain ⟨rfl, rfl⟩ := h.unique hfirst
    exact ⟨gs, rfl, hgs⟩

open Classical in
noncomputable def reporting (e : Ere) (k : ℕ) (hk : k ≤ e.groups) (hk' : k ≤ 9) : Regexec e where
  exec t :=
    if h : ∃ m : ℕ × ℕ, First (e.Matches t) 0 m.1 m.2 then
      some (some h.choose :: (List.replicate k (some h.choose) ++ List.replicate (9 - k) none))
    else none
  none_iff t := by
    constructor
    · intro h i j hij
      split_ifs at h with hex
      obtain ⟨i', j', hfirst⟩ :=
        exists_first (p := 0) (fun i j hij => hij.le.2) ⟨i, j, Nat.zero_le i, hij⟩
      exact hex ⟨(i', j'), hfirst⟩
    · intro h
      exact dif_neg fun ⟨m, hm⟩ => h _ _ hm.matched
  whole {t pm} h := by
    split_ifs at h with hex
    cases h
    have hfirst := hex.choose_spec
    refine ⟨_, _, _, rfl, hfirst, ?_, ?_, ?_⟩
    · rw [length_append, length_replicate, length_replicate]
      omega
    · intro g hg
      rcases mem_append.mp hg with hg | hg
      · cases eq_of_mem_replicate hg
        exact ⟨le_rfl, hfirst.matched.le.1, le_rfl⟩
      · cases eq_of_mem_replicate hg
    · intro n hn
      rw [getD_append_right _ _ _ _ (by rw [length_replicate]; omega), length_replicate]
      by_cases hlt : n - k < 9 - k
      · rw [getD_replicate _ hlt]
      · rw [getD_eq_default _ _ (by rw [length_replicate]; omega)]

end Regexec

def special : Octets :=
  [0#8, 46#8, 91#8, 92#8, 40#8, 41#8, 42#8, 43#8, 63#8, 123#8, 124#8, 94#8, 36#8]

def Ordinary (k : Octets) : Prop := k ≠ [] ∧ ∀ c ∈ k, c ∉ special

/-- `regcomp` and `regexec`. -/
structure Regcomp where
  compile : Octets → Except Octets ((e : Ere) × Regexec e)
  ordinary : ∀ ks, ks ≠ [] → (∀ k ∈ ks, Ordinary k) →
    ∃ re, compile (List.intercalate [124#8] ks) = .ok ⟨alternatives ks, re⟩

instance (k : Octets) : Decidable (Ordinary k) :=
  inferInstanceAs (Decidable (k ≠ [] ∧ ∀ c ∈ k, c ∉ special))

lemma zero_le_nine : 0 ≤ 9 := Nat.zero_le 9

noncomputable def Regcomp.of (other : Octets → Except Octets ((e : Ere) × Regexec e)) :
    Regcomp where
  compile pattern :=
    if ∀ k ∈ pattern.splitOn 124#8, Ordinary k then
      .ok ⟨alternatives (pattern.splitOn 124#8), .reporting _ 0 (Nat.zero_le _) zero_le_nine⟩
    else other pattern
  ordinary ks hne hks := by
    have hsplit : (List.intercalate [124#8] ks).splitOn 124#8 = ks :=
      splitOn_intercalate _ (fun k hk h => (hks k hk).2 _ h (by decide)) hne
    rw [hsplit, if_pos hks]
    exact ⟨_, rfl⟩

lemma Regexec.group1_reporting {e : Ere} {k : ℕ} (hk : k + 1 ≤ e.groups) (hk' : k + 1 ≤ 9)
    {t : Octets} {i j : ℕ} (h : First (e.Matches t) 0 i j) :
    (Regexec.reporting e (k + 1) hk hk').group1 t ≠ none := by
  have hex : ∃ m : ℕ × ℕ, First (e.Matches t) 0 m.1 m.2 := ⟨(i, j), h⟩
  rw [Regexec.group1, Regexec.reporting]
  dsimp only
  rw [dif_pos hex, replicate_succ]
  exact Option.some_ne_none _

end Ere

end Library
