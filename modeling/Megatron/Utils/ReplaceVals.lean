import Megatron.Library.Reads
import Megatron.Library.Search
import Megatron.Utils.Regex

/-!
`CUtils::replace_vals` (`main/CUtils.cpp`), which joins the keys of a map to one regular expression
and puts their values in for what `rxfind` finds.
-/

namespace Megatron.Utils

open Library Library.Http List

/-- `std::map::operator[]`. -/
def valueAt (p : List (Bytes × Bytes)) (k : Bytes) : List (Bytes × Bytes) × Bytes :=
  match p.lookup k with
  | some v => (p, v)
  | none => (insertKey p k [], [])

/-- `replace_vals`, with the map after it. -/
def ReplaceVals (rc : Ere.Regcomp) (p : List (Bytes × Bytes)) (src : Bytes)
    (out : Except ReplaceFault (List (Bytes × Bytes) × Bytes)) : Prop :=
  if p = [] then out = .ok (p, src)
  else
    ∃ found, Rxfind rc (cStr (List.intercalate (ascii "|") (p.map Prod.fst))) (cStr src) found ∧
      out = do
        let r ← found
        fillLoop src (fun p d => valueAt p d.str)
          (fun lpz => substr ReplaceFault.outOfRange src (lpz % 2 ^ 32) (src.length - lpz)) p 0 r

structure Keys where
  list : List Bytes
  sorted : list.Pairwise (· < ·)
  ne_nil : list ≠ []
  nonempty : ∀ k ∈ list, k ≠ []

def Keys.table (keys : Keys) (f : Bytes → Bytes) : List (Bytes × Bytes) :=
  keys.list.map fun k => (k, f k)

/-- A key occurs in the text from `i` to `j`. -/
def Occurs (keys : List Bytes) (src : Bytes) (i j : ℕ) : Prop :=
  ∃ k ∈ keys, k <+: src.drop i ∧ j = i + k.length

/-- The text from `i` to `j`. -/
def slice (src : Bytes) (i j : ℕ) : Bytes := (src.drop i).take (j - i)

def SubstitutesKeys (rc : Ere.Regcomp) (keys : Keys) (f : Bytes → Bytes) (src : Bytes) : Prop :=
  ∃ l, Scan (Occurs keys.list src) 0 l ∧ ReplaceVals rc (keys.table f) src
      (.ok (keys.table f, subst f (marked src (slice src) 0 l)))

def KeysFound (rc : Ere.Regcomp) (keys : Keys) (src : Bytes) : Prop :=
  ∃ e, ∃ re : e.Regexec, rc.compile (cStr (List.intercalate (ascii "|") keys.list)) = .ok ⟨e, re⟩ ∧
    ∃ l, Scan (Occurs keys.list src) 0 l ∧ Anew re (cStr src) 0 l

/-! ### The map -/

lemma length_insertKey {α : Type} {p : List (Bytes × α)} {k : Bytes} (h : p.lookup k = none)
    (v : α) : (insertKey p k v).length = p.length + 1 := by
  have hne : ∀ m ∈ p, m.1 ≠ k := fun m hm he => by
    simpa [he] using lookup_eq_none_iff.mp h m hm
  exact (insertBy_perm (lexLt_strictTotal (Streamable.intLt_strictTotal 8 false)) hne).length_eq

variable {k src : Bytes} {ks : List Bytes} {p : List (Bytes × Bytes)}
variable {tail : ℤ → Except ReplaceFault Bytes}

lemma valueAt_of_none (h : p.lookup k = none) : valueAt p k = (insertKey p k [], []) := by
  rw [valueAt, h]

lemma valueAt_of_some {v : Bytes} (h : p.lookup k = some v) : valueAt p k = (p, v) := by
  rw [valueAt, h]

lemma mem_of_lookup {v : Bytes} {f : Bytes → Bytes}
    (h : (ks.map fun k => (k, f k)).lookup k = some v) : k ∈ ks := by
  by_contra hk
  have hnone : (ks.map fun k => (k, f k)).lookup k = none := by
    refine lookup_eq_none_iff.mpr (forall_mem_map.mpr fun k' hk' => ?_)
    simpa using fun he : k = k' => hk (he ▸ hk')
  cases hnone.symm.trans h

lemma length_fillLoop {r : List RxfindData} {p' : List (Bytes × Bytes)} {lpz : ℤ} {a : Bytes}
    (h : fillLoop src (fun p d => valueAt p d.str) tail p lpz r = .ok (p', a)) :
    p.length ≤ p'.length ∧ ((∃ d ∈ r, p.lookup d.str = none) → p.length < p'.length) := by
  induction r generalizing p lpz a with
  | nil =>
    obtain ⟨last, -, h⟩ := exists_of_bind_ok h
    cases h
    exact ⟨le_rfl, fun ⟨d, hd, _⟩ => absurd hd not_mem_nil⟩
  | cons d r ih =>
    obtain ⟨kept, -, h⟩ := exists_of_bind_ok h
    obtain ⟨⟨p₁, rest⟩, hrest, h⟩ := exists_of_bind_ok h
    cases h
    obtain ⟨hle, hlt⟩ := ih hrest
    cases hd : p.lookup d.str with
    | none =>
      dsimp only at hle
      rw [valueAt_of_none hd, length_insertKey hd] at hle
      exact ⟨by omega, fun _ => by omega⟩
    | some v =>
      dsimp only at hle hlt
      rw [valueAt_of_some hd] at hle hlt
      refine ⟨hle, fun ⟨d', hd', hnone⟩ => hlt ⟨d', ?_, hnone⟩⟩
      refine (mem_cons.mp hd').resolve_left ?_
      rintro rfl
      rw [hd] at hnone
      cases hnone

/-! ### The text -/

lemma length_slice {i j : ℕ} (hj : j ≤ src.length) : (slice src i j).length = j - i := by
  rw [slice, length_take, length_drop]
  omega

lemma str_rxfindData {m : ℕ × ℕ} (hm : m.2 ≤ (cStr src).length) :
    (rxfindData (cStr src) 0 m).str = slice src m.1 m.2 := by
  have hprefix : cStr src <+: src := takeWhile_prefix _
  obtain ⟨rest, hrest⟩ := hprefix
  rw [rxfindData, drop_zero, slice]
  dsimp only
  nth_rewrite 2 [← hrest]
  by_cases hle : m.1 ≤ (cStr src).length
  · rw [drop_append_of_le_length hle, take_append_of_le_length]
    rw [length_drop]
    omega
  · rw [show m.2 - m.1 = 0 by omega, take_zero, take_zero]

lemma Occurs.spec {keys : Keys} {i j : ℕ} (h : Occurs keys.list src i j) :
    i < j ∧ j ≤ src.length ∧ slice src i j ∈ keys.list := by
  obtain ⟨k, hk, hprefix, rfl⟩ := h
  have hpos := length_pos_iff.mpr (keys.nonempty k hk)
  have hlen := hprefix.length_le
  rw [length_drop] at hlen
  refine ⟨by omega, by omega, ?_⟩
  rw [slice, Nat.add_sub_cancel_left, ← prefix_iff_eq_take.mp hprefix]
  exact hk

lemma map_inl_append_inr_inj {α β : Type} {s s' : List α} {b b' : β} {w w' : List (α ⊕ β)}
    (h : s.map .inl ++ .inr b :: w = s'.map .inl ++ .inr b' :: w') : s = s' ∧ b = b' ∧ w = w' := by
  induction s generalizing s' with
  | nil =>
    cases s' with
    | nil =>
      obtain ⟨hb, hw⟩ := List.cons.inj h
      exact ⟨rfl, Sum.inr.inj hb, hw⟩
    | cons a s' => cases (List.cons.inj h).1
  | cons a s ih =>
    cases s' with
    | nil => cases (List.cons.inj h).1
    | cons a' s' =>
      obtain ⟨ha, hrest⟩ := List.cons.inj h
      obtain ⟨rfl, hbw⟩ := ih hrest
      exact ⟨by rw [Sum.inl.inj ha], hbw⟩

lemma map_inl_ne {α β : Type} {s s' : List α} {b : β} {w : List (α ⊕ β)} :
    s.map .inl ≠ s'.map .inl ++ .inr b :: w := by
  intro h
  have hmem : (.inr b : α ⊕ β) ∈ s.map .inl := by
    rw [h]
    exact mem_append_right _ mem_cons_self
  obtain ⟨a, -, ha⟩ := mem_map.mp hmem
  cases ha

/-! ### The searches -/

section

variable {keys : Keys} {src : Bytes} {e : Ere} {re : e.Regexec} {p : ℕ}

lemma Reports.anew {es l : List (ℕ × ℕ)} (h : Reports re (cStr src) p es)
    (hp : p ≤ (cStr src).length) (hes : ∀ m ∈ es, slice src m.1 m.2 ∈ keys.list)
    (hscan : Scan (Occurs keys.list src) p l)
    (heq : patched src (slice src) p es = marked src (slice src) p l) : Anew re (cStr src) p l := by
  have hshort : (cStr src).length ≤ src.length := (List.takeWhile_prefix _).length_le
  induction h generalizing l with
  | nil h =>
    cases hscan with
    | nil _ => exact h
    | cons _ _ => exact absurd heq map_inl_ne
  | @cons p i j gs es h _ ih =>
    obtain ⟨hfirst, hij, hj, hgs⟩ := exec_spec hp h
    rw [map_cons, cons_append, patched, if_neg (by omega)] at heq
    cases hscan with
    | nil _ => exact absurd heq.symm map_inl_ne
    | @cons _ i' j' l hfirst' hl =>
      obtain ⟨htake, hslice, hrest⟩ := map_inl_append_inr_inj heq
      obtain ⟨hlt', hj', -⟩ := hfirst'.matched.spec
      have hle' := hfirst'.le
      -- the symbols stand at the same place, and the text of the symbol tells its end
      obtain rfl : i' = p + i := by
        have hlen := congrArg List.length htake
        rw [length_take, length_take, length_drop] at hlen
        omega
      obtain rfl : j' = p + j := by
        have hlen := congrArg List.length hslice
        rw [length_slice (by omega), length_slice hj'] at hlen
        omega
      rw [max_eq_left (by omega)] at hl
      have hnil : reported gs = [] := by
        cases hms : reported gs with
        | nil => rfl
        | cons m ms =>
          -- a group that is a key begins before the end, and all the rest comes before it
          exfalso
          rw [hms] at hes hrest hgs
          have hm := hgs m (mem_cons_of_mem _ mem_cons_self)
          have hkey := hes (p + m.1, p + m.2) (mem_append_left _ (mem_cons_of_mem _ mem_cons_self))
          have hpos := length_pos_iff.mpr (keys.nonempty _ hkey)
          rw [length_slice (by dsimp only; omega)] at hpos
          dsimp only at hpos
          have hmarked : (marked src (slice src) (p + j) l).length ≤ src.length - (p + j) :=
            length_marked_le (fun i j hij => ⟨hij.spec.1, hij.spec.2.1⟩) hl
          rw [← hrest, map_cons, cons_append, patched, if_pos (by omega),
            length_append, length_map, length_drop, length_cons]
            at hmarked
          omega
      have hgroup : re.group1 ((cStr src).drop p) = none := by
        rw [Ere.Regexec.group1, h]
        exact reported_eq_nil_iff.mp hnil
      rw [hnil] at ih hes hrest
      refine ⟨hle', hlt', ?_, hgroup, ih hj (fun m hm => ?_) hl hrest⟩
      · rwa [Nat.add_sub_cancel_left, Nat.add_sub_cancel_left]
      · exact hes m (mem_append_right _ hm)

lemma Reports.unique {es es' : List (ℕ × ℕ)} {t : Bytes} (h : Reports re t p es)
    (h' : Reports re t p es') : es = es' := by
  induction h generalizing es' with
  | nil h =>
    cases h' with
    | nil _ => rfl
    | cons h' _ =>
      rw [(re.none_iff _).mpr h] at h'
      cases h'
  | cons h _ ih =>
    cases h' with
    | nil h' =>
      rw [(re.none_iff _).mpr h'] at h
      cases h
    | cons h' hes' =>
      cases h.symm.trans h'
      rw [ih hes']

end

/-! ### When the values are put in -/

section

variable {rc : Ere.Regcomp} {keys : Keys} {src : Bytes}

lemma table_ne_nil (f : Bytes → Bytes) : keys.table f ≠ [] := by
  intro h
  exact keys.ne_nil (map_eq_nil_iff.mp h)

lemma map_fst_table (f : Bytes → Bytes) : (keys.table f).map Prod.fst = keys.list := by
  rw [Keys.table, map_map]
  exact map_id _

lemma replaceVals_iff {e : Ere} {re : e.Regexec}
    (hvalid : rc.compile (cStr (List.intercalate (ascii "|") keys.list)) = .ok ⟨e, re⟩)
    (f : Bytes → Bytes) {out : Except ReplaceFault (List (Bytes × Bytes) × Bytes)} :
    ReplaceVals rc (keys.table f) src out ↔ ∃ es, Reports re (cStr src) 0 es ∧
      out = fillLoop src (fun p d => valueAt p d.str)
        (fun lpz => substr ReplaceFault.outOfRange src (lpz % 2 ^ 32) (src.length - lpz))
        (keys.table f) 0
        (es.map (rxfindData (cStr src) 0)) := by
  rw [ReplaceVals, if_neg (table_ne_nil f), map_fst_table]
  constructor
  · rintro ⟨found, hfound, rfl⟩
    obtain ⟨es, hes, rfl⟩ := (rxfind_iff hvalid).mp hfound
    exact ⟨es, hes, rfl⟩
  · rintro ⟨es, hes, rfl⟩
    exact ⟨_, (rxfind_iff hvalid).mpr ⟨es, hes, rfl⟩, rfl⟩

lemma fillLoop_keys (hlen : src.length < 2 ^ 31) {es : List (ℕ × ℕ)}
    (hes : ∀ m ∈ es, m.1 ≤ m.2 ∧ m.2 ≤ (cStr src).length)
    (hkeys : ∀ m ∈ es, slice src m.1 m.2 ∈ keys.list) (f : Bytes → Bytes) :
    fillLoop src (fun p d => valueAt p d.str)
      (fun lpz => substr ReplaceFault.outOfRange src (lpz % 2 ^ 32) (src.length - lpz))
        (keys.table f) 0
      (es.map (rxfindData (cStr src) 0)) =
      .ok (keys.table f, subst f (patched src (slice src) 0 es)) := by
  have hshort : (cStr src).length ≤ src.length := (List.takeWhile_prefix _).length_le
  have htail (p : ℕ) (hp : p ≤ src.length) :
      substr ReplaceFault.outOfRange src ((p : ℤ) % 2 ^ 32) (src.length - p) =
        .ok (src.drop p) := by
    have hmod : (p : ℤ) % 2 ^ 32 = p := by omega
    rw [hmod, substr_tail hlen hp]
  refine fillLoop_eq hlen htail (fun m hm => ⟨(hes m hm).1, (hes m hm).2.trans hshort⟩)
    (fun m hm => ?_) (Nat.zero_le _)
  rw [str_rxfindData (hes m hm).2]
  exact valueAt_of_some (lookup_graph f (hkeys m hm))

lemma KeysFound.substitutesKeys (hlen : src.length < 2 ^ 31) (h : KeysFound rc keys src)
    (f : Bytes → Bytes) : SubstitutesKeys rc keys f src := by
  obtain ⟨e, re, hvalid, l, hscan, hanew⟩ := h
  refine ⟨l, hscan, (replaceVals_iff hvalid f).mpr ⟨l, hanew.reports, ?_⟩⟩
  have hkeys : ∀ m ∈ l, slice src m.1 m.2 ∈ keys.list := fun m hm => (hscan.matched m hm).spec.2.2
  rw [fillLoop_keys hlen (hanew.reports.le (Nat.zero_le _)) hkeys f, hanew.patched_eq]

lemma SubstitutesKeys.compiles {f : Bytes → Bytes} (h : SubstitutesKeys rc keys f src) :
    ∃ e, ∃ re : e.Regexec,
      rc.compile (cStr (List.intercalate (ascii "|") keys.list)) = .ok ⟨e, re⟩ := by
  obtain ⟨l, -, hout⟩ := h
  rw [ReplaceVals, if_neg (table_ne_nil f), map_fst_table] at hout
  obtain ⟨found, hfound, hout⟩ := hout
  obtain ⟨r, rfl, -⟩ := exists_of_bind_ok hout.symm
  rw [Rxfind] at hfound
  split at hfound
  · cases hfound
  next re hre => exact ⟨re.1, re.2, hre⟩

lemma keysFound_of_forall (hlen : src.length < 2 ^ 31)
    (h : ∀ f, SubstitutesKeys rc keys f src) : KeysFound rc keys src := by
  obtain ⟨e, re, hvalid⟩ := (h fun k => k).compiles
  obtain ⟨l, hscan, hout⟩ := h fun k => k
  obtain ⟨es, hes, hfill⟩ := (replaceVals_iff hvalid _).mp hout
  have hle := hes.le (Nat.zero_le _)
  have hnontrivial : Nontrivial Byte := ⟨⟨0#8, 1#8, by decide⟩⟩
  refine ⟨e, re, hvalid, l, hscan, ?_⟩
  -- the map is the same afterwards, so that all that is found are keys
  have hkeys (m : ℕ × ℕ) (hm : m ∈ es) : slice src m.1 m.2 ∈ keys.list := by
    rw [← str_rxfindData (hle m hm).2]
    cases hlookup : (keys.table fun k => k).lookup (rxfindData (cStr src) 0 m).str with
    | some v => exact mem_of_lookup hlookup
    | none =>
      have hlonger := (length_fillLoop hfill.symm).2
        ⟨rxfindData (cStr src) 0 m, mem_map_of_mem hm, hlookup⟩
      exact absurd hlonger (lt_irrefl _)
  refine hes.anew (Nat.zero_le _) hkeys hscan (eq_of_subst fun f => ?_)
  obtain ⟨l', hscan', hout'⟩ := h f
  obtain ⟨es', hes', heq⟩ := (replaceVals_iff hvalid f).mp hout'
  obtain rfl := hes.unique hes'
  obtain rfl := hscan.unique hscan'
  rw [fillLoop_keys hlen hle hkeys f] at heq
  exact (Prod.mk.inj (Except.ok.inj heq)).2.symm

lemma occurs_eq (keys : Keys) (src : Bytes) :
    Occurs keys.list src = (Ere.alternatives keys.list).Matches src := by
  funext i j
  refine propext ?_
  rw [Occurs, Ere.matches_alternatives]
  refine exists_congr fun k => and_congr_right fun hk => ?_
  rw [Ere.matches_literal]
  refine (and_iff_right_of_imp fun h => ?_).symm
  have hlen := h.1.length_le
  have hpos := length_pos_iff.mpr (keys.nonempty k hk)
  rw [length_drop] at hlen
  omega

lemma keysFound_of_ordinary (hkeys : ∀ k ∈ keys.list, Ere.Ordinary k) (hzero : 0#8 ∉ src) :
    KeysFound rc keys src := by
  obtain ⟨re, hre⟩ := rc.ordinary keys.list keys.ne_nil hkeys
  have hjoin : cStr (List.intercalate (ascii "|") keys.list) =
      List.intercalate (ascii "|") keys.list := by
    refine cStr_eq_self (forall_mem_intercalate (by decide) fun k hk c hc h0 => ?_)
    rw [h0] at hc
    exact (hkeys k hk).2 _ hc (by decide)
  refine ⟨_, re, ?_, ?_⟩
  · rw [hjoin]
    exact hre
  · rw [occurs_eq]
    refine faithful_of_not_empty (Ere.bolFree_alternatives _) (Ere.groups_alternatives _) hzero
      fun k hk => ?_
    rw [← occurs_eq] at hk
    exact absurd hk.spec.1 (lt_irrefl _)

end

/-- **The values are put in for the keys if the searches find the occurrences of the keys.** -/
theorem replaceVals_right_iff (rc : Ere.Regcomp) (keys : Keys) {src : Bytes}
    (hlen : src.length < 2 ^ 31) : ((∀ f, SubstitutesKeys rc keys f src) ↔ KeysFound rc keys src) ∧
    ((∀ k ∈ keys.list, Ere.Ordinary k) → 0#8 ∉ src → KeysFound rc keys src) :=
  ⟨⟨keysFound_of_forall hlen, fun h f => h.substitutesKeys hlen f⟩, keysFound_of_ordinary⟩

/-- A compilation that knows ordinary strings and `.`. -/
noncomputable def dots : Ere.Regcomp :=
  .of fun pattern =>
    if pattern = ascii "." then
      .ok ⟨.set (· != 0#8), .reporting _ 0 (Nat.zero_le _) Ere.zero_le_nine⟩
    else .error []

/-- The keys `a` and `ab`. -/
def prefixKeys : Keys := ⟨[ascii "a", ascii "ab"], by decide, by decide, by decide⟩

theorem replaceVals_right_longer :
    SubstitutesKeys dots prefixKeys (fun k => k ++ k) (ascii "cab") :=
  ((replaceVals_right_iff dots prefixKeys (by decide)).1.mpr
    ((replaceVals_right_iff dots prefixKeys (by decide)).2 (by decide) (by decide))) _

/-- The key `.`. -/
def dotKey : Keys := ⟨[ascii "."], by decide, by decide, by decide⟩

/-- **The key `.` matches another character.** -/
theorem replaceVals_fails : ¬ ∀ f, SubstitutesKeys dots dotKey f (ascii "a") := by
  intro h
  obtain ⟨e, re, hvalid, l, hscan, hanew⟩ := keysFound_of_forall (by decide) h
  have hdot : dots.compile (cStr (List.intercalate (ascii "|") dotKey.list)) =
      .ok ⟨.set (· != 0#8), .reporting _ 0 (Nat.zero_le _) (by decide)⟩ := rfl
  cases hdot.symm.trans hvalid
  cases hscan with
  | nil _ => exact hanew 0 1 (.set rfl (by decide))
  | @cons _ i j _ hfirst _ =>
    obtain ⟨hlt, hle, hmem⟩ := hfirst.matched.spec
    rw [show (ascii "a").length = 1 from rfl] at hle
    obtain rfl : i = 0 := by omega
    obtain rfl : j = 1 := by omega
    exact absurd hmem (by decide)

end Megatron.Utils
