import Megatron.Corelib.Msockaddr
import Megatron.Library.Ere
import Megatron.Library.Loops

/-!
Searching and replacing with regular expressions, `CUtils::rxfind` and `CUtils::str_replace`
(`main/CUtils.cpp`).
-/

namespace Megatron.Utils

open Library Library.Http List Ere

structure RxfindData where
  str : Bytes
  so : ℤ
  eo : ℤ
  deriving DecidableEq, Repr

/-- The conversion of a `size_t` to an `int`. -/
def asInt (n : ℤ) : ℤ := (BitVec.ofInt 32 n).toInt

def reported : List (Option (ℕ × ℕ)) → List (ℕ × ℕ)
  | some m :: pm => m :: reported pm
  | _ => []

/-- What is known of a match of the string at `lastpos`. -/
def rxfindData (buffer : Bytes) (lastpos : ℕ) (m : ℕ × ℕ) : RxfindData :=
  ⟨((buffer.drop lastpos).drop m.1).take (m.2 - m.1), asInt (m.1 + lastpos : ℕ),
    asInt (m.2 + lastpos : ℕ)⟩

/-- A turn of the loop of `rxfind`. -/
def rxfindStep (exec : Bytes → Option (List (Option (ℕ × ℕ)))) (buffer : Bytes) :
    ℕ × List RxfindData → (ℕ × List RxfindData) ⊕ List RxfindData
  | (lastpos, res) =>
    match exec (buffer.drop lastpos) with
    | none => .inr res
    | some pm =>
      let lpos := ((reported pm).getLast?.map Prod.snd).getD lastpos
      .inl (lastpos + lpos, res ++ (reported pm).map (rxfindData buffer lastpos))

inductive ReplaceFault
  | commonError (what : Bytes)
  | outOfRange
  deriving DecidableEq

/-- `rxfind`: what it throws or finds. -/
def Rxfind (rc : Regcomp) (regexp buffer : Bytes)
    (out : Except ReplaceFault (List RxfindData)) : Prop :=
  match rc.compile regexp with
  | .error erbuf => out = .error (.commonError (ascii "regex " ++ regexp ++ ascii ": " ++ erbuf))
  | .ok re => ∃ res, Returns (rxfindStep re.2.exec buffer) (0, []) res ∧ out = .ok res

def fillLoop {σ : Type} (src : Bytes) (value : σ → RxfindData → σ × Bytes)
    (tail : ℤ → Except ReplaceFault Bytes) :
    σ → ℤ → List RxfindData → Except ReplaceFault (σ × Bytes)
  | p, lpz, [] => do
      let last ← tail lpz
      pure (p, last)
  | p, lpz, d :: r => do
      let kept ← substr .outOfRange src lpz (d.so - lpz)
      let (p', rest) ← fillLoop src value tail (value p d).1 d.eo r
      pure (p', kept ++ (value p d).2 ++ rest)

def StrReplace (rc : Regcomp) (s sr src : Bytes) (out : Except ReplaceFault Bytes) : Prop :=
  ∃ found, Rxfind rc (cStr s) (cStr src) found ∧ out = do
    let r ← found
    let (_, a) ← fillLoop src (fun _ _ => ((), sr))
      (fun lpz => substr .outOfRange src lpz (asInt (src.length - lpz))) () 0 r
    pure a

def ReplacesMatches (rc : Regcomp) (s : Bytes) (e : Ere) (src : Bytes) : Prop :=
  (∃ res, Rxfind rc (cStr s) (cStr src) (.ok res) ∧
    ∀ d ∈ res, 0 ≤ d.so ∧ d.so ≤ d.eo ∧ d.eo ≤ src.length) ∧
  ∃ l, Scan (e.Matches src) 0 l ∧
    ∀ sr, StrReplace rc s sr src (.ok (subst (fun _ => sr) (marked src (fun _ _ => ()) 0 l)))

def Anew {e : Ere} (re : e.Regexec) (t : Bytes) : ℕ → List (ℕ × ℕ) → Prop
  | p, [] => ∀ i j, ¬ e.Matches (t.drop p) i j
  | p, (i, j) :: l => p ≤ i ∧ i < j ∧ First (e.Matches (t.drop p)) 0 (i - p) (j - p) ∧
      re.group1 (t.drop p) = none ∧ Anew re t j l

/-- `regexec` finds the same matches in the rest of the text. -/
def Faithful {e : Ere} (re : e.Regexec) (src : Bytes) : Prop :=
  ∃ l, Scan (e.Matches src) 0 l ∧ Anew re (cStr src) 0 l

lemma asInt_of_lt {n : ℕ} (h : n < 2 ^ 31) : asInt n = n := by
  rw [asInt, BitVec.toInt_ofInt, Int.bmod_eq_of_le (by omega) (by omega)]

variable {e : Ere} {es : List (ℕ × ℕ)} {gs : List (Option (ℕ × ℕ))}
variable {out : Except ReplaceFault Bytes} {p : ℕ} {rc : Regcomp} {s src : Bytes}
variable {tail : ℤ → Except ReplaceFault Bytes}

lemma substr_of_le {i : ℕ} (hlen : src.length < 2 ^ 31) (hp : p ≤ src.length)
    (hi : i ≤ src.length) : substr ReplaceFault.outOfRange src p ((i : ℤ) - p) =
      .ok (if i < p then src.drop p else (src.drop p).take (i - p)) := by
  have hpos : toSize p = p := by
    rw [toSize]
    omega
  rw [substr, hpos, if_neg (by omega)]
  split_ifs with hlt
  · -- a negative number is a large one
    have hlong : (src.drop p).length ≤ toSize ((i : ℤ) - p) := by
      rw [length_drop, toSize]
      omega
    rw [take_of_length_le hlong]
  · have hn : toSize ((i : ℤ) - p) = i - p := by
      rw [toSize]
      omega
    rw [hn]

lemma substr_tail (hlen : src.length < 2 ^ 31) (hp : p ≤ src.length) :
    substr ReplaceFault.outOfRange src p ((src.length : ℤ) - p) = .ok (src.drop p) := by
  have htake : (src.drop p).take (src.length - p) = src.drop p := by
    rw [← length_drop, take_length]
  rw [substr_of_le hlen hp le_rfl, if_neg (by omega), htake]

/-! ### What is reported -/

inductive Reports {e : Ere} (re : e.Regexec) (t : Bytes) : ℕ → List (ℕ × ℕ) → Prop
  | nil {p : ℕ} (h : ∀ i j, ¬ e.Matches (t.drop p) i j) : Reports re t p []
  | cons {p i j : ℕ} {gs : List (Option (ℕ × ℕ))} {es : List (ℕ × ℕ)}
      (h : re.exec (t.drop p) = some (some (i, j) :: gs))
      (hes : Reports re t (p + ((reported gs).getLast?.getD (i, j)).2) es) :
      Reports re t p (((i, j) :: reported gs).map (fun m => (p + m.1, p + m.2)) ++ es)

lemma rxfindData_eq (t : Bytes) (p : ℕ) (m : ℕ × ℕ) :
    rxfindData t p m = rxfindData t 0 (p + m.1, p + m.2) := by
  rw [rxfindData, rxfindData, drop_drop, drop_zero, Nat.add_sub_add_left,
    Nat.add_comm m.1, Nat.add_comm m.2, Nat.add_zero, Nat.add_zero]

section

variable {e : Ere} {re : e.Regexec} {t : Bytes} {p : ℕ}

lemma rxfindStep_none (h : ∀ i j, ¬ e.Matches (t.drop p) i j) (acc : List RxfindData) :
    rxfindStep re.exec t (p, acc) = .inr acc := by
  rw [rxfindStep, (re.none_iff _).mpr h]

lemma rxfindStep_some {i j : ℕ} {gs : List (Option (ℕ × ℕ))}
    (h : re.exec (t.drop p) = some (some (i, j) :: gs)) (acc : List RxfindData) :
    rxfindStep re.exec t (p, acc) = .inl (p + ((reported gs).getLast?.getD (i, j)).2,
      acc ++ (((i, j) :: reported gs).map (fun m => (p + m.1, p + m.2))).map (rxfindData t 0)) := by
  have hmap : ((i, j) :: reported gs).map (rxfindData t p) =
      (((i, j) :: reported gs).map (fun m => (p + m.1, p + m.2))).map (rxfindData t 0) := by
    rw [map_map]
    exact map_congr_left fun m _ => rxfindData_eq t p m
  rw [rxfindStep, h, ← hmap]
  dsimp only
  rw [reported, List.getLast?_cons]
  rfl

/-- **The loop of `rxfind` ends with what it reports.** -/
lemma returns_iff_reports {acc res : List RxfindData} :
    Returns (rxfindStep re.exec t) (p, acc) res ↔
      ∃ es, Reports re t p es ∧ res = acc ++ es.map (rxfindData t 0) := by
  constructor
  · intro h
    refine h.rec_on (P := fun s => ∃ es, Reports re t s.1 es ∧
      res = s.2 ++ es.map (rxfindData t 0)) ?_ ?_
    · rintro ⟨p, acc⟩ hstep
      cases hexec : re.exec (t.drop p) with
      | none =>
        have hnone := (re.none_iff _).mp hexec
        rw [rxfindStep_none hnone] at hstep
        exact ⟨[], .nil hnone, by rw [← Sum.inr.inj hstep, map_nil, append_nil]⟩
      | some pm =>
        obtain ⟨i, j, gs, rfl, -⟩ := re.whole hexec
        rw [rxfindStep_some hexec] at hstep
        cases hstep
    · rintro ⟨p, acc⟩ s' hstep - ⟨es, hes, hres⟩
      cases hexec : re.exec (t.drop p) with
      | none =>
        rw [rxfindStep_none ((re.none_iff _).mp hexec)] at hstep
        cases hstep
      | some pm =>
        obtain ⟨i, j, gs, rfl, -⟩ := re.whole hexec
        rw [rxfindStep_some hexec] at hstep
        obtain rfl := Sum.inl.inj hstep
        refine ⟨_, .cons hexec hes, ?_⟩
        rw [hres, map_append, append_assoc]
  · rintro ⟨es, hes, rfl⟩
    induction hes generalizing acc with
    | nil h =>
      rw [map_nil, append_nil]
      exact (returns_done (rxfindStep_none h acc)).mpr rfl
    | cons h _ ih =>
      rw [returns_next (rxfindStep_some h acc), map_append, ← append_assoc]
      exact ih

lemma mem_of_mem_reported {gs : List (Option (ℕ × ℕ))} {m : ℕ × ℕ} (h : m ∈ reported gs) :
    some m ∈ gs := by
  induction gs using reported.induct with
  | case1 m' gs ih =>
    rw [reported] at h
    rcases mem_cons.mp h with rfl | h
    · exact mem_cons_self
    · exact mem_cons_of_mem _ (ih h)
  | case2 gs hne =>
    rw [reported] at h
    · exact absurd h not_mem_nil
    · exact hne

lemma exec_spec (hp : p ≤ t.length) {i j : ℕ} {gs : List (Option (ℕ × ℕ))}
    (h : re.exec (t.drop p) = some (some (i, j) :: gs)) : First (e.Matches (t.drop p)) 0 i j ∧
    i ≤ j ∧ p + j ≤ t.length ∧ ∀ m ∈ (i, j) :: reported gs, i ≤ m.1 ∧ m.1 ≤ m.2 ∧ m.2 ≤ j := by
  obtain ⟨i', j', gs', hpm, hfirst, -, hgs, -⟩ := re.whole h
  obtain ⟨hm, rfl⟩ := List.cons.inj hpm
  obtain ⟨rfl, rfl⟩ := Prod.mk.inj (Option.some.inj hm)
  obtain ⟨hij, hj⟩ := hfirst.matched.le
  rw [length_drop] at hj
  refine ⟨hfirst, hij, by omega, fun m hm => ?_⟩
  rcases mem_cons.mp hm with rfl | hm
  · exact ⟨le_rfl, hij, le_rfl⟩
  · exact hgs m (mem_of_mem_reported hm)

lemma getLast_mem (m : ℕ × ℕ) (ms : List (ℕ × ℕ)) : ms.getLast?.getD m ∈ m :: ms := by
  cases hlast : ms.getLast? with
  | none => exact mem_cons_self
  | some m' => exact mem_cons_of_mem m (mem_of_getLast? hlast)

lemma Reports.le {es : List (ℕ × ℕ)} (h : Reports re t p es) (hp : p ≤ t.length) :
    ∀ m ∈ es, m.1 ≤ m.2 ∧ m.2 ≤ t.length := by
  induction h with
  | nil _ => exact fun m hm => absurd hm not_mem_nil
  | @cons p i j gs es h _ ih =>
    obtain ⟨-, -, hj, hgs⟩ := exec_spec hp h
    have hlast := (hgs _ (getLast_mem (i, j) (reported gs))).2.2
    intro m hm
    rcases mem_append.mp hm with hm | hm
    · obtain ⟨m', hm', rfl⟩ := mem_map.mp hm
      have hle := hgs m' hm'
      dsimp only
      omega
    · exact ih (by omega) m hm

lemma rxfind_iff {rc : Regcomp} {regexp : Bytes} (hvalid : rc.compile regexp = .ok ⟨e, re⟩)
    {out : Except ReplaceFault (List RxfindData)} : Rxfind rc regexp t out ↔
      ∃ es, Reports re t 0 es ∧ out = .ok (es.map (rxfindData t 0)) := by
  rw [Rxfind, hvalid]
  constructor
  · rintro ⟨res, hres, rfl⟩
    obtain ⟨es, hes, rfl⟩ := returns_iff_reports.mp hres
    exact ⟨es, hes, rfl⟩
  · rintro ⟨es, hes, rfl⟩
    exact ⟨_, returns_iff_reports.mpr ⟨es, hes, rfl⟩, rfl⟩

end

/-! ### What is put in -/

def patched {β : Type} (src : Bytes) (symbol : ℕ → ℕ → β) : ℕ → List (ℕ × ℕ) → List (Byte ⊕ β)
  | p, [] => (src.drop p).map .inl
  | p, (i, j) :: es =>
    (if i < p then src.drop p else (src.drop p).take (i - p)).map .inl ++
      .inr (symbol i j) :: patched src symbol j es

lemma fillLoop_eq {σ β : Type} {t : Bytes} (hlen : src.length < 2 ^ 31)
    {value : σ → RxfindData → σ × Bytes}
    (htail : ∀ p : ℕ, p ≤ src.length → tail p = .ok (src.drop p))
    {symbol : ℕ → ℕ → β} {f : β → Bytes} {v : σ} (hes : ∀ m ∈ es, m.1 ≤ m.2 ∧ m.2 ≤ src.length)
    (hvalue : ∀ m ∈ es, value v (rxfindData t 0 m) = (v, f (symbol m.1 m.2)))
    (hp : p ≤ src.length) : fillLoop src value tail v p (es.map (rxfindData t 0)) =
      .ok (v, subst f (patched src symbol p es)) := by
  induction es generalizing p with
  | nil =>
    rw [map_nil, fillLoop, htail p hp, patched, subst_map_inl]
    rfl
  | cons m es ih =>
    obtain ⟨i, j⟩ := m
    obtain ⟨⟨hij, hj⟩, hes⟩ := forall_mem_cons.mp hes
    obtain ⟨hv, hvalue⟩ := forall_mem_cons.mp hvalue
    have hso : (rxfindData t 0 (i, j)).so = i := asInt_of_lt (by omega)
    have heo : (rxfindData t 0 (i, j)).eo = j := asInt_of_lt (by omega)
    rw [map_cons, fillLoop, hso, heo, hv, substr_of_le hlen hp (by omega),
      ih hes hvalue hj, patched, subst_append, subst_map_inl, subst_cons_inr, ← append_assoc]
    rfl

lemma strReplace_iff {re : e.Regexec}
    (hvalid : rc.compile (cStr s) = .ok ⟨e, re⟩) (hlen : src.length < 2 ^ 31) {sr : Bytes} :
    StrReplace rc s sr src out ↔ ∃ es, Reports re (cStr src) 0 es ∧
      out = .ok (subst (fun _ => sr) (patched src (fun _ _ => ()) 0 es)) := by
  have hshort : (cStr src).length ≤ src.length := (List.takeWhile_prefix _).length_le
  have htail (p : ℕ) (hp : p ≤ src.length) :
      substr ReplaceFault.outOfRange src p (asInt (src.length - p)) = .ok (src.drop p) := by
    have hint : asInt ((src.length : ℤ) - p) = (src.length : ℤ) - p := by
      rw [← Nat.cast_sub hp]
      exact asInt_of_lt (by omega)
    rw [hint, substr_tail hlen hp]
  have hfill {es : List (ℕ × ℕ)} (hes : Reports re (cStr src) 0 es) :
      fillLoop src (fun _ _ => ((), sr))
        (fun lpz => substr .outOfRange src lpz (asInt (src.length - lpz))) () 0
        (es.map (rxfindData (cStr src) 0)) =
        .ok ((), subst (fun _ => sr) (patched src (fun _ _ => ()) 0 es)) := by
    refine fillLoop_eq hlen htail (fun m hm => ?_) (fun m _ => rfl) (Nat.zero_le _)
    have hle := hes.le (Nat.zero_le _) m hm
    omega
  constructor
  · rintro ⟨found, hfound, rfl⟩
    obtain ⟨es, hes, rfl⟩ := (rxfind_iff hvalid).mp hfound
    refine ⟨es, hes, ?_⟩
    simp only [bind, Except.bind, hfill hes, pure, Except.pure]
  · rintro ⟨es, hes, rfl⟩
    refine ⟨_, (rxfind_iff hvalid).mpr ⟨es, hes, rfl⟩, ?_⟩
    simp only [bind, Except.bind, hfill hes, pure, Except.pure]

/-! ### Searches that find the matches of the subject -/

lemma reported_eq_nil_iff : reported gs = [] ↔ gs.getD 0 none = none := by
  cases gs with
  | nil => exact iff_of_true rfl rfl
  | cons g gs =>
    cases g with
    | none => exact iff_of_true rfl rfl
    | some m => exact iff_of_false (cons_ne_nil _ _) (Option.some_ne_none m)

section

variable {e : Ere} {re : e.Regexec} {t : Bytes} {p : ℕ} {l : List (ℕ × ℕ)}

lemma Anew.reports (h : Anew re t p l) : Reports re t p l := by
  induction l generalizing p with
  | nil => exact .nil h
  | cons m l ih =>
    obtain ⟨i, j⟩ := m
    obtain ⟨hp, hij, hfirst, hgroup, hl⟩ := h
    obtain ⟨gs, hexec, -⟩ := re.exec_of_first hfirst
    rw [Regexec.group1, hexec] at hgroup
    have hnil : reported gs = [] := reported_eq_nil_iff.mpr hgroup
    have hi : p + (i - p) = i := by omega
    have hj : p + (j - p) = j := by omega
    have hes : Reports re t (p + ((reported gs).getLast?.getD (i - p, j - p)).2) l := by
      rw [hnil]
      change Reports re t (p + (j - p)) l
      rw [hj]
      exact ih hl
    have hcons := Reports.cons hexec hes
    rw [hnil] at hcons
    change Reports re t p ((p + (i - p), p + (j - p)) :: l) at hcons
    rwa [hi, hj] at hcons

lemma Anew.patched_eq {β : Type} (h : Anew re t p l) (src : Bytes) (symbol : ℕ → ℕ → β) :
    patched src symbol p l = marked src symbol p l := by
  induction l generalizing p with
  | nil => rfl
  | cons m l ih =>
    obtain ⟨i, j⟩ := m
    obtain ⟨hp, -, -, -, hl⟩ := h
    rw [patched, marked, if_neg (Nat.not_lt.mpr hp), ih hl]

end

/-- **The condition is enough.** -/
lemma Faithful.replacesMatches {re : e.Regexec} (hvalid : rc.compile (cStr s) = .ok ⟨e, re⟩)
    (hlen : src.length < 2 ^ 31) (h : Faithful re src) : ReplacesMatches rc s e src := by
  obtain ⟨l, hscan, hanew⟩ := h
  have hshort : (cStr src).length ≤ src.length := (List.takeWhile_prefix _).length_le
  refine ⟨⟨_, (rxfind_iff hvalid).mpr ⟨l, hanew.reports, rfl⟩, fun d hd => ?_⟩, l, hscan,
    fun sr => ?_⟩
  · obtain ⟨⟨i, j⟩, hm, rfl⟩ := mem_map.mp hd
    have hle := hanew.reports.le (Nat.zero_le _) _ hm
    dsimp only at hle
    have hso : (rxfindData (cStr src) 0 (i, j)).so = i := asInt_of_lt (by omega)
    have heo : (rxfindData (cStr src) 0 (i, j)).eo = j := asInt_of_lt (by omega)
    rw [hso, heo]
    omega
  · rw [strReplace_iff hvalid hlen]
    exact ⟨l, hanew.reports, by rw [hanew.patched_eq]⟩

/-! ### Expressions without `^` -/

section

variable {e : Ere} {re : e.Regexec} (he : e.BolFree) {t : Bytes} {p : ℕ}
include he

lemma first_drop_iff (hp : p ≤ t.length) {i j : ℕ} :
    First (e.Matches (t.drop p)) 0 i j ↔ First (e.Matches t) p (p + i) (p + j) := by
  have hdrop {i j : ℕ} := matches_drop (t := t) (i := i) (j := j) he hp
  constructor
  · rintro ⟨hm, -, hleft, hlong⟩
    refine ⟨hdrop.mp hm, Nat.le_add_right p i, fun i' j' hi' h' => ?_, fun j' h' => ?_⟩
    · obtain ⟨i', rfl⟩ := Nat.exists_eq_add_of_le hi'
      obtain ⟨j', rfl⟩ := Nat.exists_eq_add_of_le (hi'.trans h'.le.1)
      exact Nat.add_le_add_left (hleft i' j' (Nat.zero_le _) (hdrop.mpr h')) p
    · obtain ⟨j', rfl⟩ := Nat.exists_eq_add_of_le ((Nat.le_add_right p i).trans h'.le.1)
      exact Nat.add_le_add_left (hlong j' (hdrop.mpr h')) p
  · rintro ⟨hm, -, hleft, hlong⟩
    refine ⟨hdrop.mpr hm, Nat.zero_le _, fun i' j' _ h' => ?_, fun j' h' => ?_⟩
    · exact Nat.le_of_add_le_add_left (hleft _ _ (Nat.le_add_right p i') (hdrop.mp h'))
    · exact Nat.le_of_add_le_add_left (hlong _ (hdrop.mp h'))

variable {es l : List (ℕ × ℕ)} {src : Bytes} {β : Type}

lemma Reports.not_empty (h : Reports re t p es) (hp : p ≤ t.length) (k : ℕ) :
    ¬ e.Matches t k k := by
  intro hk
  -- it would match at the end, and every search would find that
  have hend := hk.empty_end he rfl
  induction h with
  | @nil p h =>
    refine h (t.length - p) (t.length - p) ((matches_drop he hp).mpr ?_)
    rwa [Nat.add_sub_cancel' hp]
  | @cons p i j gs es h _ ih =>
    obtain ⟨-, -, hj, hgs⟩ := exec_spec hp h
    have hlast := (hgs _ (getLast_mem (i, j) (reported gs))).2.2
    exact ih (by omega)

omit he in
lemma length_patched_groups (symbol : ℕ → ℕ → β) {q : ℕ} (ms es : List (ℕ × ℕ))
    (hms : ∀ m ∈ ms, m.1 ≤ m.2 ∧ m.2 ≤ q) :
    t.length - q < (patched t symbol q (ms ++ es)).length ∨ (∀ m ∈ ms, m = (q, q)) ∧
      (patched t symbol q (ms ++ es)).length = ms.length + (patched t symbol q es).length := by
  induction ms with
  | nil => exact .inr ⟨fun m hm => absurd hm not_mem_nil, by simp⟩
  | cons m ms ih =>
    obtain ⟨a, b⟩ := m
    obtain ⟨⟨hab, hb⟩, hms⟩ := forall_mem_cons.mp hms
    dsimp only at hab hb
    rw [cons_append, patched, length_append, length_cons, length_map]
    by_cases ha : a < q
    · left
      rw [if_pos ha, length_drop]
      omega
    · obtain rfl : a = q := by omega
      obtain rfl : b = a := by omega
      rw [if_neg ha, Nat.sub_self, take_zero, length_nil, length_cons]
      rcases ih hms with hlong | ⟨hall, heq⟩
      · left
        omega
      · right
        exact ⟨forall_mem_cons.mpr ⟨rfl, hall⟩, by omega⟩

lemma Reports.length_le (h : Reports re t p es) (hp : p ≤ t.length) (hscan : Scan (e.Matches t) p l)
    (symbol : ℕ → ℕ → β) : (marked t symbol p l).length ≤ (patched t symbol p es).length ∧
    ((marked t symbol p l).length = (patched t symbol p es).length → Anew re t p l) := by
  have hM (i j : ℕ) (hij : e.Matches t i j) : i < j ∧ j ≤ t.length := by
    obtain ⟨hle, hj⟩ := hij.le
    refine ⟨lt_of_le_of_ne hle ?_, hj⟩
    rintro rfl
    exact h.not_empty he hp i hij
  induction h generalizing l with
  | @nil p h =>
    cases hscan with
    | nil _ => exact ⟨le_rfl, fun _ => h⟩
    | @cons _ i j _ hfirst _ =>
      obtain ⟨i, rfl⟩ := Nat.exists_eq_add_of_le hfirst.le
      obtain ⟨j, rfl⟩ := Nat.exists_eq_add_of_le (hfirst.le.trans hfirst.matched.le.1)
      exact absurd ((matches_drop he hp).mpr hfirst.matched) (h i j)
  | @cons p i j gs es h hes ih =>
    obtain ⟨hfirst, hij, hj, hgs⟩ := exec_spec hp h
    have hfirst' := (first_drop_iff he hp).mp hfirst
    cases hscan with
    | nil hnone => exact absurd hfirst'.matched (hnone _ _ hfirst'.le)
    | @cons _ _ _ l hfirst'' hl =>
      obtain ⟨rfl, rfl⟩ := hfirst'.unique hfirst''
      have hlt := (hM _ _ hfirst'.matched).1
      rw [max_eq_left (by omega)] at hl
      have hnot : ¬ p + i < p := by omega
      rw [map_cons, cons_append, patched, marked, if_neg hnot, length_append,
        length_append, length_cons, length_cons]
      dsimp only
      -- the rest of the text, behind the match
      have hmarked : (marked t symbol (p + j) l).length ≤ t.length - (p + j) :=
        length_marked_le hM hl
      have hgroups := length_patched_groups (t := t) symbol
        ((reported gs).map fun m => (p + m.1, p + m.2)) es (q := p + j) (by
          intro m hm
          obtain ⟨m', hm', rfl⟩ := mem_map.mp hm
          have hle := hgs m' (mem_cons_of_mem _ hm')
          dsimp only
          omega)
      rcases hgroups with hlong | ⟨hall, heq⟩
      · exact ⟨by omega, fun h => absurd h (by omega)⟩
      · have hlast : ((reported gs).getLast?.getD (i, j)).2 = j := by
          rcases mem_cons.mp (getLast_mem (i, j) (reported gs)) with hm | hm
          · rw [hm]
          · have hm' := (Prod.mk.inj (hall _ (mem_map_of_mem hm))).2
            omega
        rw [hlast] at ih hes
        obtain ⟨hle, hanew⟩ := ih hj hl
        rw [length_map] at heq
        rw [heq]
        refine ⟨by omega, fun h' => ?_⟩
        have hnil : reported gs = [] := length_eq_zero_iff.mp (by omega)
        have hgroup : re.group1 (t.drop p) = none := by
          rw [Regexec.group1, h]
          exact reported_eq_nil_iff.mp hnil
        refine ⟨by omega, hlt, ?_, hgroup, hanew ?_⟩
        · rwa [Nat.add_sub_cancel_left, Nat.add_sub_cancel_left]
        · rw [hnil, length_nil] at h'
          omega

lemma anew_of_scan (hgroups : e.groups = 0) (hne : ∀ k, ¬ e.Matches t k k)
    (hp : p ≤ t.length) (h : Scan (e.Matches t) p l) : Anew re t p l := by
  induction h with
  | nil h => exact fun i j hij => h _ _ (Nat.le_add_right _ i) (hij.of_drop hp he)
  | @cons p i j l hfirst _ ih =>
    obtain ⟨hij, hj⟩ := hfirst.matched.le
    have hlt : i < j := by
      refine lt_of_le_of_ne hij ?_
      rintro rfl
      exact hne i hfirst.matched
    rw [max_eq_left (by omega)] at ih
    obtain ⟨i, rfl⟩ := Nat.exists_eq_add_of_le hfirst.le
    obtain ⟨j, rfl⟩ := Nat.exists_eq_add_of_le (hfirst.le.trans hij)
    have hfirst' := (first_drop_iff he hp).mpr hfirst
    obtain ⟨gs, hexec, -, -, hgs⟩ := re.exec_of_first hfirst'
    refine ⟨hfirst.le, hlt, ?_, ?_, ih hj⟩
    · rwa [Nat.add_sub_cancel_left, Nat.add_sub_cancel_left]
    · rw [Regexec.group1, hexec]
      exact hgs 0 hgroups.le

lemma faithful_of_not_empty (hgroups : e.groups = 0) (hzero : 0#8 ∉ src)
    (hne : ∀ k, ¬ e.Matches src k k) : Faithful re src := by
  obtain ⟨l, hl⟩ := exists_scan (fun i j hij => ⟨hij.le.1.trans hij.le.2, hij.le.2⟩ :
    ∀ i j, e.Matches src i j → i ≤ src.length ∧ j ≤ src.length) 0
  refine ⟨l, hl, ?_⟩
  rw [cStr_eq_self fun c hc h0 => hzero (h0 ▸ hc)]
  exact anew_of_scan he hgroups hne (Nat.zero_le _) hl

lemma ReplacesMatches.faithful {rc : Regcomp} {s : Bytes}
    (hvalid : rc.compile (cStr s) = .ok ⟨e, re⟩) (hlen : src.length < 2 ^ 31)
    (hzero : 0#8 ∉ src) (h : ReplacesMatches rc s e src) : Faithful re src := by
  obtain ⟨-, l, hscan, hreplace⟩ := h
  have hcstr : cStr src = src := cStr_eq_self fun c hc h0 => hzero (h0 ▸ hc)
  obtain ⟨es, hes, hout⟩ := (strReplace_iff hvalid hlen).mp (hreplace [0#8])
  rw [hcstr] at hes
  have hlength := congrArg List.length (Except.ok.inj hout)
  rw [length_subst, length_subst] at hlength
  refine ⟨l, hscan, ?_⟩
  rw [hcstr]
  exact (hes.length_le he (Nat.zero_le _) hscan _).2 hlength

end

/-! ### When replacing is right -/

/-- **Replacing is right if the searches find the matches of the subject.** -/
theorem strReplace_right_iff {rc : Regcomp} {s : Bytes} {e : Ere} {re : e.Regexec}
    (hvalid : rc.compile (cStr s) = .ok ⟨e, re⟩) {src : Bytes} (hlen : src.length < 2 ^ 31) :
    (Faithful re src → ReplacesMatches rc s e src) ∧
    (e.BolFree → 0#8 ∉ src → (ReplacesMatches rc s e src ↔ Faithful re src) ∧
      (e.groups = 0 → (ReplacesMatches rc s e src ↔ ∀ i, ¬ e.Matches src i i))) := by
  have hiff (he : e.BolFree) (hzero : 0#8 ∉ src) : ReplacesMatches rc s e src ↔ Faithful re src :=
    ⟨ReplacesMatches.faithful he hvalid hlen hzero, Faithful.replacesMatches hvalid hlen⟩
  refine ⟨Faithful.replacesMatches hvalid hlen, fun he hzero => ⟨hiff he hzero, fun hgroups => ?_⟩⟩
  rw [hiff he hzero]
  constructor
  · rintro ⟨l, -, hanew⟩ i
    rw [cStr_eq_self fun c hc h0 => hzero (h0 ▸ hc)] at hanew
    exact hanew.reports.not_empty he (Nat.zero_le _) i
  · exact faithful_of_not_empty he hgroups hzero

noncomputable def letters : Regcomp :=
  .of fun pattern =>
    if pattern = ascii "a*" then
      .ok ⟨.rep (.set (· == 97#8)) 0 none, .reporting _ 0 (Nat.zero_le _) zero_le_nine⟩
    else if pattern = ascii "(a)" then
      .ok ⟨.group (.set (· == 97#8)), .reporting _ 1 le_rfl (by decide)⟩
    else .error []

theorem strReplace_right_letter :
    ReplacesMatches letters (ascii "a") (.alternatives [ascii "a"]) (ascii "ba") := by
  obtain ⟨re, hre⟩ := letters.ordinary [ascii "a"] (by decide) (by decide)
  refine (((strReplace_right_iff hre (by decide)).2 (bolFree_alternatives _)
    (by decide)).2 (groups_alternatives _)).mpr fun i hi => ?_
  obtain ⟨k, hk, hmatch⟩ := matches_alternatives.mp hi
  obtain ⟨-, -, hlen⟩ := matches_literal.mp hmatch
  obtain rfl := mem_singleton.mp hk
  rw [show (ascii "a").length = 1 from rfl] at hlen
  omega

/-- **A loop that does not end, and a match that is replaced twice.** -/
theorem strReplace_fails :
    ¬ ReplacesMatches letters (ascii "a*") (.rep (.set (· == 97#8)) 0 none) (ascii "b") ∧
    ¬ ReplacesMatches letters (ascii "(a)") (.group (.set (· == 97#8))) (ascii "a") := by
  have hstar : letters.compile (cStr (ascii "a*")) = .ok ⟨.rep (.set (· == 97#8)) 0 none,
      .reporting _ 0 (Nat.zero_le _) (by decide)⟩ := rfl
  have hgroup : letters.compile (cStr (ascii "(a)")) = .ok ⟨.group (.set (· == 97#8)),
      .reporting _ 1 le_rfl (by decide)⟩ := rfl
  have hstarFree : (rep (.set (· == 97#8)) 0 none).BolFree := trivial
  have hgroupFree : (group (.set (· == 97#8))).BolFree := trivial
  constructor
  · rintro ⟨⟨res, hres, -⟩, -⟩
    obtain ⟨es, hes, -⟩ := (rxfind_iff hstar).mp hres
    exact hes.not_empty hstarFree (Nat.zero_le _) 0 (.repZero (Nat.zero_le _))
  · intro h
    obtain ⟨l, hscan, hanew⟩ := h.faithful hgroupFree hgroup (by decide) (by decide)
    cases hscan with
    | nil hnone => exact hnone 0 1 le_rfl (.group (.set rfl (by decide)))
    | cons hfirst _ =>
      obtain ⟨-, -, hfound, hnone, -⟩ := hanew
      exact Regexec.group1_reporting _ _ hfound hnone

end Megatron.Utils
