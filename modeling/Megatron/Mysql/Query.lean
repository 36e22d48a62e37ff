import Megatron.Corelib.SockaddrText
import Megatron.Library.Loops

/-!
A query with its parameters (`corelib/_QUERY.cpp`) and the statements that `QUERY::prepare` and
`DBH_mysql::exec` of `modules/mysql/mysqlService.cpp` make of it: which parameters the operators
`<<` take (`foldlM_push`, `length_addAll_le_iff`), when the loop returns and with what
(`returns_start_iff`), and when both are as meant (`query_right_iff`).
-/

namespace Megatron.Mysql

open Library List

structure Query where
  query : Bytes
  params : List Bytes
  deriving DecidableEq, Repr

def maxParamsInSql : ℕ := 64

/-- `QUERY::operator<<(const std::string&)`. -/
def Query.push (q : Query) (s : Bytes) : Except Exn Query :=
  if maxParamsInSql ≤ q.params.length then .error (.commonError "QUERY params > 64")
  else .ok { q with params := q.params ++ [s] }

/-- `mysql_real_escape_string` of a byte. -/
def escapeByte (c : Byte) : Bytes :=
  if c = 0#8 then [92#8, 48#8]
  else if c = 10#8 then [92#8, 110#8]
  else if c = 13#8 then [92#8, 114#8]
  else if c = 26#8 then [92#8, 90#8]
  else if c = 34#8 ∨ c = 39#8 ∨ c = 92#8 then [92#8, c]
  else [c]

def escape (s : Bytes) : Bytes := s.flatMap escapeByte

def paramsMissing : Exn := .commonError "query params size not equal ? count"

/-- `std::to_string`. -/
def toText (i : ℤ) : Bytes := (toString i).toList.map fun c => BitVec.ofNat 8 c.toNat

inductive Param
  | string (s : Bytes)
  | int8 (i : BitVec 8)
  | uint8 (i : BitVec 8)
  | int16 (i : BitVec 16)
  | uint16 (i : BitVec 16)
  | int32 (i : BitVec 32)
  | uint32 (i : BitVec 32)
  | int64 (i : BitVec 64)
  | uint64 (i : BitVec 64)

/-- What is put into `params_`. -/
def Param.text : Param → Bytes
  | .string s => s
  | .int8 i => toText i.toInt
  | .uint8 i => toText i.toNat
  | .int16 i => toText i.toInt
  | .uint16 i => toText i.toNat
  | .int32 i => toText i.toInt
  | .uint32 i => toText i.toNat
  | .int64 i => toText i.toInt
  | .uint64 i => toText i.toNat

/-- The operators `<<`. That for `int32_t` does not look at the limit. -/
def Query.add (q : Query) (p : Param) : Except Exn Query :=
  match p with
  | .int32 i => .ok { q with params := q.params ++ [(Param.int32 i).text] }
  | p => q.push p.text

def Query.after (q : Query) (p : Param) : Query := ((q.add p).toOption).getD q

def Query.addAll (q : Query) (ps : List Param) : Query := ps.foldl Query.after q

/-- One turn of the loops of `prepare` and `exec`. -/
def fillStep (f : Bytes → Bytes) (exn : Exn) (q : Query) :
    ℕ × ℕ × Bytes → (ℕ × ℕ × Bytes) ⊕ Except Exn Bytes
  | (i, qidx, result) =>
    if i < q.query.length then
      let c := q.query.getD i 0#8
      if c ≠ 63#8 then .inl ((i + 1) % 2 ^ 32, qidx, result ++ [c])
      else if q.params.length ≤ qidx then .inr (.error exn)
      else .inl ((i + 1) % 2 ^ 32, qidx + 1, result ++ f (q.params.getD qidx []))
    else .inr (.ok result)

/-- The exception of `prepare`. -/
def Query.paramsMissing (q : Query) : Exn :=
  .commonError ("query params size not equal ? " ++ textOf q.query ++ " ")

/-- `QUERY::prepare`, for at most `n` turns. -/
def Query.prepare (n : ℕ) (q : Query) : Option (Except Exn Bytes) :=
  turns (fillStep id q.paramsMissing q) n (0, 0, [])

/-- `DBH_mysql::exec(const QUERY&)`, for at most `n` turns. -/
def Query.exec (n : ℕ) (q : Query) : Option (Except Exn Bytes) :=
  turns (fillStep escape Mysql.paramsMissing q) n (0, 0, [])

def substituted (f : Bytes → Bytes) (template : Bytes) (params : List Bytes) : Bytes :=
  match template.splitOn 63#8 with
  | [] => []
  | part :: parts => part ++ (List.zipWith (fun p part => f p ++ part) params parts).flatten

def BuildsRight (f : Bytes → Bytes) (q : Query) (build : ℕ → Option (Except Exn Bytes)) : Prop :=
  ((∃ n out, build n = some (.ok out)) ↔ q.query.count 63#8 = q.params.length) ∧
    ∀ n out, build n = some (.ok out) → out = substituted f q.query q.params

variable (f : Bytes → Bytes) (q : Query) (ps : List Param) (p : Param)

lemma substituted_nil (params : List Bytes) : substituted f [] params = [] := by
  simp [substituted, List.splitOn]

lemma substituted_cons_of_ne {c : Byte} (hc : c ≠ 63#8) (t : Bytes)
    (params : List Bytes) : substituted f (c :: t) params = c :: substituted f t params := by
  have hsplit : (c :: t).splitOn 63#8 = (t.splitOn 63#8).modifyHead (List.cons c) := by
    rw [List.splitOn, splitOnP_cons_eq_if_modifyHead, if_neg (by simpa using hc)]
    rfl
  rw [substituted, substituted, hsplit]
  cases h : t.splitOn 63#8 with
  | nil => exact absurd h (splitOnP_ne_nil _ _)
  | cons part parts => rfl

lemma substituted_placeholder (t p : Bytes) (params : List Bytes) :
    substituted f (63#8 :: t) (p :: params) = f p ++ substituted f t params := by
  have hsplit : (63#8 :: t).splitOn 63#8 = [] :: t.splitOn 63#8 := by
    rw [List.splitOn, splitOnP_cons_eq_if_modifyHead, if_pos (by simp)]
    rfl
  rw [substituted, substituted, hsplit]
  cases h : t.splitOn 63#8 with
  | nil => exact absurd h (splitOnP_ne_nil _ _)
  | cons part parts => simp

/-! ### The operators `<<` -/

lemma foldlM_push {q : Query} {params : List Bytes}
    (h : q.params.length + params.length ≤ maxParamsInSql) :
    params.foldlM Query.push q = .ok { q with params := q.params ++ params } := by
  induction params generalizing q with
  | nil => simp [pure, Except.pure]
  | cons p params ih =>
    rw [length_cons] at h
    rw [foldlM_cons, Query.push, if_neg (by omega)]
    show params.foldlM Query.push { q with params := q.params ++ [p] } = _
    rw [ih (by rw [length_append, length_singleton]; omega), append_assoc, singleton_append]

lemma foldlM_push_many {q : Query} {params : List Bytes} (hq : q.params.length ≤ maxParamsInSql)
    (h : maxParamsInSql < q.params.length + params.length) :
    params.foldlM Query.push q = .error (.commonError "QUERY params > 64") := by
  induction params generalizing q with
  | nil => exact absurd h (not_lt.mpr hq)
  | cons p params ih =>
    rw [length_cons] at h
    rw [foldlM_cons, Query.push]
    split_ifs with hfull
    · rfl
    · exact ih (by rw [length_append, length_singleton]; omega)
        (by rw [length_append, length_singleton]; omega)

lemma addAll_append_singleton : q.addAll (ps ++ [p]) = (q.addAll ps).after p := by
  rw [Query.addAll, foldl_append]
  rfl

lemma add_eq_push {p : Param} (hp : ∀ i, p ≠ .int32 i) (q : Query) : q.add p = q.push p.text := by
  cases p with
  | int32 i => exact absurd rfl (hp i)
  | _ => rfl

lemma query_after : (q.after p).query = q.query := by
  by_cases hp : ∀ i, p ≠ .int32 i
  · rw [Query.after, add_eq_push hp, Query.push]
    split_ifs <;> rfl
  · push Not at hp
    obtain ⟨i, rfl⟩ := hp
    rfl

lemma query_addAll : (q.addAll ps).query = q.query := by
  induction ps generalizing q with
  | nil => rfl
  | cons p ps ih => rw [Query.addAll, foldl_cons, ← Query.addAll, ih, query_after]

lemma length_after_int32 (i : BitVec 32) :
    (q.after (.int32 i)).params.length = q.params.length + 1 := by
  rw [Query.after, Query.add]
  simp [Except.toOption]

lemma length_after_le {q : Query} {p : Param} (hp : ∀ i, p ≠ .int32 i)
    (hq : q.params.length ≤ maxParamsInSql) : (q.after p).params.length ≤ maxParamsInSql := by
  rw [Query.after, add_eq_push hp, Query.push]
  split_ifs with hfull
  · exact hq
  · simp only [Except.toOption, Option.getD_some, length_append, length_singleton]
    omega

lemma length_addAll_le_iff {q : Query} (hq : q.params.length ≤ maxParamsInSql) (ps : List Param) :
    (∀ before, before <+: ps → (q.addAll before).params.length ≤ maxParamsInSql) ↔
    ∀ before i, before ++ [.int32 i] <+: ps → (q.addAll before).params.length < maxParamsInSql := by
  constructor
  · intro h before i hbefore
    have hle := h _ hbefore
    rwa [addAll_append_singleton, length_after_int32] at hle
  · intro h before
    induction before using List.reverseRecOn with
    | nil => exact fun _ => hq
    | append_singleton before p ih =>
      intro hbefore
      have hle := ih ((prefix_append before [p]).trans hbefore)
      rw [addAll_append_singleton]
      by_cases hp : ∀ i, p ≠ .int32 i
      · exact length_after_le hp hle
      · push Not at hp
        obtain ⟨i, rfl⟩ := hp
        rw [length_after_int32]
        exact h before i hbefore

section

variable {f : Bytes → Bytes} {exn : Exn} {q : Query} {i qidx : ℕ} {result out : Bytes}

lemma step_stop (h : q.query.length ≤ i) :
    fillStep f exn q (i, qidx, result) = .inr (.ok result) := by
  rw [fillStep, if_neg (by omega)]

lemma step_plain {c : Byte} {t : Bytes} (h : q.query.drop i = c :: t) (hc : c ≠ 63#8) :
    fillStep f exn q (i, qidx, result) = .inl ((i + 1) % 2 ^ 32, qidx, result ++ [c]) := by
  obtain ⟨hlt, hget, -⟩ := of_drop 0#8 h
  rw [fillStep, if_pos hlt, hget]
  exact if_pos hc

lemma step_placeholder {t : Bytes} (h : q.query.drop i = 63#8 :: t) :
    fillStep f exn q (i, qidx, result) = if q.params.length ≤ qidx then .inr (.error exn)
      else .inl ((i + 1) % 2 ^ 32, qidx + 1, result ++ f (q.params.getD qidx [])) := by
  obtain ⟨hlt, hget, -⟩ := of_drop 0#8 h
  rw [fillStep, if_pos hlt, hget]
  exact if_neg (not_not.mpr rfl)

lemma returns_ok_iff (hs : q.query.length < 2 ^ 32) {t : Bytes} (ht : q.query.drop i = t)
    (hqidx : qidx ≤ q.params.length) : Returns (fillStep f exn q) (i, qidx, result) (.ok out) ↔
      t.count 63#8 + qidx ≤ q.params.length ∧
        out = result ++ substituted f t (q.params.drop qidx) := by
  induction t generalizing i qidx result with
  | nil =>
    rw [returns_done (step_stop (drop_eq_nil_iff.mp ht)), substituted_nil, append_nil,
      count_nil, Nat.zero_add, and_iff_right hqidx, Except.ok.injEq]
  | cons c t ih =>
    obtain ⟨hlt, -, hrest⟩ := of_drop 0#8 ht
    by_cases hc : c = 63#8
    · subst hc
      have hstep : fillStep f exn q (i, qidx, result) = _ := step_placeholder ht
      rw [Nat.mod_eq_of_lt (by omega)] at hstep
      rw [count_cons_self]
      rcases Nat.lt_or_ge qidx q.params.length with hmore | hfew
      · rw [if_neg (by omega)] at hstep
        rw [returns_next hstep, ih hrest hmore, drop_eq_getElem_cons hmore, substituted_placeholder,
          getD_eq_getElem _ _ hmore, append_assoc, Nat.add_right_comm, Nat.add_assoc]
      · rw [if_pos hfew] at hstep
        rw [returns_done hstep]
        simp only [reduceCtorEq, false_iff, not_and]
        omega
    · rw [returns_next (step_plain ht hc), Nat.mod_eq_of_lt (by omega), ih hrest hqidx,
        count_cons_of_ne hc, substituted_cons_of_ne f hc, append_assoc]
      rfl

lemma never_returns (hs : 2 ^ 32 ≤ q.query.length) (hi : i < 2 ^ 32) :
    ¬Returns (fillStep f exn q) (i, qidx, result) (.ok out) := by
  have hindex : ∀ k, k % 2 ^ 32 < 2 ^ 32 := fun k => Nat.mod_lt k (by decide)
  intro h
  refine h.rec_on (P := fun st => ¬st.1 < 2 ^ 32) ?_ ?_ hi
  · rintro ⟨i, qidx, result⟩ hdone hi
    dsimp only at hi
    rw [fillStep, if_pos (by omega)] at hdone
    dsimp only at hdone
    split_ifs at hdone
    cases hdone
  · rintro ⟨i, qidx, result⟩ st hstep - hst
    rw [fillStep] at hstep
    dsimp only at hstep
    split_ifs at hstep <;> cases hstep <;> exact absurd (hindex _) hst

lemma returns_start_iff : Returns (fillStep f exn q) (0, 0, []) (.ok out) ↔ q.query.length <
    2 ^ 32 ∧ q.query.count 63#8 ≤ q.params.length ∧ out = substituted f q.query q.params := by
  rcases Nat.lt_or_ge q.query.length (2 ^ 32) with hs | hs
  · rw [returns_ok_iff hs drop_zero (Nat.zero_le _), and_iff_right hs]
    rfl
  · exact iff_of_false (never_returns hs (by decide)) fun h => absurd h.1 (by omega)

lemma buildsRight_iff (f : Bytes → Bytes) (exn : Exn) (q : Query) :
    BuildsRight f q (fun n => turns (fillStep f exn q) n (0, 0, [])) ↔ if q.query.length <
    2 ^ 32 then q.params.length ≤ q.query.count 63#8 else q.query.count 63#8 ≠ q.params.length := by
  have hbuilt : (∃ n out, turns (fillStep f exn q) n (0, 0, []) = some (.ok out)) ↔
      q.query.length < 2 ^ 32 ∧ q.query.count 63#8 ≤ q.params.length := by
    rw [exists_comm]
    show (∃ out, Returns _ _ _) ↔ _
    simp only [returns_start_iff, ← and_assoc, exists_and_left, exists_eq, and_true]
  have hresult : ∀ n out, turns (fillStep f exn q) n (0, 0, []) = some (.ok out) →
      out = substituted f q.query q.params :=
    fun n out h => (returns_start_iff.mp ⟨n, h⟩).2.2
  rw [BuildsRight, hbuilt, and_iff_left hresult]
  split_ifs with hs
  · simp only [hs, true_and]
    omega
  · have hnone : ¬(q.query.length < 2 ^ 32 ∧ q.query.count 63#8 ≤ q.params.length) :=
      fun h => hs h.1
    rw [iff_false_left hnone]

end

/-- **When the limit is kept and the statements are the right ones.** -/
theorem query_right_iff (template : Bytes) (ps : List Param) : (∀ before, before <+: ps →
        ((⟨template, []⟩ : Query).addAll before).params.length ≤ maxParamsInSql) ∧
      BuildsRight id ((⟨template, []⟩ : Query).addAll ps)
        (((⟨template, []⟩ : Query).addAll ps).prepare ·) ∧
      BuildsRight escape ((⟨template, []⟩ : Query).addAll ps)
        (((⟨template, []⟩ : Query).addAll ps).exec ·) ↔ (∀ before i, before ++ [.int32 i] <+: ps →
        ((⟨template, []⟩ : Query).addAll before).params.length < maxParamsInSql) ∧
      if template.length < 2 ^ 32 then
        ((⟨template, []⟩ : Query).addAll ps).params.length ≤ template.count 63#8
      else template.count 63#8 ≠ ((⟨template, []⟩ : Query).addAll ps).params.length := by
  have hquery : ((⟨template, []⟩ : Query).addAll ps).query = template := query_addAll _ ps
  have hprepare := buildsRight_iff id ((⟨template, []⟩ : Query).addAll ps).paramsMissing
    ((⟨template, []⟩ : Query).addAll ps)
  have hexec := buildsRight_iff escape paramsMissing ((⟨template, []⟩ : Query).addAll ps)
  rw [hquery] at hprepare hexec
  exact and_congr (length_addAll_le_iff (Nat.zero_le _) ps)
    ((and_congr hprepare hexec).trans (and_self_iff))

/-- **One parameter too many is not noticed.** -/
theorem query_too_many :
    ((⟨[63#8], []⟩ : Query).addAll [.string [97#8], .string [98#8]]).params = [[97#8], [98#8]] ∧
    ((⟨[63#8], []⟩ : Query).addAll [.string [97#8], .string [98#8]]).prepare 2 = some (.ok [97#8]) ∧
    ((⟨[63#8], []⟩ : Query).addAll [.string [97#8], .string [98#8]]).exec 2 = some (.ok [97#8]) ∧
    ((⟨[], []⟩ : Query).addAll (List.replicate 65 (.int32 7#32))).params.length = 65 := by
  decide +kernel

end Megatron.Mysql
