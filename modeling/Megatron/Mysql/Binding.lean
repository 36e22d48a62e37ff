import Megatron.Library.SqlText
import Megatron.Mysql.Query

/-!
What a parameter can do to the statement that `DBH_mysql::exec(const QUERY&)` sends. The escaped
parameters are put in for the `?` without quotes (`sent_iff`), so a parameter adds tokens wherever
there is a `?` (`not_bindingSafe`, `binding_safe_iff`).
-/

namespace Megatron.Mysql

open Library List

/-- The query with these parameters is built, and `exec` sends the statement `a`. -/
def Sent (query : Bytes) (params : List Bytes) (a : Bytes) : Prop :=
  ∃ q n, params.foldlM Query.push ⟨query, []⟩ = .ok q ∧ q.exec n = some (.ok a)

variable {query : Bytes}

lemma substituted_of_not_mem (f : Bytes → Bytes) (h : 63#8 ∉ query) (params : List Bytes) :
    substituted f query params = query := by
  induction query with
  | nil => exact substituted_nil f params
  | cons c query ih =>
    rw [mem_cons, not_or] at h
    rw [substituted_cons_of_ne f (Ne.symm h.1), ih h.2]

lemma substituted_append (f : Bytes → Bytes) {before : Bytes} (h : 63#8 ∉ before)
    (query : Bytes) (params : List Bytes) :
    substituted f (before ++ query) params = before ++ substituted f query params := by
  induction before with
  | nil => rfl
  | cons c before ih =>
    rw [mem_cons, not_or] at h
    rw [cons_append, substituted_cons_of_ne f (Ne.symm h.1), ih h.2, cons_append]

lemma sent_iff (query : Bytes) (params : List Bytes) (a : Bytes) :
    Sent query params a ↔ params.length ≤ maxParamsInSql ∧ query.length < 2 ^ 32 ∧
      query.count 63#8 ≤ params.length ∧ a = substituted escape query params := by
  rcases Nat.lt_or_ge maxParamsInSql params.length with hmany | hfew
  · refine iff_of_false ?_ fun h => absurd h.1 (by omega)
    rintro ⟨q, n, hq, -⟩
    rw [foldlM_push_many (Nat.zero_le _) (by simpa using hmany)] at hq
    cases hq
  · rw [and_iff_right hfew]
    constructor
    · rintro ⟨q, n, hq, hexec⟩
      rw [foldlM_push (by simpa using hfew)] at hq
      cases hq
      exact returns_start_iff.mp ⟨n, hexec⟩
    · intro h
      obtain ⟨n, hexec⟩ := (@returns_start_iff _ paramsMissing ⟨query, params⟩ _).mpr h
      exact ⟨_, n, foldlM_push (by simpa using hfew), hexec⟩

/-! ### Tokens -/

/-- Every placeholder is outside quotes and comments. -/
def PlaceholdersOutside (L : SqlLexer) (query : Bytes) : Prop :=
  ∀ before after, query = before ++ 63#8 :: after → L.Outside before

/-- The statements have the same tokens, up to one literal for each placeholder. -/
def BindingSafe (L : SqlLexer) (query : Bytes) (n : ℕ) : Prop :=
  ∀ ps qs a b, ps.length = n → qs.length = n → Sent query ps a → Sent query qs b →
    L.SameUpTo (query.count 63#8) (L.tokens a) (L.tokens b)

lemma not_bindingSafe {L : SqlLexer} (hout : PlaceholdersOutside L query) {n : ℕ}
    (hmem : 63#8 ∈ query) (hcount : query.count 63#8 ≤ n) (hn : n ≤ maxParamsInSql)
    (hsize : query.length < 2 ^ 32) : ¬ BindingSafe L query n := by
  have hpos : 0 < query.count 63#8 := count_pos_iff.mpr hmem
  obtain ⟨before, after, rfl, hbefore⟩ := eq_append_cons_of_mem hmem
  have hlength (p : Bytes) : (p :: List.replicate (n - 1) ([] : Bytes)).length = n := by
    rw [length_cons, length_replicate]
    omega
  -- the statement for a first parameter `p` and empty ones
  have hsent (p : Bytes) : Sent (before ++ 63#8 :: after) (p :: List.replicate (n - 1) [])
      (before ++ (escape p ++ substituted escape after (List.replicate (n - 1) []))) := by
    rw [sent_iff, hlength, substituted_append escape hbefore, substituted_placeholder]
    exact ⟨hn, hsize, hcount, rfl⟩
  intro hsafe
  have hsame := hsafe _ _ _ _ (hlength [59#8]) (hlength [59#8, 59#8]) (hsent _) (hsent _)
  exact absurd hsame.length_eq
    (SqlLexer.length_tokens_semicolons (hout before after rfl) _).ne

/-- **Injection safety of the binding**: only where no parameter is put in. -/
theorem binding_safe_iff (L : SqlLexer) {query : Bytes} (hout : PlaceholdersOutside L query)
    (n : ℕ) : BindingSafe L query n ↔ 63#8 ∉ query ∨ n < query.count 63#8 ∨ maxParamsInSql < n ∨
      2 ^ 32 ≤ query.length := by
  constructor
  · intro hsafe
    by_contra hnot
    push Not at hnot
    exact not_bindingSafe hout hnot.1 hnot.2.1 hnot.2.2.1 hnot.2.2.2 hsafe
  · rintro hcases ps qs a b hps hqs ha hb
    obtain ⟨hfew, hsize, hcount, rfl⟩ := (sent_iff query ps a).mp ha
    obtain ⟨-, -, -, rfl⟩ := (sent_iff query qs b).mp hb
    -- a statement is sent, so there is no placeholder, and it is the query itself
    have hmem : 63#8 ∉ query := by
      rcases hcases with hmem | hless | hmany | hlong
      · exact hmem
      · omega
      · omega
      · omega
    rw [substituted_of_not_mem escape hmem, substituted_of_not_mem escape hmem]
    exact .refl _ _

/-- The query `q=?`. -/
def someQuery : Bytes := [113#8, 61#8, 63#8]

lemma placeholdersOutside_someQuery : PlaceholdersOutside SqlText.textLexer someQuery := by
  intro before after h
  match before, h with
  | [], h => cases h
  | [_], h => cases h
  | [_, _], h =>
    cases h
    rfl
  | [_, _, _], h => cases h
  | _ :: _ :: _ :: _ :: _, h => cases h

theorem binding_safe_someQuery :
    BindingSafe SqlText.textLexer someQuery 0 ∧ ¬ BindingSafe SqlText.textLexer someQuery 1 := by
  have hiff := binding_safe_iff SqlText.textLexer placeholdersOutside_someQuery
  refine ⟨(hiff 0).mpr (by decide), fun hsafe => ?_⟩
  exact absurd ((hiff 1).mp hsafe) (by decide)

/-- **An injection**: the parameters `1` and `1 or 1` of `q=?`. -/
theorem parameter_adds_tokens : ∃ a b, Sent someQuery [[49#8]] a ∧
      Sent someQuery [[49#8, 32#8, 111#8, 114#8, 32#8, 49#8]] b ∧ SqlText.textLexer.tokens a =
        [.word [113#8], .operator [61#8], .word [49#8]] ∧ SqlText.textLexer.tokens b =
        [.word [113#8], .operator [61#8], .word [49#8], .word [111#8, 114#8], .word [49#8]] ∧
      ¬ SqlText.textLexer.SameUpTo 1 (SqlText.textLexer.tokens a) (SqlText.textLexer.tokens b) := by
  refine ⟨_, _, ⟨_, 4, rfl, rfl⟩, ⟨_, 4, rfl, rfl⟩, rfl, rfl, fun h => ?_⟩
  exact absurd h.length_eq (by decide)

end Megatron.Mysql
