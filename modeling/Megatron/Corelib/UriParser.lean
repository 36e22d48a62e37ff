import Megatron.Corelib.IoBuffer
import Megatron.Library.HttpSyntax
import Megatron.Library.Search

/-!
The class `URIParser` (`corelib/httpUrlParser.h`), which takes the target of a request apart.
-/

namespace Megatron

open Library Library.Http List Option

structure UriParser where
  fullUri : Bytes
  path : Bytes
  query : Bytes
  fragment : Bytes
  params : Bytes → Option Bytes

/-- `params_[key] = value`. -/
def setParam (params : Bytes → Option Bytes) (key value : Bytes) : Bytes → Option Bytes :=
  fun k => if k = key then some value else params k

def parsePair (params : Bytes → Option Bytes) (pair : Bytes) : Bytes → Option Bytes :=
  if pair = [] then params
  else
    match find [61#8] pair with
    | some eqPos => setParam params (pair.take eqPos) (pair.drop (eqPos + 1))
    | none => setParam params pair []

/-- The loop of `parse_query_params`, from `start` on. -/
def parseQueryParams (query : Bytes) (params : Bytes → Option Bytes) : Bytes → Option Bytes :=
  if query = [] then params
  else
    let pairEnd := (find [38#8] query).getD query.length
    parseQueryParams (query.drop (pairEnd + 1)) (parsePair params (query.take pairEnd))
termination_by query.length
decreasing_by
  rename_i hne
  have := length_pos_iff.mpr hne
  rw [length_drop]
  omega

namespace UriParser

def parsePathComponents (u : UriParser) (path : Bytes) : UriParser :=
  let u :=
    match find [63#8] path with
    | some queryStart =>
      let u := { u with query := path.drop (queryStart + 1), path := path.take queryStart }
      let u :=
        match find [35#8] u.query with
        | some fragmentStart =>
          { u with
            fragment := u.query.drop (fragmentStart + 1)
            query := u.query.take fragmentStart }
        | none => u
      { u with params := parseQueryParams u.query u.params }
    | none =>
      match find [35#8] path with
      | some fragmentStart =>
        { u with fragment := path.drop (fragmentStart + 1), path := path.take fragmentStart }
      | none => { u with path := path }
  if u.path = [] then { u with path := ascii "/" } else u

/-- `parse`, which returns `true` always. -/
def parse (u : UriParser) (uri : Bytes) : UriParser :=
  let u := { u with fullUri := uri, params := fun _ => none }
  if uri = [] then { u with path := ascii "/" }
  else
    match find (ascii "://") uri with
    | some schemeEnd =>
      let remaining := uri.drop (schemeEnd + 3)
      match find [47#8] remaining with
      | some hostEnd => u.parsePathComponents (remaining.drop hostEnd)
      | none => { u with path := ascii "/" }
    | none => u.parsePathComponents uri

end UriParser

structure Target where
  path : Bytes
  query : Option Bytes
  fragment : Option Bytes
  slash : path.head? = some 47#8
  path_clean : 63#8 ∉ path ∧ 35#8 ∉ path
  query_clean : ∀ q ∈ query, 35#8 ∉ q

def Target.text (t : Target) : Bytes :=
  t.path ++ ((t.query.elim [] fun q => 63#8 :: q) ++ t.fragment.elim [] fun f => 35#8 :: f)

def keyValue (pair : Bytes) : Bytes × Bytes :=
  (pair.takeWhile fun c => c ≠ 61#8, (pair.dropWhile fun c => c ≠ 61#8).drop 1)

def pairsOf (query : Bytes) : List (Bytes × Bytes) :=
  ((query.splitOn 38#8).filter fun pair => pair ≠ []).map keyValue

def lastValues (query key : Bytes) : Option Bytes :=
  ((pairsOf query).reverse.find? fun pair => pair.1 = key).map Prod.snd

def Parsed (t : Target) (u : UriParser) : Prop :=
  u.path = t.path ∧ u.query = t.query.getD [] ∧ u.fragment = t.fragment.getD [] ∧
    u.params = lastValues (t.query.getD [])

/-! ### The parameters -/

lemma keyValue_append {key : Bytes} (hkey : 61#8 ∉ key) (value : Bytes) :
    keyValue (key ++ 61#8 :: value) = (key, value) := by
  have hall : ∀ c ∈ key, decide (c ≠ 61#8) = true := by
    intro c hc
    exact decide_eq_true fun h => hkey (h ▸ hc)
  rw [keyValue, takeWhile_append_of_pos hall, dropWhile_append_of_pos hall,
    takeWhile_cons_of_neg (by simp), dropWhile_cons_of_neg (by simp), append_nil]
  rfl

variable {pair part : Bytes} {u : UriParser} (query : Bytes) (pairs : List (Bytes × Bytes))
variable (t : Target) (params : Bytes → Option Bytes)

lemma keyValue_of_not_mem (h : 61#8 ∉ pair) : keyValue pair = (pair, []) := by
  have hall : ∀ c ∈ pair, decide (c ≠ 61#8) = true := by
    intro c hc
    exact decide_eq_true fun heq => h (heq ▸ hc)
  rw [keyValue, takeWhile_eq_self_iff.mpr hall, dropWhile_eq_nil_iff.mpr hall]
  rfl

lemma parsePair_eq (hne : pair ≠ []) (params : Bytes → Option Bytes) :
    parsePair params pair = setParam params (keyValue pair).1 (keyValue pair).2 := by
  rw [parsePair, if_neg hne]
  by_cases hmem : 61#8 ∈ pair
  · obtain ⟨key, value, rfl, hkey⟩ := eq_append_cons_of_mem hmem
    rw [find_singleton hkey, keyValue_append hkey]
    simp
  · rw [find_singleton_none hmem, keyValue_of_not_mem hmem]

lemma foldl_part (part : Bytes) (params : Bytes → Option Bytes) :
    (([part].filter fun pair => pair ≠ []).map keyValue).foldl
      (fun params pair => setParam params pair.1 pair.2) params = parsePair params part := by
  by_cases hpart : part = []
  · subst hpart
    rfl
  · rw [filter_cons_of_pos (by simpa using hpart), parsePair_eq hpart]
    rfl

lemma parseQueryParams_part (hpart : 38#8 ∉ part) (rest : Bytes) (params : Bytes → Option Bytes) :
    parseQueryParams (part ++ 38#8 :: rest) params =
    parseQueryParams rest (parsePair params part) := by
  rw [parseQueryParams, if_neg (by simp), find_singleton hpart, getD_some]
  simp

lemma parseQueryParams_last (hpart : 38#8 ∉ part) (params : Bytes → Option Bytes) :
    parseQueryParams part params = parsePair params part := by
  rw [parseQueryParams]
  split_ifs with hnil
  · rw [hnil]
    rfl
  · have hdrop : part.drop (part.length + 1) = [] := drop_eq_nil_of_le (Nat.le_succ _)
    rw [find_singleton_none hpart, getD_none]
    dsimp only
    rw [hdrop, take_length, parseQueryParams, if_pos rfl]

lemma parseQueryParams_foldl : parseQueryParams query params =
    (pairsOf query).foldl (fun params pair => setParam params pair.1 pair.2) params := by
  induction hn : query.length using Nat.strong_induction_on generalizing query params with
  | _ n ih =>
    by_cases hmem : 38#8 ∈ query
    · obtain ⟨part, rest, rfl, hpart⟩ := eq_append_cons_of_mem hmem
      have hshorter : rest.length < n := by
        rw [← hn, length_append, length_cons]
        omega
      have hpairs : pairsOf (part ++ 38#8 :: rest) =
          (([part].filter fun pair => pair ≠ []).map keyValue) ++ pairsOf rest := by
        rw [pairsOf, splitOn_append_cons_self_of_not_mem hpart, ← singleton_append,
          filter_append, map_append]
        rfl
      rw [parseQueryParams_part hpart, ih _ hshorter _ _ rfl, hpairs, foldl_append, foldl_part]
    · rw [parseQueryParams_last hmem, pairsOf, splitOn_eq_singleton hmem, foldl_part]

lemma foldl_setParam (key : Bytes) :
    pairs.foldl (fun params pair => setParam params pair.1 pair.2) params key =
      ((pairs.reverse.find? fun pair => pair.1 = key).map Prod.snd).or (params key) := by
  induction pairs generalizing params with
  | nil => rfl
  | cons pair pairs ih =>
    rw [foldl_cons, ih, reverse_cons, List.find?_append]
    cases pairs.reverse.find? fun pair => decide (pair.1 = key) with
    | some found => rfl
    | none =>
      by_cases hkey : pair.1 = key
      · simp [setParam, hkey]
      · simp [setParam, hkey, Ne.symm hkey]

/-- **The parameters are the last values of the keys.** -/
lemma parseQueryParams_eq : parseQueryParams query (fun _ => none) = lastValues query := by
  funext key
  rw [parseQueryParams_foldl, foldl_setParam, or_none, lastValues]

lemma lastValues_eq_none : lastValues query = (fun _ => none) ↔ pairsOf query = [] := by
  constructor
  · intro h
    rw [eq_nil_iff_forall_not_mem]
    intro pair hpair
    have hnone := congrFun h pair.1
    rw [lastValues, map_eq_none_iff, List.find?_eq_none] at hnone
    exact hnone pair (mem_reverse.mpr hpair) (decide_eq_true rfl)
  · intro h
    funext key
    rw [lastValues, h]
    rfl

lemma lastValues_eq_none_iff : lastValues query = (fun _ => none) ↔ ∀ c ∈ query, c = 38#8 := by
  rw [lastValues_eq_none, pairsOf, map_eq_nil_iff, filter_eq_nil_iff]
  simp only [ne_eq, decide_not, Bool.not_eq_true', decide_eq_false_iff_not, Decidable.not_not]
  induction query with
  | nil => simp
  | cons c query ih =>
    rw [splitOn_cons_eq_if_modifyHead, forall_mem_cons, ← ih]
    by_cases hc : c = 38#8
    · simp [hc]
    · cases hsplit : query.splitOn 38#8 with
      | nil => exact absurd hsplit (splitOn_ne_nil _ _)
      | cons part parts => simp [hc]

/-! ### The components -/

section

variable (u : UriParser) {path : Bytes}

lemma components_query (hne : path ≠ []) (hpath : 63#8 ∉ path) {query : Bytes}
    (hquery : 35#8 ∉ query) (fragment : Option Bytes) :
    u.parsePathComponents (path ++ 63#8 :: (query ++ fragment.elim [] fun f => 35#8 :: f)) =
      { u with
        path, query
        fragment := fragment.getD u.fragment
        params := parseQueryParams query u.params } := by
  rw [UriParser.parsePathComponents, find_singleton hpath]
  cases fragment with
  | none => simp [find_singleton_none hquery, hne]
  | some f => simp [find_singleton hquery, hne]

lemma components_path (hne : path ≠ []) (hpath : 35#8 ∉ path) {fragment : Option Bytes}
    (hmark : 63#8 ∉ path ++ fragment.elim [] fun f => 35#8 :: f) :
    u.parsePathComponents (path ++ fragment.elim [] fun f => 35#8 :: f) =
      { u with path, fragment := fragment.getD u.fragment } := by
  rw [UriParser.parsePathComponents, find_singleton_none hmark]
  cases fragment with
  | none => simp [find_singleton_none hpath, hne]
  | some f => simp [find_singleton hpath, hne]

/-- What stands before the first sign `#`, and the fragment behind it. -/
lemma exists_fragment (s : Bytes) :
    ∃ a, ∃ fragment : Option Bytes, s = a ++ (fragment.elim [] fun f => 35#8 :: f) ∧ 35#8 ∉ a := by
  by_cases h : 35#8 ∈ s
  · obtain ⟨a, f, rfl, ha⟩ := eq_append_cons_of_mem h
    exact ⟨a, some f, rfl, ha⟩
  · exact ⟨s, none, (append_nil s).symm, h⟩

end

lemma Target.path_ne_nil : t.path ≠ [] := by
  intro h
  have hslash := t.slash
  rw [h] at hslash
  cases hslash

lemma length_elim_le (c : Byte) (o : Option Bytes) :
    (o.elim [] fun s => c :: s).length ≤ (o.getD []).length + 1 := by
  cases o <;> simp

/-- **A target in which no scheme is found.** -/
lemma parsed_components_iff (hu : u.params = fun _ => none) :
    Parsed t (u.parsePathComponents t.text) ↔
      (t.query.isSome ∨ u.query = [] ∧ ∀ f ∈ t.fragment, 63#8 ∉ f) ∧
        (t.fragment.isSome ∨ u.fragment = []) := by
  have hne := t.path_ne_nil
  obtain ⟨hmark, hsign⟩ := t.path_clean
  have hempty : lastValues [] = fun _ => none := rfl
  rw [Target.text]
  cases hquery : t.query with
  | some q =>
    rw [elim_some, cons_append, components_query u hne hmark (t.query_clean q hquery), hu,
      parseQueryParams_eq]
    cases hfragment : t.fragment <;> simp [Parsed, hquery, hfragment]
  | none =>
    rw [elim_none, nil_append]
    by_cases hclean : 63#8 ∈ t.path ++ t.fragment.elim [] fun f => 35#8 :: f
    · -- a question mark of the fragment is taken for the start of a query
      obtain ⟨f, hfragment, hf⟩ : ∃ f, t.fragment = some f ∧ 63#8 ∈ f := by
        cases hfragment : t.fragment <;> simp_all
      obtain ⟨a, b, rfl, ha⟩ := eq_append_cons_of_mem hf
      obtain ⟨query, fragment, rfl, hquery'⟩ := exists_fragment b
      have hpath : 63#8 ∉ t.path ++ 35#8 :: a := by simp [hmark, ha]
      have hwrong := components_query u (by simp) hpath hquery' fragment
      rw [append_assoc, cons_append] at hwrong
      rw [hfragment, elim_some, hwrong]
      refine iff_of_false (fun h => ?_) (by simp)
      exact absurd (congrArg List.length h.1) (by simp)
    · have hf : ∀ f ∈ t.fragment, 63#8 ∉ f := by
        intro f hf
        rw [Option.mem_def.mp hf] at hclean
        exact fun hmem => hclean (by simp [hmem])
      rw [components_path u hne hsign hclean]
      cases hfragment : t.fragment <;> simp_all [Parsed]

lemma slash_mem_query {t : Target} {pre fragment : Bytes}
    (ht : t.text = pre ++ (t.path ++ 35#8 :: fragment)) (hpre : pre ≠ [])
    (hmark : 63#8 ∉ t.path ++ 35#8 :: fragment) (hfragment : fragment = t.fragment.getD []) :
    47#8 ∈ t.query.getD [] := by
  have hlen := congrArg List.length ht
  have hpos := length_pos_iff.mpr hpre
  have hpath := length_pos_iff.mpr t.path_ne_nil
  have hshort := length_elim_le 35#8 t.fragment
  rw [← hfragment] at hshort
  rw [Target.text] at ht hlen
  cases hquery : t.query with
  | none =>
    rw [hquery] at hlen
    simp only [elim_none, nil_append, length_append, length_cons] at hlen
    omega
  | some q =>
    rw [hquery] at ht
    generalize hF : (t.fragment.elim [] fun f => 35#8 :: f) = F at ht hshort
    -- the part begins behind the question mark, and before the fragment
    have hbehind : ∃ x, q ++ F = x ++ (t.path ++ 35#8 :: fragment) := by
      rcases append_eq_append_iff.mp ht with ⟨x, -, hx⟩ | ⟨x, -, hx⟩
      · cases x with
        | nil => exact absurd (by rw [← nil_append (t.path ++ _), ← hx]; simp) hmark
        | cons c x =>
          rw [cons_append] at hx
          exact ⟨x, (List.cons.inj hx).2⟩
      · exact absurd (by rw [hx]; simp) hmark
    obtain ⟨x, hx⟩ := hbehind
    rcases append_eq_append_iff.mp hx with ⟨y, -, hy⟩ | ⟨y, hq, hy⟩
    · have hy' := congrArg List.length hy
      simp only [length_append, length_cons] at hy'
      omega
    · cases y with
      | nil =>
        have hy' := congrArg List.length hy
        simp only [length_append, length_cons, nil_append] at hy'
        omega
      | cons c y =>
        obtain ⟨p, hp⟩ : ∃ p, t.path = 47#8 :: p := by
          obtain ⟨p, hp⟩ := List.head?_eq_some_iff.mp t.slash
          exact ⟨p, hp⟩
        rw [hp, cons_append, cons_append] at hy
        rw [getD_some, hq, (List.cons.inj hy).1]
        simp

lemma parsed_suffix_iff (hu : u.params = fun _ => none)
    {pre rest : Bytes} (ht : t.text = pre ++ rest) (hpre : pre ≠ [])
    (hslash : rest.head? = some 47#8) :
    Parsed t (u.parsePathComponents rest) ↔
      u.fragment = t.fragment.getD [] ∧
        (rest = t.path ++ 63#8 :: t.query.getD [] ∨
          rest = t.path ∧ u.query = t.query.getD [] ∧ ∀ c ∈ t.query.getD [], c = 38#8) := by
  have hne := t.path_ne_nil
  obtain ⟨hmark, hsign⟩ := t.path_clean
  have hq : 35#8 ∉ t.query.getD [] := by
    cases hquery : t.query with
    | none => simp
    | some q => exact t.query_clean q hquery
  have hhead {a b : Bytes} (h : rest = a ++ b) (hb : b.head? ≠ some 47#8) : a ≠ [] := by
    rintro rfl
    exact hb ((congrArg List.head? h).symm.trans hslash)
  constructor
  · intro h
    by_cases hmarkR : 63#8 ∈ rest
    · obtain ⟨path, after, hrest, hpath⟩ := eq_append_cons_of_mem hmarkR
      have hpne := hhead hrest (by simp)
      obtain ⟨query, fragment, rfl, hquery⟩ := exists_fragment after
      rw [hrest, components_query u hpne hpath hquery] at h
      obtain ⟨rfl, rfl, hfragment, -⟩ := h
      cases fragment with
      | none => exact ⟨hfragment, .inl (by rw [hrest, elim_none, append_nil])⟩
      | some f =>
        -- all of the components are there: the part is as long as the target
        exfalso
        have hlen := congrArg List.length ht
        have hpos := length_pos_iff.mpr hpre
        have hlenQ := length_elim_le 63#8 t.query
        have hlenF := length_elim_le 35#8 t.fragment
        simp only [Target.text, hrest, ← hfragment, getD_some, elim_some, length_append,
          length_cons] at hlen hlenF
        omega
    · obtain ⟨path, fragment, rfl, hpath⟩ := exists_fragment rest
      have hpne := hhead rfl (by cases fragment <;> simp)
      rw [components_path u hpne hpath hmarkR] at h
      obtain ⟨rfl, hquery, hfragment, hparams⟩ := h
      rw [hu, eq_comm, lastValues_eq_none_iff] at hparams
      cases fragment with
      | none => exact ⟨hfragment, .inr ⟨append_nil _, hquery, hparams⟩⟩
      | some f =>
        -- the parameters would have to be none, but the query has a slash
        exact absurd (hparams _ (slash_mem_query ht hpre hmarkR hfragment)) (by decide)
  · rintro ⟨hfragment, rfl | ⟨rfl, hquery, hparams⟩⟩
    · have hparsed := components_query u hne hmark hq none
      rw [elim_none, append_nil] at hparsed
      rw [hparsed, hu, parseQueryParams_eq]
      exact ⟨rfl, rfl, hfragment, rfl⟩
    · have hparsed := @components_path u _ hne hsign none (by simpa using hmark)
      rw [elim_none, append_nil] at hparsed
      rw [hparsed]
      exact ⟨rfl, hquery, hfragment, by rw [hu, (lastValues_eq_none_iff _).mpr hparams]⟩

def Coincides (u : UriParser) (t : Target) : Prop :=
  ∃ schemeEnd, find (ascii "://") t.text = some schemeEnd ∧
    u.fragment = t.fragment.getD [] ∧
    match find [47#8] (t.text.drop (schemeEnd + 3)) with
    | some hostEnd =>
      (t.text.drop (schemeEnd + 3)).drop hostEnd = t.path ++ 63#8 :: t.query.getD [] ∨
        (t.text.drop (schemeEnd + 3)).drop hostEnd = t.path ∧ u.query = t.query.getD [] ∧
          ∀ c ∈ t.query.getD [], c = 38#8
    | none =>
      ascii "/" = t.path ∧ u.query = t.query.getD [] ∧ ∀ c ∈ t.query.getD [], c = 38#8

/-- **Request targets** are parsed as they should be without `://` and with nothing left from
before. -/
theorem parse_right_iff (u : UriParser) (t : Target) :
    Parsed t (u.parse t.text) ↔
      (find (ascii "://") t.text = none ∧
        (t.query.isSome ∨ u.query = [] ∧ ∀ f ∈ t.fragment, 63#8 ∉ f) ∧
        (t.fragment.isSome ∨ u.fragment = [])) ∨ Coincides u t := by
  have hne : t.text ≠ [] := by
    rw [Target.text]
    simp [t.path_ne_nil]
  rw [UriParser.parse, if_neg hne, Coincides]
  cases hscheme : find (ascii "://") t.text with
  | none =>
    simp only [reduceCtorEq, false_and, exists_false, or_false, true_and]
    exact parsed_components_iff t rfl
  | some schemeEnd =>
    simp only [reduceCtorEq, false_and, false_or, Option.some.injEq, exists_eq_left']
    cases hhost : find [47#8] (t.text.drop (schemeEnd + 3)) with
    | none =>
      constructor
      · rintro ⟨hpath, hquery, hfragment, hparams⟩
        exact ⟨hfragment, hpath, hquery, (lastValues_eq_none_iff _).mp hparams.symm⟩
      · rintro ⟨hfragment, hpath, hquery, hkeys⟩
        exact ⟨hpath, hquery, hfragment, ((lastValues_eq_none_iff _).mpr hkeys).symm⟩
    | some hostEnd =>
      have hsplit : t.text = t.text.take (schemeEnd + 3 + hostEnd) ++
          (t.text.drop (schemeEnd + 3)).drop hostEnd := by
        rw [drop_drop, take_append_drop]
      have hpre : t.text.take (schemeEnd + 3 + hostEnd) ≠ [] := by
        rw [Ne, take_eq_nil_iff]
        simp [hne]
      have hslash : ((t.text.drop (schemeEnd + 3)).drop hostEnd).head? = some 47#8 := by
        obtain ⟨rest, hrest⟩ := prefix_of_find hhost
        rw [← hrest]
        rfl
      exact parsed_suffix_iff t rfl hsplit hpre hslash

/-- The target `/login?next=http://a/b`. -/
def redirectTarget : Target where
  path := ascii "/login"
  query := some (ascii "next=http://a/b")
  fragment := none
  slash := by decide
  path_clean := by decide
  query_clean := by
    intro q hq
    cases hq
    decide

/-- A new `URIParser`. -/
def newParser : UriParser := ⟨[], [], [], [], fun _ => none⟩

/-- **A URL in the query is taken for the whole target.** -/
theorem parse_redirect :
    redirectTarget.text = ascii "/login?next=http://a/b" ∧
      (newParser.parse redirectTarget.text).path = ascii "/b" ∧
      ¬Parsed redirectTarget (newParser.parse redirectTarget.text) ∧
      ((newParser.parse (ascii "/a?x=1")).parse (ascii "/b")).query = ascii "x=1" := by
  have hpath : (newParser.parse redirectTarget.text).path = ascii "/b" := by decide +kernel
  refine ⟨by decide +kernel, hpath, fun h => ?_, by decide +kernel⟩
  exact absurd (hpath.symm.trans h.1) (by decide)

end Megatron
