import Mathlib.Data.List.Perm.Subperm
import Megatron.Http.RequestIsolation
import Megatron.Library.Table

/-!
The headers of one request (`on_header_field`, `on_header_value` and `on_headers_complete` of
`modules/http/httpService.cpp`), for every way the parser divides names and values into spans.
-/

namespace Megatron.Http

open Library Library.Http Library.Spans List HeaderMap

variable (sha1 : Bytes → Bytes) (start : Bytes) (hs : List (Bytes × Bytes)) (name : Bytes)

lemma ofList_eq : ofList hs = lastValue hs := foldl_update_eq hs

lemma lastValue_cons_nil (n : Bytes) :
    lastValue ((name, []) :: hs) n = (lastValue hs n).or (if n = name then some [] else none) := by
  rw [← singleton_append, lastValue_append, lastValue_singleton]

lemma entry_lastValue : entry (lastValue hs) name =
      ((lastValue hs name).getD [], lastValue ((name, []) :: hs)) := by
  have hmap : (entry (lastValue hs) name).2 = lastValue ((name, []) :: hs) := by
    funext n
    rw [lastValue_cons_nil, entry]
    cases hvalue : lastValue hs name with
    | some value =>
      by_cases heq : n = name
      · rw [heq, hvalue]
        exact hvalue
      · rw [if_neg heq, Option.or_none]
    | none =>
      by_cases heq : n = name
      · rw [heq, hvalue, if_pos rfl]
        exact Function.update_self ..
      · rw [if_neg heq, Option.or_none]
        exact Function.update_of_ne heq ..
  rw [← hmap, entry]
  cases lastValue hs name with
  | some value | none => rfl

lemma getD_lastValue_cons (n : Bytes) :
    (lastValue ((name, []) :: hs) n).getD [] = (lastValue hs n).getD [] := by
  rw [lastValue_cons_nil]
  cases lastValue hs n with
  | some value => rfl
  | none => rw [Option.none_or]; split <;> rfl

/-! ### Spans -/

/-- A header as it is passed on, in parts. -/
structure HeaderSpans where
  name : List Bytes
  value : List Bytes
  name_ne_nil : name.flatten ≠ []

namespace HeaderSpans

def field (h : HeaderSpans) : Bytes × Bytes := (h.name.flatten, h.value.flatten)

def calls (h : HeaderSpans) : List (Report (BitVec 8) SpanKind Call) :=
  h.name.map (.span .headerField) ++ h.value.map (.span .headerValue)

def whole (h : HeaderSpans) : Header := ⟨h.name.flatten, [], h.value.flatten, [], h.name_ne_nil⟩

end HeaderSpans

open HeaderSpans

section

variable {sha1 : Bytes → Bytes}

lemma foldlM_spans (c : Conn) (k : SpanKind) (b : Bytes) (spans : List Bytes) :
    ((b :: spans).map (.span k)).foldlM (perform sha1) c =
      perform sha1 c (.span k (b :: spans).flatten) := by
  induction spans generalizing b with
  | nil => rw [flatten_singleton, map_singleton, foldlM_cons]; exact bind_pure _
  | cons b' spans ih =>
    have hjoin := @joins_perform sha1 c k b b'
    rw [flatten_cons, flatten_cons, ← append_assoc, ← flatten_cons, ← ih,
      map_cons, map_cons, map_cons, foldlM_cons, foldlM_cons, hjoin, bind_assoc]
    rfl

lemma foldlM_calls (c : Conn) (h : HeaderSpans) :
    h.calls.foldlM (perform sha1) c = .ok { c with ctx := collect c.ctx h.whole } := by
  obtain ⟨name, value, hname⟩ := h
  have hvalue (c : Conn) : (value.map (.span .headerValue)).foldlM (perform sha1) c =
      .ok { c with ctx := onHeaderValue c.ctx value.flatten } := by
    cases value with
    | nil => simp [onHeaderValue]; rfl
    | cons b value => exact foldlM_spans c .headerValue b value
  cases name with
  | nil => exact absurd rfl hname
  | cons b name =>
    rw [calls, foldlM_append, foldlM_spans]
    exact hvalue _

lemma foldlM_flatMap_calls (c : Conn) (hs : List HeaderSpans) :
    (hs.flatMap calls).foldlM (perform sha1) c =
      .ok { c with ctx := (hs.map whole).foldl collect c.ctx } := by
  induction hs generalizing c with
  | nil => rfl
  | cons h hs ih =>
    rw [flatMap_cons, foldlM_append, foldlM_calls]
    exact ih _

end

/-! ### The map at the end of the head -/

def headerCalls (hs : List HeaderSpans) (p : Parsed) : List (Report (BitVec 8) SpanKind Call) :=
  hs.flatMap HeaderSpans.calls ++ [.call (.headersComplete p)]

def HeaderMap.asksForWebSocket (m : HeaderMap) : Bool :=
  equalsCaseInsensitive ((m (ascii "Upgrade")).getD []) (ascii "websocket")

/-- The names looked up for an upgrade, the last one first. -/
def lookedUp (p : Parsed) (hs : List (Bytes × Bytes)) : List Bytes :=
  if p.upgrade && !p.chunked then
    if HeaderMap.asksForWebSocket (lastValue hs) then
      [ascii "Sec-WebSocket-Key", ascii "Sec-WebSocket-Version", ascii "Upgrade"]
    else [ascii "Upgrade"]
  else []

def presented (p : Parsed) (hs : List (Bytes × Bytes)) : List (Bytes × Bytes) :=
  (lookedUp p (joined hs)).map (fun name => (name, [])) ++ joined hs

lemma upgradeHeaders_lastValue : upgradeHeaders sha1 (lastValue hs) =
      if asksForWebSocket (lastValue hs) then
        (lastValue ((ascii "Sec-WebSocket-Key", []) :: (ascii "Sec-WebSocket-Version", []) ::
          (ascii "Upgrade", []) :: hs),
          some (switchingProtocols sha1 ((lastValue hs (ascii "Sec-WebSocket-Key")).getD [])))
      else (lastValue ((ascii "Upgrade", []) :: hs), none) := by
  simp only [upgradeHeaders, asksForWebSocket, entry_lastValue, getD_lastValue_cons]
  rfl

lemma headers_onHeadersComplete {c : Conn} {p : Parsed}
    {hs : List (Bytes × Bytes)} (h : (headersRead c.ctx p).headers = lastValue hs) :
    (onHeadersComplete sha1 c p).1.ctx.headers =
      lastValue ((lookedUp p hs).map (fun name => (name, [])) ++ hs) := by
  rw [onHeadersComplete, lookedUp]
  cases p.chunked with
  | true =>
    simp only [if_true, Bool.not_true, Bool.and_false, Bool.false_eq_true, if_false]
    exact h
  | false =>
    cases p.upgrade with
    | false =>
      simp only [Bool.false_eq_true, if_false, Bool.false_and]
      exact h
    | true =>
      simp only [Bool.false_eq_true, if_false, if_true, Bool.not_false, Bool.and_self, h,
        upgradeHeaders_lastValue]
      cases asksForWebSocket (lastValue hs) with
      | true | false => rfl

lemma headers_presented (c : Conn) (url : Bytes) (hs : List HeaderSpans) (p : Parsed) :
    ∃ c', (headerCalls hs p).foldlM (perform sha1) { c with ctx := { url } } = .ok c' ∧
      c'.ctx.headers = lastValue (presented p (hs.map field)) := by
  have hcollect := headers_collect (hs.map whole) { url } p (fun h => absurd rfl h)
  rw [map_map] at hcollect
  have hread : (headersRead ((hs.map whole).foldl collect { url }) p).headers =
      lastValue (joined (hs.map field)) := hcollect.trans (ofList_eq _)
  refine ⟨(onHeadersComplete sha1
      { c with ctx := (hs.map whole).foldl collect { url } } p).1, ?_, ?_⟩
  · rw [headerCalls, foldlM_append, foldlM_flatMap_calls]
    rfl
  · exact headers_onHeadersComplete sha1 hread

/-! ### Headers that are not lost -/

def valued (hs : List (Bytes × Bytes)) : List Bytes := (hs.filter fun h => h.2 ≠ []).map Prod.fst

lemma valued_cons_nil (hs : List (Bytes × Bytes)) : valued ((name, []) :: hs) = valued hs := rfl

lemma valued_cons {name value : Bytes} (h : value ≠ []) (hs : List (Bytes × Bytes)) :
    valued ((name, value) :: hs) = name :: valued hs := by
  rw [valued, filter_cons_of_pos (by simpa using h)]
  rfl

lemma mem_valued {hs : List (Bytes × Bytes)} {name : Bytes} :
    name ∈ valued hs ↔ ∃ value, (name, value) ∈ hs ∧ value ≠ [] := by
  simp [valued]

lemma length_valued_joinedFrom : (valued (joinedFrom start hs)).length = (valued hs).length := by
  induction hs generalizing start with
  | nil =>
    rw [joinedFrom]
    split <;> rfl
  | cons hd hs ih =>
    obtain ⟨name, value⟩ := hd
    by_cases hvalue : value = []
    · rw [joinedFrom, if_pos hvalue, ih, hvalue, valued_cons_nil]
    · rw [joinedFrom, if_neg hvalue, valued_cons hvalue, valued_cons hvalue, length_cons,
        length_cons, ih]

def valuedLength (hs : List (Bytes × Bytes)) : ℕ := ((valued hs).map List.length).sum

lemma valuedLength_cons {name value : Bytes} (h : value ≠ []) (hs : List (Bytes × Bytes)) :
    valuedLength ((name, value) :: hs) = name.length + valuedLength hs := by
  rw [valuedLength, valued_cons h, map_cons, sum_cons, valuedLength]

lemma valuedLength_le : valuedLength hs ≤ valuedLength (joinedFrom start hs) := by
  induction hs generalizing start with
  | nil => exact Nat.zero_le _
  | cons hd hs ih =>
    obtain ⟨name, value⟩ := hd
    by_cases hvalue : value = []
    · rw [joinedFrom, if_pos hvalue, hvalue]
      exact ih (start ++ name)
    · have hrest := ih []
      rw [joinedFrom, if_neg hvalue, valuedLength_cons hvalue, valuedLength_cons hvalue,
        length_append]
      omega

lemma full_append_empties {hs : List (Bytes × Bytes)} (hname : ∀ h ∈ hs, h.1 ≠ []) {start : Bytes}
    (h : valuedLength (joinedFrom start hs) ≤ valuedLength hs) : (∀ h ∈ hs, h.2 = []) ∨ start = [] ∧
    ∃ full empties, hs = full ++ empties ∧ (∀ h ∈ full, h.2 ≠ []) ∧ ∀ h ∈ empties, h.2 = [] := by
  induction hs generalizing start with
  | nil => exact .inl (fun h hh => absurd hh not_mem_nil)
  | cons hd hs ih =>
    obtain ⟨name, value⟩ := hd
    have hname' : ∀ h ∈ hs, h.1 ≠ [] := fun h hh => hname h (mem_cons_of_mem _ hh)
    by_cases hvalue : value = []
    · rw [joinedFrom, if_pos hvalue, hvalue] at h
      rcases ih hname' h with hall | ⟨hstart, -⟩
      · exact .inl (forall_mem_cons.mpr ⟨hvalue, hall⟩)
      · exact absurd (append_eq_nil_iff.mp hstart).2 (hname _ mem_cons_self)
    · have hle := valuedLength_le [] hs
      rw [joinedFrom, if_neg hvalue, valuedLength_cons hvalue, valuedLength_cons hvalue,
        length_append] at h
      have hstart : start = [] := length_eq_zero_iff.mp (by omega)
      have hrest : valuedLength (joinedFrom [] hs) ≤ valuedLength hs := by omega
      rcases ih hname' hrest with hall | ⟨-, full, empties, rfl, hfull, hempty⟩
      · exact .inr ⟨hstart, [(name, value)], hs, rfl, by simpa using hvalue, hall⟩
      · exact .inr ⟨hstart, (name, value) :: full, empties, rfl,
          forall_mem_cons.mpr ⟨hvalue, hfull⟩, hempty⟩

lemma joinedFrom_empties {hs : List (Bytes × Bytes)} (h : ∀ h ∈ hs, h.2 = []) :
    joinedFrom start hs = if start ++ (hs.map Prod.fst).flatten = [] then []
      else [(start ++ (hs.map Prod.fst).flatten, [])] := by
  induction hs generalizing start with
  | nil => rw [joinedFrom, map_nil, flatten_nil, append_nil]
  | cons hd hs ih =>
    obtain ⟨hhd, hrest⟩ := forall_mem_cons.mp h
    rw [joinedFrom, if_pos hhd, ih _ hrest, map_cons, flatten_cons, append_assoc]

lemma joined_append {full hs : List (Bytes × Bytes)} (h : ∀ h ∈ full, h.2 ≠ []) :
    joined (full ++ hs) = full ++ joined hs := by
  induction full with
  | nil => rfl
  | cons hd full ih =>
    obtain ⟨hhd, hrest⟩ := forall_mem_cons.mp h
    rw [joined] at ih ⊢
    rw [cons_append, joinedFrom, if_neg hhd, nil_append, ih hrest, cons_append]

lemma length_lt_flatten {names : List Bytes} (hne : ∀ n ∈ names, n ≠ []) (hlen : 2 ≤ names.length)
    {name : Bytes} (h : name ∈ names) : name.length < names.flatten.length := by
  obtain ⟨before, after, rfl⟩ := append_of_mem h
  have hother : ∃ n ∈ before ++ after, n ≠ [] := by
    have hpos : before ++ after ≠ [] := by
      intro hnil
      obtain ⟨rfl, rfl⟩ := append_eq_nil_iff.mp hnil
      exact absurd hlen (Nat.not_le.mpr Nat.one_lt_two)
    obtain ⟨n, hn⟩ := exists_mem_of_ne_nil _ hpos
    refine ⟨n, hn, hne n ?_⟩
    rcases mem_append.mp hn with hn | hn
    · exact mem_append_left _ hn
    · exact mem_append_right _ (mem_cons_of_mem _ hn)
  obtain ⟨n, hn, hpos⟩ := hother
  have hn' : n.length ≤ (before ++ after).flatten.length := (sublist_flatten_of_mem hn).length_le
  have hpos' : 0 < n.length := length_pos_of_ne_nil hpos
  rw [flatten_append, length_append] at hn'
  rw [flatten_append, flatten_cons, length_append, length_append]
  omega

section

variable {hs : List (Bytes × Bytes)} {p : Parsed}

lemma valuedLength_presented (hnodup : (hs.map Prod.fst).Nodup)
    (h : ∀ name, lastValue (presented p hs) name = lastValue hs name) :
    valuedLength (joined hs) = valuedLength hs := by
  have hsub : valued hs ⊆ valued (joined hs) := by
    intro name hname
    obtain ⟨value, hmem, hvalue⟩ := mem_valued.mp hname
    have hlast := (h name).trans (lastValue_of_mem hnodup hmem)
    rcases mem_append.mp (mem_of_lastValue hlast) with hlooked | hjoined
    · obtain ⟨n, -, heq⟩ := mem_map.mp hlooked
      cases heq
      exact absurd rfl hvalue
    · exact mem_valued.mpr ⟨value, hjoined, hvalue⟩
  have hnodup' : (valued hs).Nodup := hnodup.sublist (filter_sublist.map _)
  have hperm : (valued hs).Perm (valued (joined hs)) :=
    (subperm_of_subset hnodup' hsub).perm_of_length_le
      (length_valued_joinedFrom [] hs).le
  exact (hperm.map _).sum_eq.symm

lemma values_of_presented (hnodup : (hs.map Prod.fst).Nodup) (hname : ∀ h ∈ hs, h.1 ≠ [])
    (h : ∀ name, lastValue (presented p hs) name = lastValue hs name) :
    ∀ h ∈ hs.dropLast, h.2 ≠ [] := by
  obtain ⟨full, empties, rfl, hfull, hempty⟩ : ∃ full empties, hs = full ++ empties ∧
      (∀ h ∈ full, h.2 ≠ []) ∧ ∀ h ∈ empties, h.2 = [] := by
    rcases full_append_empties hname (valuedLength_presented hnodup h).le with hall | ⟨-, hsplit⟩
    · exact ⟨[], hs, rfl, fun h hh => absurd hh not_mem_nil, hall⟩
    · exact hsplit
  -- two headers without a value at the end would be stored under both names together
  have hshort : empties.length ≤ 1 := by
    by_contra hlong
    have hlen : 2 ≤ (empties.map Prod.fst).length := by
      rw [length_map]
      omega
    have hnames : ∀ n ∈ empties.map Prod.fst, n ≠ [] := by
      intro n hn
      obtain ⟨hd, hhd, rfl⟩ := mem_map.mp hn
      exact hname hd (mem_append_right _ hhd)
    have hne : (empties.map Prod.fst).flatten ≠ [] := by
      have hpos : 0 < (empties.map Prod.fst).length := by omega
      obtain ⟨n, hn⟩ := exists_mem_of_length_pos hpos
      have hlt := length_lt_flatten hnames hlen hn
      exact ne_nil_of_length_pos (by omega)
    have hjoined : joined (full ++ empties) = full ++ [((empties.map Prod.fst).flatten, [])] := by
      rw [joined_append hfull, joined, joinedFrom_empties [] hempty, nil_append, if_neg hne]
    have hlast := h (empties.map Prod.fst).flatten
    rw [presented, hjoined, ← append_assoc, lastValue_append, lastValue_singleton, if_pos rfl,
      Option.some_or] at hlast
    rcases mem_append.mp (mem_of_lastValue hlast.symm) with hmem | hmem
    · exact hfull _ hmem rfl
    · exact absurd (length_lt_flatten hnames hlen (mem_map_of_mem hmem)) (lt_irrefl _)
  intro hd hhd
  refine hfull hd ?_
  rcases eq_nil_or_concat empties with rfl | ⟨init, last, rfl⟩
  · rw [append_nil] at hhd
    exact mem_of_mem_dropLast hhd
  · rw [concat_eq_append, length_append, length_singleton] at hshort
    obtain rfl : init = [] := length_eq_zero_iff.mp (by omega)
    rwa [concat_eq_append, nil_append, dropLast_concat] at hhd

lemma presented_iff (hnodup : (hs.map Prod.fst).Nodup) (hname : ∀ h ∈ hs, h.1 ≠ []) :
    (∀ name, lastValue (presented p hs) name = lastValue hs name) ↔
      (∀ h ∈ hs.dropLast, h.2 ≠ []) ∧ ∀ name ∈ lookedUp p hs, name ∈ hs.map Prod.fst := by
  constructor
  · intro h
    have hvalues := values_of_presented hnodup hname h
    refine ⟨hvalues, fun name hlooked => ?_⟩
    by_contra hmissing
    have hlast := h name
    rw [lastValue_eq_none.mpr hmissing, lastValue_eq_none, presented, joined_eq_self hname hvalues,
      map_append, mem_append, not_or, map_map] at hlast
    exact hlast.1 (mem_map.mpr ⟨name, hlooked, rfl⟩)
  · rintro ⟨hvalues, hlooked⟩ name
    rw [presented, joined_eq_self hname hvalues, lastValue_append]
    cases hlast : lastValue hs name with
    | some value => rfl
    | none =>
      rw [Option.none_or, lastValue_eq_none, map_map]
      intro hmem
      obtain ⟨n, hn, rfl⟩ := mem_map.mp hmem
      exact lastValue_eq_none.mp hlast (hlooked n hn)

end

def Collected (sha1 : Bytes → Bytes) (c : Conn) (url : Bytes) (hs : List HeaderSpans)
    (p : Parsed) : Prop :=
  ∃ c', (headerCalls hs p).foldlM (perform sha1) { c with ctx := { url } } = .ok c' ∧
    ∀ name, c'.ctx.headers name = lastValue (hs.map HeaderSpans.field) name

/-- **When the header map is right.** -/
theorem headers_collected_iff (sha1 : Bytes → Bytes) (c : Conn) (url : Bytes)
    (hs : List HeaderSpans) (p : Parsed) : (Collected sha1 c url hs p ↔
      ∀ name, lastValue (presented p (hs.map HeaderSpans.field)) name =
        lastValue (hs.map HeaderSpans.field) name) ∧
    (((hs.map HeaderSpans.field).map Prod.fst).Nodup → (Collected sha1 c url hs p ↔
        (∀ h ∈ (hs.map HeaderSpans.field).dropLast, h.2 ≠ []) ∧
          ∀ name ∈ lookedUp p (hs.map HeaderSpans.field),
            name ∈ (hs.map HeaderSpans.field).map Prod.fst)) := by
  have hiff : Collected sha1 c url hs p ↔
      ∀ name, lastValue (presented p (hs.map HeaderSpans.field)) name =
        lastValue (hs.map HeaderSpans.field) name := by
    obtain ⟨c', hrun, hheaders⟩ := headers_presented sha1 c url hs p
    constructor
    · rintro ⟨c'', hrun', hmap⟩ name
      obtain rfl := Except.ok.inj (hrun.symm.trans hrun')
      rw [← hmap name, hheaders]
    · intro h
      refine ⟨c', hrun, fun name => ?_⟩
      rw [hheaders, h name]
  refine ⟨hiff, fun hnodup => hiff.trans (presented_iff hnodup ?_)⟩
  intro hd hmem
  obtain ⟨h, -, rfl⟩ := mem_map.mp hmem
  exact h.name_ne_nil

/-- **`A` without a value and `B: 1` are stored as `AB: 1`.** -/
theorem headers_not_collected :
    (∃ c', (headerCalls [⟨[ascii "A"], [], by decide⟩, ⟨[ascii "B"], [ascii "1"], by decide⟩]
        ⟨.get, true, false, false⟩).foldlM (perform fun _ => []) {} = .ok c' ∧
      c'.ctx.headers (ascii "AB") = some (ascii "1") ∧ c'.ctx.headers (ascii "A") = none ∧
        c'.ctx.headers (ascii "B") = none) ∧
    ∃ c', (headerCalls [] ⟨.connect, true, true, false⟩).foldlM (perform fun _ => []) {} = .ok c' ∧
      c'.ctx.headers (ascii "Upgrade") = some [] := ⟨⟨_, rfl, rfl, rfl, rfl⟩, _, rfl, rfl⟩

end Megatron.Http
