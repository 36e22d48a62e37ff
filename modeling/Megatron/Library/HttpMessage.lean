import Megatron.Library.HttpSyntax

/-!
Reading HTTP/1.1 responses (RFC 7230): chunked bodies, and how a client finds the end
of a body.
-/

namespace Library.Http

open List

def chunkSize (line : Octets) : Option ℕ := parseNumeral 16 (line.takeWhile fun c => c ≠ 59#8)

def decodeChunks : ℕ → Octets → Option (Octets × Octets)
  | 0, _ => none
  | fuel + 1, b => do
      let (line, rest) ← takeLine b
      let n ← chunkSize line
      if n = 0 then do
        let (trailer, rest') ← readHead rest
        let _ ← readFields trailer
        pure ([], rest')
      else if (rest.drop n).take 2 = crlf then do
        let (body, rest') ← decodeChunks fuel (rest.drop (n + 2))
        pure (rest.take n ++ body, rest')
      else none

def decodeChunked (b : Octets) : Option (Octets × Octets) := decodeChunks (b.length + 1) b

def encodeChunk (s : Octets) : Octets := numeral 16 s.length ++ crlf ++ (s ++ crlf)

lemma digitChar_ne {d : ℕ} (hd : d < 16) : digitChar d ≠ 13#8 ∧ digitChar d ≠ 59#8 := by
  interval_cases d <;> decide

lemma isLine_numeral {base : ℕ} (hbase : 1 < base) (hbase' : base ≤ 16) (n : ℕ) :
    IsLine (numeral base n) := by
  refine isLine_of_not_mem fun h => ?_
  obtain ⟨d, hd, he⟩ := mem_numeral hbase h
  exact (digitChar_ne (hd.trans_le hbase')).1 he.symm

lemma chunkSize_numeral (n : ℕ) : chunkSize (numeral 16 n) = some n := by
  have hall : ∀ c ∈ numeral 16 n, decide (c ≠ 59#8) = true := by
    intro c hc
    obtain ⟨d, hd, rfl⟩ := mem_numeral (by norm_num) hc
    exact decide_eq_true (digitChar_ne hd).2
  rw [chunkSize, takeWhile_eq_self_iff.mpr hall]
  exact parseNumeral_numeral (by norm_num) le_rfl n

variable {fields : List (Octets × Octets)} {ss : List Octets} {status : ℕ} (fuel : ℕ)

lemma decodeChunks_chunk {s : Octets} (hs : s ≠ []) (rest : Octets) :
    decodeChunks (fuel + 1) (encodeChunk s ++ rest) =
      (decodeChunks fuel rest).map fun p => (s ++ p.1, p.2) := by
  have hlen : s.length ≠ 0 := fun h => hs (length_eq_zero_iff.mp h)
  have hline := takeLine_append (isLine_numeral (by norm_num) le_rfl s.length)
    (s ++ (crlf ++ rest))
  have hcrlf : ((s ++ (crlf ++ rest)).drop s.length).take 2 = crlf := by simp [crlf]
  have hdrop : (s ++ (crlf ++ rest)).drop (s.length + 2) = rest := by simp [crlf]
  rw [encodeChunk, append_assoc (numeral 16 s.length ++ crlf), append_assoc s, decodeChunks, hline]
  simp only [Option.bind_eq_bind, Option.bind_some, chunkSize_numeral, hlen, if_false, hcrlf,
    if_true, hdrop, take_left']
  cases decodeChunks fuel rest <;> rfl

lemma decodeChunks_last (rest : Octets) :
    decodeChunks (fuel + 1) (encodeChunk [] ++ rest) = some ([], rest) := by
  have hline := takeLine_append (@isLine_numeral 16 (by norm_num) le_rfl 0)
    (crlf ++ rest)
  rw [encodeChunk, length_nil, nil_append, append_assoc, decodeChunks, hline]
  simp only [Option.bind_eq_bind, Option.bind_some, chunkSize_numeral, if_true, readHead_crlf]
  rfl

lemma takeLine_length {b l rest : Octets} (h : takeLine b = some (l, rest)) :
    l.length + rest.length + 2 = b.length := by
  fun_induction takeLine b generalizing l rest with
  | case1 | case2 => cases h
  | case3 a b rest' hab =>
    cases h
    simp
  | case4 a b rest' hab ih =>
    obtain ⟨⟨l', r'⟩, hp, he⟩ := Option.map_eq_some_iff.mp h
    cases he
    have := ih hp
    simp only [length_cons] at this ⊢
    omega

lemma headFrom_length {line b rest : Octets} {ls : List Octets}
    (h : headFrom line b = some (ls, rest)) : rest.length + 2 ≤ b.length := by
  fun_induction headFrom line b generalizing ls rest with
  | case1 | case2 => cases h
  | case3 =>
    cases h
    simp
  | case4 line a b rest' hab hline ih =>
    obtain ⟨⟨ls', r'⟩, hp, he⟩ := Option.map_eq_some_iff.mp h
    cases he
    have := ih hp
    simp only [length_cons]
    omega
  | case5 line a b rest' hab ih =>
    have := ih h
    simp only [length_cons] at this ⊢
    omega

lemma decodeChunks_length {fuel : ℕ} {b body rest : Octets}
    (h : decodeChunks fuel b = some (body, rest)) : body.length + rest.length < b.length := by
  induction fuel generalizing b body rest with
  | zero => cases h
  | succ fuel ih =>
    simp only [decodeChunks, Option.bind_eq_bind, Option.bind_eq_some_iff] at h
    obtain ⟨⟨line, r⟩, hline, n, -, h⟩ := h
    have hlen := takeLine_length hline
    simp only at h
    split_ifs at h
    · obtain ⟨⟨trailer, r'⟩, hhead, h⟩ := Option.bind_eq_some_iff.mp h
      obtain ⟨fields, -, h⟩ := Option.bind_eq_some_iff.mp h
      cases h
      have := headFrom_length hhead
      simp only [length_nil]
      omega
    · obtain ⟨⟨body', r'⟩, hrest, h⟩ := Option.bind_eq_some_iff.mp h
      cases h
      have := ih hrest
      simp only [length_append, length_take, length_drop] at this ⊢
      omega

lemma decodeChunked_length {b body rest : Octets} (h : decodeChunked b = some (body, rest)) :
    body.length + rest.length < b.length := decodeChunks_length h

lemma decodeChunks_encode {fuel : ℕ} (hss : ∀ s ∈ ss, s ≠ []) (hfuel : ss.length < fuel)
    (rest : Octets) : decodeChunks fuel (ss.flatMap encodeChunk ++ (encodeChunk [] ++ rest)) =
    some (ss.flatten, rest) := by
  induction ss generalizing fuel with
  | nil =>
    obtain ⟨fuel, rfl⟩ : ∃ f, fuel = f + 1 := ⟨fuel - 1, by simp at hfuel; omega⟩
    exact decodeChunks_last fuel rest
  | cons s ss ih =>
    obtain ⟨fuel, rfl⟩ : ∃ f, fuel = f + 1 := ⟨fuel - 1, by simp at hfuel; omega⟩
    obtain ⟨hs, hss⟩ := forall_mem_cons.mp hss
    rw [flatMap_cons, append_assoc, decodeChunks_chunk fuel hs,
      ih hss (by simpa using hfuel), Option.map_some, flatten_cons]

lemma length_le_flatMap_encodeChunk (ss : List Octets) :
    ss.length ≤ (ss.flatMap encodeChunk).length := by
  induction ss with
  | nil => simp
  | cons s ss ih =>
    have hpos : 0 < (encodeChunk s).length := by simp [encodeChunk, crlf]
    rw [flatMap_cons, length_append, length_cons]
    omega

lemma decodeChunked_encode (hss : ∀ s ∈ ss, s ≠ []) (rest : Octets) :
    decodeChunked (ss.flatMap encodeChunk ++ (encodeChunk [] ++ rest)) =
      some (ss.flatten, rest) := by
  refine decodeChunks_encode hss ?_ rest
  have := length_le_flatMap_encodeChunk ss
  simp only [length_append]
  omega

/-! ### Responses -/

structure Reply where
  status : ℕ
  fields : List (Octets × Octets)
  body : Octets
  deriving DecidableEq, Repr

inductive Outcome where
  /-- A response, and what follows it. -/
  | reply (r : Reply) (rest : Octets)
  | untilClose (r : Reply)
  /-- The response is not complete. -/
  | incomplete
  /-- The octets are not a response. -/
  | malformed
  deriving DecidableEq, Repr

def statusCode (line : Octets) : Option ℕ :=
  let text := line.drop 9
  if line.take 9 = ascii "HTTP/1.1 " ∧ (text.drop 3).head? = some 32#8 ∧
      (text.drop 4).all isFieldChar = true then
    parseNumeral 10 (text.take 3)
  else none

def isBodyless (status : ℕ) : Bool := status / 100 = 1 || status = 204 || status = 304

def readBody (status : ℕ) (fields : List (Octets × Octets)) (rest : Octets) : Outcome :=
  if isBodyless status then .reply ⟨status, fields, []⟩ rest
  else
    match valuesOf (ascii "transfer-encoding") fields with
    | te :: tes =>
      if tes = [] ∧ te.map lower = ascii "chunked" then
        match decodeChunked rest with
        | some (body, rest') => .reply ⟨status, fields, body⟩ rest'
        | none => .incomplete
      else .malformed
    | [] =>
      match valuesOf (ascii "content-length") fields with
      | [] => .untilClose ⟨status, fields, rest⟩
      | v :: vs =>
        match parseNumeral 10 v with
        | none => .malformed
        | some n =>
          if vs.all fun v' => parseNumeral 10 v' = some n then
            if n ≤ rest.length then .reply ⟨status, fields, rest.take n⟩ (rest.drop n)
            else .incomplete
          else .malformed

def readReply (b : Octets) : Outcome :=
  match readHead b with
  | none => .incomplete
  | some ([], _) => .malformed
  | some (start :: lines, rest) =>
    match statusCode start, readFields lines with
    | some status, some fields => readBody status fields rest
    | _, _ => .malformed

/-- The first `n` responses on a connection that stays open, and what follows them. -/
def readReplies : ℕ → Octets → Option (List Reply × Octets)
  | 0, b => some ([], b)
  | n + 1, b =>
    match readReply b with
    | .reply r rest => (readReplies n rest).map fun p => (r :: p.1, p.2)
    | _ => none

def Outcome.IsWhole (closes : Bool) (content : Octets) : Outcome → Prop
  | .reply r rest => r.body = content ∧ rest = []
  | .untilClose r => closes = true ∧ r.body = content
  | .incomplete | .malformed => False

lemma readReply_joinLines {start : Octets} {lines : List Octets}
    (h : ∀ l ∈ start :: lines, IsLine l ∧ l ≠ []) (rest : Octets) :
    readReply (joinLines (start :: lines) ++ (crlf ++ rest)) =
      match statusCode start, readFields lines with
      | some status, some fields => readBody status fields rest
      | _, _ => .malformed := by
  rw [readReply, readHead_joinLines h]

lemma readBody_length {n : ℕ} {v rest : Octets} (hstatus : isBodyless status = false)
    (hte : valuesOf (ascii "transfer-encoding") fields = [])
    (hcl : valuesOf (ascii "content-length") fields = [v]) (hv : parseNumeral 10 v = some n)
    (hn : n ≤ rest.length) :
    readBody status fields rest = .reply ⟨status, fields, rest.take n⟩ (rest.drop n) := by
  simp [readBody, hstatus, hte, hcl, hv, hn]

lemma readBody_untilClose (hstatus : isBodyless status = false)
    (hte : valuesOf (ascii "transfer-encoding") fields = [])
    (hcl : valuesOf (ascii "content-length") fields = []) (rest : Octets) :
    readBody status fields rest = .untilClose ⟨status, fields, rest⟩ := by
  simp [readBody, hstatus, hte, hcl]

/-- **When the rest of the connection is exactly the body.** -/
lemma readBody_isWhole_iff (status : ℕ) (fields : List (Octets × Octets)) (content : Octets)
    (closes : Bool) : (readBody status fields content).IsWhole closes content ↔
      if isBodyless status then content = [] else valuesOf (ascii "transfer-encoding") fields = [] ∧
        (∀ v ∈ valuesOf (ascii "content-length") fields, parseNumeral 10 v = some content.length) ∧
        (valuesOf (ascii "content-length") fields = [] → closes = true) := by
  rw [readBody]
  split_ifs with hbodyless
  · constructor
    · rintro ⟨-, hrest⟩
      exact hrest
    · rintro rfl
      exact ⟨rfl, rfl⟩
  · cases valuesOf (ascii "transfer-encoding") fields with
    | cons te tes =>
      simp only [reduceCtorEq, false_and, iff_false]
      split_ifs
      · cases hdecode : decodeChunked content with
        | none => exact id
        | some p =>
          obtain ⟨body, rest⟩ := p
          rintro ⟨hbody, -⟩
          have := decodeChunked_length hdecode
          simp only at hbody
          rw [hbody] at this
          omega
      · exact id
    | nil =>
      simp only [true_and]
      cases valuesOf (ascii "content-length") fields with
      | nil => simp [Outcome.IsWhole]
      | cons v vs =>
        simp only [forall_mem_cons, reduceCtorEq, false_implies, and_true]
        cases hv : parseNumeral 10 v with
        | none => simp [Outcome.IsWhole]
        | some n =>
          simp only [Option.some.injEq]
          split_ifs with hvs hn
          · simp only [Outcome.IsWhole, drop_eq_nil_iff]
            rw [all_eq_true] at hvs
            constructor
            · rintro ⟨-, hle⟩
              have hlen : n = content.length := le_antisymm hn hle
              exact ⟨hlen, fun v' hv' => hlen ▸ of_decide_eq_true (hvs v' hv')⟩
            · rintro ⟨rfl, -⟩
              exact ⟨take_length, le_rfl⟩
          · simp only [Outcome.IsWhole, false_iff]
            rintro ⟨rfl, -⟩
            exact hn le_rfl
          · simp only [Outcome.IsWhole, false_iff]
            rintro ⟨rfl, hall⟩
            exact hvs (all_eq_true.mpr fun v' hv' => decide_eq_true (hall v' hv'))

end Library.Http
