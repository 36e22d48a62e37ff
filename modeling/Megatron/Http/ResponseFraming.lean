import Megatron.Http.Response

/-!
How a client finds the end of a response (`build_html_response` and `make_response` of
`corelib/httpConnection.cpp`).
-/

namespace Megatron.Http

open Library.Http List

def statusLine (code : ℤ) : Bytes :=
  ascii "HTTP/1.1 " ++ intText code ++ ascii " " ++ getNameOfHttpCode code

def contentTypeLines (ct : Bytes) : List Bytes :=
  if ct = [] then [] else splitLines (ascii "Content-Type: " ++ ct)

def serverLine : Bytes := ascii "Server: Web Server"

def lengthLines (content : Bytes) : List Bytes :=
  if content = [] then [] else [ascii "Content-Length: " ++ numeral 10 content.length]

def connectionLines (keepalive : Bool) : List Bytes :=
  if keepalive then [ascii "Connection: Keep-Alive"] else []

def lastConnectionLine (keepalive : Bool) : Bytes :=
  if keepalive then ascii "Keep-Alive: timeout=7200, max=1000000000"
  else ascii "Connection: close"

def headerLines (setters : List Setter) : List Bytes := (headerTexts setters).flatMap splitLines

def argumentLines (keepalive : Bool) (setters : List Setter) : List Bytes :=
  contentTypeLines (configured keepalive setters).httpContentType ++
    serverLine :: headerLines setters

def fieldLines (keepalive : Bool) (setters : List Setter) (content : Bytes) : List Bytes :=
  contentTypeLines (configured keepalive setters).httpContentType ++
    serverLine :: (lengthLines content ++ connectionLines keepalive ++
      lastConnectionLine keepalive :: headerLines setters)

lemma joinLines_flatMap_splitLines (texts : List Bytes) :
    joinLines (texts.flatMap splitLines) = texts.flatMap (· ++ crlf) := by
  induction texts with
  | nil => rfl
  | cons t texts ih => rw [flatMap_cons, joinLines_append, ih, joinLines_splitLines, flatMap_cons]

variable {n : ℕ} (keepalive : Bool) (code : ℤ) (calls : List (List Setter × Bytes))
variable (setters : List Setter) (content : Bytes) (P : Write → Prop)

lemma buildHtmlResponse_eq :
    buildHtmlResponse { configured keepalive setters with content := content } =
      joinLines (statusLine (configured keepalive setters).httpCode ::
        fieldLines keepalive setters content) ++ (crlf ++ content) := by
  have h := configured_plain keepalive setters
  have hout : (configured keepalive setters).httpHeaderOut = joinLines (headerLines setters) := by
    rw [configured_httpHeaderOut, headerLines, joinLines_flatMap_splitLines]
  have hct (ct : Bytes) : joinLines (contentTypeLines ct) =
      if ct ≠ [] then ascii "Content-Type: " ++ ct ++ crlf else [] := by
    rw [contentTypeLines]
    split_ifs <;> simp_all [joinLines_splitLines]
  have hlength : joinLines (lengthLines content) =
      if content ≠ [] then ascii "Content-Length: " ++ numeral 10 content.length ++ crlf
      else [] := by
    rw [lengthLines]
    split_ifs <;> simp_all
  have hconnection : joinLines (connectionLines keepalive) ++
        (lastConnectionLine keepalive ++ crlf) =
      if keepalive = true then
        ascii "Connection: Keep-Alive\r\nKeep-Alive: timeout=7200, max=1000000000\r\n"
      else ascii "Connection: close\r\n" := by
    cases keepalive <;> decide +kernel
  rw [buildHtmlResponse]
  simp only [h.httpCharset, h.serverName, h.isChunked, h.keepalive, hout, ne_eq, not_true_eq_false,
    if_false, true_and, and_true, if_true, Bool.false_eq_true, append_nil]
  rw [← hconnection, fieldLines, joinLines_cons, joinLines_append, joinLines_cons,
    joinLines_append, joinLines_append, joinLines_cons, hct, hlength, statusLine, serverLine]
  simp only [ne_eq, append_assoc]

/-! ### What the client reads in the head -/

lemma all_isFieldChar_numeral (n : ℕ) : (numeral 10 n).all isFieldChar = true := by
  refine all_eq_true.mpr fun c hc => ?_
  obtain ⟨d, hd, rfl⟩ := mem_numeral (by norm_num) hc
  exact (isFieldChar_digitChar (by omega)).1

lemma all_isFieldChar_getNameOfHttpCode : (getNameOfHttpCode code).all isFieldChar = true := by
  unfold getNameOfHttpCode
  split <;> decide +kernel

lemma all_isFieldChar_statusLine : (statusLine code).all isFieldChar = true := by
  have hint : (intText code).all isFieldChar = true := by
    rw [intText]
    split_ifs
    · rw [all_cons, all_isFieldChar_numeral]
      decide
    · exact all_isFieldChar_numeral _
  have h1 : (ascii "HTTP/1.1 ").all isFieldChar = true := by decide
  have h2 : (ascii " ").all isFieldChar = true := by decide
  rw [statusLine, all_append, all_append, all_append, hint, h1, h2,
    all_isFieldChar_getNameOfHttpCode]
  rfl

lemma length_numeral_of_threeDigits (h : 100 ≤ n) (h' : n ≤ 999) : (numeral 10 n).length = 3 := by
  have hle := (@length_numeral_le_iff 10 (by norm_num) n 3 (by norm_num)).mpr (by omega)
  have hgt := (@length_numeral_le_iff 10 (by norm_num) n 2 (by norm_num)).not.mpr (by omega)
  omega

lemma length_numeral_le_of_blank {name : Bytes}
    (h : ((numeral 10 n ++ 32#8 :: name).drop 3).head? = some 32#8) :
    (numeral 10 n).length ≤ 3 := by
  by_contra hlong
  rw [List.head?_drop, List.getElem?_append_left (by omega)] at h
  obtain ⟨d, hd, hdigit⟩ := mem_numeral (by norm_num) (mem_of_getElem? h)
  have hblank := (isFieldChar_digitChar (by omega : d < 16)).2
  rw [← hdigit] at hblank
  revert hblank
  decide

lemma blank_mem_take_three (h : n < 100) (name : Bytes) :
    32#8 ∈ (numeral 10 n ++ 32#8 :: name).take 3 := by
  have hlen := (@length_numeral_le_iff 10 (by norm_num) n 2 (by norm_num)).mpr h
  obtain ⟨k, hk⟩ : ∃ k, 3 - (numeral 10 n).length = k + 1 := ⟨2 - (numeral 10 n).length, by omega⟩
  rw [take_append, mem_append, hk, take_succ_cons]
  exact .inr mem_cons_self

lemma statusCode_statusLine : statusCode (statusLine code) =
      if 100 ≤ code ∧ code ≤ 999 then some code.toNat else none := by
  set name := getNameOfHttpCode code with hname
  have hline : statusLine code = ascii "HTTP/1.1 " ++ (intText code ++ 32#8 :: name) := by
    rw [statusLine, append_assoc, append_assoc]
    rfl
  have htake : (statusLine code).take 9 = ascii "HTTP/1.1 " := by
    rw [hline]
    exact take_left' (by decide)
  have hdrop : (statusLine code).drop 9 = intText code ++ 32#8 :: name := by
    rw [hline]
    exact drop_left' (by decide)
  rw [statusCode, htake, hdrop]
  simp only [true_and]
  by_cases hneg : code < 0
  · -- the sign is not a digit
    have hmem : 45#8 ∈ (intText code ++ 32#8 :: name).take 3 := by simp [intText, hneg]
    rw [parseNumeral_eq_none hmem (by decide), ite_self, if_neg (by omega)]
  obtain ⟨n, rfl⟩ := Int.eq_ofNat_of_zero_le (by omega : 0 ≤ code)
  have htext : intText (n : ℤ) = numeral 10 n := by simp [intText]
  rw [htext]
  by_cases hcode : 100 ≤ (n : ℤ) ∧ (n : ℤ) ≤ 999
  · have hlen : (numeral 10 n).length = 3 := length_numeral_of_threeDigits (by omega) (by omega)
    have hdrop3 : (numeral 10 n ++ 32#8 :: name).drop 3 = 32#8 :: name := drop_left' hlen
    have hdrop4 : (numeral 10 n ++ 32#8 :: name).drop 4 = name := by
      rw [show (4 : ℕ) = 3 + 1 from rfl, ← drop_drop, hdrop3]
      rfl
    rw [if_pos hcode, hdrop3, hdrop4, take_left' hlen, if_pos]
    · rw [parseNumeral_numeral (by norm_num) (by norm_num)]
      simp
    · exact ⟨rfl, all_isFieldChar_getNameOfHttpCode _⟩
  · rw [if_neg hcode]
    split_ifs with h
    · have hlen := length_numeral_le_of_blank h.1
      have hlt := (@length_numeral_le_iff 10 (by norm_num) n 3 (by norm_num)).mp hlen
      have hsmall : n < 100 := by omega
      exact parseNumeral_eq_none (blank_mem_take_three hsmall name) (by decide)
    · rfl

def lengthFields (content : Bytes) : List (Bytes × Bytes) :=
  if content = [] then [] else [(ascii "content-length", numeral 10 content.length)]

def builtFields (keepalive : Bool) (content : Bytes) : List (Bytes × Bytes) :=
  (ascii "server", ascii "Web Server") :: (lengthFields content ++
    if keepalive then [(ascii "connection", ascii "Keep-Alive")] else [])

lemma parseField_length (n : ℕ) : parseField (ascii "Content-Length: " ++ numeral 10 n) =
      some (ascii "content-length", numeral 10 n) := by
  have hname : ascii "Content-Length: " = ascii "Content-Length" ++ [58#8, 32#8] := by decide
  have hline : ascii "Content-Length: " ++ numeral 10 n =
      ascii "Content-Length" ++ 58#8 :: (32#8 :: numeral 10 n) := by
    rw [hname, append_assoc]
    rfl
  have hblank : ∀ c ∈ numeral 10 n, isBlank c = false := by
    intro c hc
    obtain ⟨d, hd, rfl⟩ := mem_numeral (by norm_num) hc
    exact (isFieldChar_digitChar (by omega)).2
  have hall : (32#8 :: numeral 10 n).all isFieldChar = true := by
    rw [all_cons, all_isFieldChar_numeral]
    decide
  have hlower : (ascii "Content-Length").map lower = ascii "content-length" := by decide
  rw [hline, parseField_token (by decide) (by decide), if_pos hall, trim_cons_blank hblank, hlower]

lemma parseField_serverLine :
    parseField serverLine = some (ascii "server", ascii "Web Server") := by
  decide +kernel

lemma parseField_builtLines : List.Forall₂ (fun x f => parseField x = some f)
      (serverLine :: (lengthLines content ++ connectionLines keepalive))
      (builtFields keepalive content) := by
  refine .cons parseField_serverLine (rel_append ?_ ?_)
  · rw [lengthLines, lengthFields]
    split_ifs
    · exact .nil
    · exact .cons (parseField_length _) .nil
  · rw [connectionLines]
    cases keepalive with
    | false => exact .nil
    | true => exact .cons (by decide +kernel) .nil

lemma parseField_lastConnectionLine :
    ∃ name value, parseField (lastConnectionLine keepalive) = some (name, value) ∧
      name ≠ ascii "transfer-encoding" ∧ name ≠ ascii "content-length" := by
  cases keepalive with
  | false => exact ⟨ascii "connection", ascii "close", by decide +kernel, by decide, by decide⟩
  | true =>
    exact ⟨ascii "keep-alive", ascii "timeout=7200, max=1000000000", by decide +kernel, by decide,
      by decide⟩

lemma valuesOf_builtFields :
    valuesOf (ascii "transfer-encoding") (builtFields keepalive content) = [] ∧
      valuesOf (ascii "content-length") (builtFields keepalive content) =
        if content = [] then [] else [numeral 10 content.length] := by
  rw [builtFields, lengthFields]
  split_ifs <;> exact ⟨rfl, rfl⟩

lemma headFields : (readFields (fieldLines keepalive setters content) = none ∧
        readFields (argumentLines keepalive setters) = none) ∨
      ∃ fields args, readFields (fieldLines keepalive setters content) = some fields ∧
        readFields (argumentLines keepalive setters) = some args ∧
        valuesOf (ascii "transfer-encoding") fields = valuesOf (ascii "transfer-encoding") args ∧
        ∃ a b, valuesOf (ascii "content-length") args = a ++ b ∧
          valuesOf (ascii "content-length") fields =
            a ++ (if content = [] then [] else [numeral 10 content.length]) ++ b := by
  have hserver := isFold_of_parseField parseField_serverLine
  obtain ⟨name, value, hlast, hte, hcl⟩ := parseField_lastConnectionLine keepalive
  obtain ⟨hbuiltTe, hbuiltCl⟩ := valuesOf_builtFields keepalive content
  rw [fieldLines, argumentLines, readFields_append _ hserver, readFields_append _ hserver,
    ← cons_append, readFields_fields_append (parseField_builtLines keepalive content)
      (isFold_of_parseField hlast)]
  cases readFields (contentTypeLines (configured keepalive setters).httpContentType) with
  | none => exact .inl ⟨rfl, rfl⟩
  | some fs₀ =>
    rcases readFields_swap hlast parseField_serverLine (headerLines setters) with
      ⟨h1, h2⟩ | ⟨v, v', fs, h1, h2⟩
    · rw [h1, h2]
      exact .inl ⟨rfl, rfl⟩
    · rw [h1, h2]
      refine .inr ⟨fs₀ ++ (builtFields keepalive content ++ (name, v) :: fs),
        fs₀ ++ (ascii "server", v') :: fs, rfl, rfl, ?_, valuesOf (ascii "content-length") fs₀,
        valuesOf (ascii "content-length") fs, ?_, ?_⟩
      · rw [valuesOf_append, valuesOf_append, valuesOf_append, hbuiltTe, nil_append]
        rw [valuesOf_cons_of_ne hte, valuesOf_cons_of_ne (by decide)]
      · rw [valuesOf_append, valuesOf_cons_of_ne (by decide)]
      · rw [valuesOf_append, valuesOf_append, hbuiltCl, valuesOf_cons_of_ne hcl, append_assoc]

lemma mem_fieldLines {keepalive : Bool} {setters : List Setter} {content l : Bytes} :
    (l ∈ fieldLines keepalive setters content →
      l ∈ argumentLines keepalive setters ∨ IsLine l ∧ l ≠ []) ∧
    (l ∈ argumentLines keepalive setters → l ∈ fieldLines keepalive setters content) := by
  have hbuilt (h : l ∈ serverLine :: (lengthLines content ++ connectionLines keepalive)) :
      IsLine l ∧ l ≠ [] := by
    obtain ⟨i, hi, rfl⟩ := mem_iff_getElem.mp h
    have hparse := (forall₂_iff_get.mp (parseField_builtLines keepalive content)).2 i hi
    exact isLine_of_parseField (hparse (by
      rw [← (parseField_builtLines keepalive content).length_eq]
      exact hi))
  obtain ⟨name, value, hlast, -, -⟩ := parseField_lastConnectionLine keepalive
  constructor
  · intro h
    rw [fieldLines, ← cons_append] at h
    rcases mem_append.mp h with h | h
    · exact .inl (mem_append_left _ h)
    · rcases mem_append.mp h with h | h
      · exact .inr (hbuilt h)
      · rcases mem_cons.mp h with rfl | h
        · exact .inr (isLine_of_parseField hlast)
        · exact .inl (mem_append_right _ (mem_cons_of_mem _ h))
  · intro h
    rw [argumentLines] at h
    rw [fieldLines]
    rcases mem_append.mp h with h | h
    · exact mem_append_left _ h
    · rcases mem_cons.mp h with rfl | h
      · exact mem_append_right _ mem_cons_self
      · exact mem_append_right _ (mem_cons_of_mem _ (mem_append_right _ (mem_cons_of_mem _ h)))

lemma isLine_argumentLines : ∀ l ∈ argumentLines keepalive setters, IsLine l := by
  intro l hl
  rw [argumentLines, contentTypeLines] at hl
  rcases mem_append.mp hl with hl | hl
  · split_ifs at hl
    · cases hl
    · exact isLine_of_mem_splitLines _ l hl
  · rcases mem_cons.mp hl with rfl | hl
    · exact (isLine_of_parseField parseField_serverLine).1
    · obtain ⟨t, -, hl⟩ := mem_flatMap.mp hl
      exact isLine_of_mem_splitLines t l hl

lemma isLine_head : ∀ l ∈ statusLine (configured keepalive setters).httpCode ::
      fieldLines keepalive setters content, IsLine l := by
  refine forall_mem_cons.mpr
    ⟨isLine_of_isFieldChar (all_isFieldChar_statusLine _), fun l hl => ?_⟩
  rcases mem_fieldLines.1 hl with hl | hl
  · exact isLine_argumentLines keepalive setters l hl
  · exact hl.1

lemma head_ne_nil_iff : (∀ l ∈ statusLine (configured keepalive setters).httpCode ::
      fieldLines keepalive setters content, l ≠ []) ↔
    ∀ l ∈ argumentLines keepalive setters, l ≠ [] := by
  constructor
  · intro h l hl
    exact h l (mem_cons_of_mem _ (mem_fieldLines.2 hl))
  · refine fun h => forall_mem_cons.mpr ⟨?_, fun l hl => ?_⟩
    · rw [statusLine, append_assoc, append_assoc]
      simp [ascii]
    · rcases mem_fieldLines.1 hl with hl | hl
      · exact h l hl
      · exact hl.2

/-! ### One response -/

def responseBytes (keepalive : Bool) (setters : List Setter) (content : Bytes) : Bytes :=
  buildHtmlResponse { configured keepalive setters with content := content }

lemma makeResponse_configured : makeResponse (configured keepalive setters) content =
      .ok ({ configured keepalive setters with content := content },
        ⟨responseBytes keepalive setters content, !keepalive⟩) := by
  have h := configured_plain keepalive setters
  rw [makeResponse, if_neg (by simp [h.isChunked])]
  simp only [lastWrite, h.keepalive, responseBytes]

lemma exists_makeResponse_iff :
    (∃ r w, makeResponse (configured keepalive setters) content = .ok (r, w) ∧ P w) ↔
      P ⟨responseBytes keepalive setters content, !keepalive⟩ := by
  rw [makeResponse_configured]
  constructor
  · rintro ⟨r, w, hmake, hw⟩
    cases hmake
    exact hw
  · intro hw
    exact ⟨_, _, rfl, hw⟩

lemma readHead_responseBytes_iff :
    (∃ lines, readHead (responseBytes keepalive setters content) = some (lines, content)) ↔
      ∀ l ∈ argumentLines keepalive setters, l ≠ [] := by
  have hlines := isLine_head keepalive setters content
  rw [← head_ne_nil_iff keepalive setters content, responseBytes, buildHtmlResponse_eq]
  constructor
  · rintro ⟨lines, hhead⟩ l hl rfl
    obtain ⟨lines', rest, hearly, hlong⟩ := readHead_early hlines hl content
    rw [hhead] at hearly
    cases hearly
    omega
  · intro hne
    exact ⟨_, readHead_joinLines (fun l hl => ⟨hlines l hl, hne l hl⟩) content⟩

lemma readReply_responseBytes {keepalive : Bool} {setters : List Setter}
    (hne : ∀ l ∈ argumentLines keepalive setters, l ≠ []) (content rest : Bytes) :
    readReply (responseBytes keepalive setters content ++ rest) =
      match statusCode (statusLine (configured keepalive setters).httpCode),
        readFields (fieldLines keepalive setters content) with
      | some status, some fields => readBody status fields (content ++ rest)
      | _, _ => .malformed := by
  have hlines := isLine_head keepalive setters content
  have hne' := (head_ne_nil_iff keepalive setters content).mpr hne
  rw [responseBytes, buildHtmlResponse_eq, append_assoc, append_assoc]
  exact readReply_joinLines (fun l hl => ⟨hlines l hl, hne' l hl⟩) (content ++ rest)

def ArgumentsAgree (keepalive : Bool) (setters : List Setter) (content : Bytes) : Prop :=
  (100 ≤ (configured keepalive setters).httpCode ∧ (configured keepalive setters).httpCode ≤ 999) ∧
  (∀ l ∈ argumentLines keepalive setters, l ≠ []) ∧
  ∃ args, readFields (argumentLines keepalive setters) = some args ∧
    if isBodyless (configured keepalive setters).httpCode.toNat then content = []
    else valuesOf (ascii "transfer-encoding") args = [] ∧
      (∀ v ∈ valuesOf (ascii "content-length") args, parseNumeral 10 v = some content.length) ∧
      (content = [] → valuesOf (ascii "content-length") args = [] → keepalive = false)

private lemma lengths_agree_iff (closes : Bool) (a b : List Bytes) :
    ((∀ v ∈ a ++ (if content = [] then [] else [numeral 10 content.length]) ++ b,
        parseNumeral 10 v = some content.length) ∧
      (a ++ (if content = [] then [] else [numeral 10 content.length]) ++ b = [] → closes = true)) ↔
    (∀ v ∈ a ++ b, parseNumeral 10 v = some content.length) ∧
      (content = [] → a ++ b = [] → closes = true) := by
  split_ifs with hcontent
  · simp [hcontent]
  · have hparse : parseNumeral 10 (numeral 10 content.length) = some content.length :=
      parseNumeral_numeral (by norm_num) (by norm_num) _
    simp only [mem_append, mem_singleton, append_eq_nil_iff]
    constructor
    · rintro ⟨h, -⟩
      exact ⟨fun v hv => h v (by tauto), fun h => absurd h hcontent⟩
    · rintro ⟨h, -⟩
      refine ⟨fun v hv => ?_, by simp⟩
      rcases hv with (hv | rfl) | hv
      · exact h v (.inl hv)
      · exact hparse
      · exact h v (.inr hv)

/-- **A response is read as one** if its argument strings agree with its content. -/
theorem response_whole_iff (keepalive : Bool) (setters : List Setter) (content : Bytes) :
    (∃ r w, makeResponse (configured keepalive setters) content = .ok (r, w) ∧
      (∃ lines, readHead w.bytes = some (lines, content)) ∧
      (readReply w.bytes).IsWhole w.closes content) ↔ ArgumentsAgree keepalive setters content := by
  rw [exists_makeResponse_iff keepalive setters content fun w =>
    (∃ lines, readHead w.bytes = some (lines, content)) ∧
      (readReply w.bytes).IsWhole w.closes content]
  dsimp only
  rw [readHead_responseBytes_iff, ArgumentsAgree, and_left_comm]
  refine and_congr_right fun hne => ?_
  have hreply := readReply_responseBytes hne content []
  rw [append_nil, append_nil, statusCode_statusLine] at hreply
  rw [hreply]
  by_cases hcode : 100 ≤ (configured keepalive setters).httpCode ∧
      (configured keepalive setters).httpCode ≤ 999
  · rw [if_pos hcode]
    simp only [hcode, and_self, true_and]
    rcases headFields keepalive setters content with
      ⟨hnone, hnone'⟩ | ⟨fields, args, hfields, hargs, hte, a, b, hcl, hcl'⟩
    · simp [hnone, hnone', Outcome.IsWhole]
    · rw [hfields, hargs]
      simp only [Option.some.injEq, exists_eq_left', readBody_isWhole_iff]
      split_ifs
      · exact Iff.rfl
      · rw [hte, hcl, hcl', lengths_agree_iff]
        simp
  · simp [hcode, Outcome.IsWhole]

def splittingHeader : List Setter :=
  [.header (ascii "X") (ascii "a\r\n\r\nhiHTTP/1.1 200 OK\r\nContent-Length: 2")]

theorem header_splits_response :
    ∃ r w, makeResponse (configured true splittingHeader) (ascii "hi") = .ok (r, w) ∧
      (readReplies 2 w.bytes).map (fun p => (p.1.map Reply.body, p.2)) =
        some ([ascii "hi", ascii "hi"], []) ∧
      ¬ ∃ lines, readHead w.bytes = some (lines, ascii "hi") := by
  refine ⟨_, _, makeResponse_configured _ _ _, by decide +kernel, ?_⟩
  rw [readHead_responseBytes_iff]
  decide +kernel

/-! ### Responses on a kept connection -/

structure Ordinary (setters : List Setter) : Prop where
  status : 100 ≤ (configured true setters).httpCode ∧ (configured true setters).httpCode ≤ 999 ∧
    isBodyless (configured true setters).httpCode.toNat = false
  contentType : ∀ c ∈ (configured true setters).httpContentType, c ≠ 13#8 ∧ c ≠ 10#8
  headers : ∀ text ∈ headerTexts setters, ∀ c ∈ text, c ≠ 13#8 ∧ c ≠ 10#8
  framing : ∀ args, readFields (argumentLines true setters) = some args →
    valuesOf (ascii "content-length") args = [] ∧
      valuesOf (ascii "transfer-encoding") args = []

def writtenAll : List (List Setter × Bytes) → Except Exn Bytes
  | [] => .ok []
  | (setters, content) :: calls => do
      let (_, w) ← makeResponse (configured true setters) content
      let rest ← writtenAll calls
      pure (w.bytes ++ rest)

lemma writtenAll_eq :
    writtenAll calls = .ok (calls.flatMap fun c => responseBytes true c.1 c.2) := by
  induction calls with
  | nil => rfl
  | cons c calls ih =>
    rw [writtenAll, makeResponse_configured, ih]
    rfl

lemma Ordinary.argumentLines_ne_nil {setters : List Setter} (h : Ordinary setters) :
    ∀ l ∈ argumentLines true setters, l ≠ [] := by
  intro l hl
  rw [argumentLines, contentTypeLines] at hl
  rcases mem_append.mp hl with hl | hl
  · split_ifs at hl
    · cases hl
    · have hline :
          IsLine (ascii "Content-Type: " ++ (configured true setters).httpContentType) := by
        refine isLine_of_not_mem fun hmem => ?_
        rcases mem_append.mp hmem with hmem | hmem
        · exact absurd hmem (by decide)
        · exact (h.contentType _ hmem).1 rfl
      rw [splitLines_of_isLine hline, mem_singleton] at hl
      rw [hl]
      simp [ascii]
  · rcases mem_cons.mp hl with rfl | hl
    · exact (isLine_of_parseField parseField_serverLine).2
    · obtain ⟨text, htext, hl⟩ := mem_flatMap.mp hl
      have hline : IsLine text := isLine_of_not_mem fun hmem => (h.headers text htext _ hmem).1 rfl
      rw [splitLines_of_isLine hline, mem_singleton] at hl
      subst hl
      obtain ⟨c, -, hc⟩ := mem_filterMap.mp htext
      cases c with
      | header key value =>
        simp only at hc
        split_ifs at hc
        rw [← Option.some.inj hc]
        simp [ascii]
      | contentType ct | status code => cases hc

section

variable {setters : List Setter} (h : Ordinary setters) (rest : Bytes)

include h

lemma Ordinary.readReply_eq {content : Bytes} (hcontent : content ≠ [])
    {args : List (Bytes × Bytes)} (hargs : readFields (argumentLines true setters) = some args) :
    ∃ fields, readReply (responseBytes true setters content ++ rest) =
      .reply ⟨(configured true setters).httpCode.toNat, fields, content⟩ rest := by
  obtain ⟨hlow, hhigh, hbody⟩ := h.status
  obtain ⟨hargsCl, hargsTe⟩ := h.framing args hargs
  rcases headFields true setters content with
    ⟨-, hnone⟩ | ⟨fields, args', hfields, hargs', hte, a, b, hcl, hcl'⟩
  · rw [hargs] at hnone
    cases hnone
  · cases hargs.symm.trans hargs'
    obtain ⟨rfl, rfl⟩ := append_eq_nil_iff.mp (hcl.symm.trans hargsCl)
    rw [if_neg hcontent, nil_append, append_nil] at hcl'
    refine ⟨fields, ?_⟩
    rw [readReply_responseBytes h.argumentLines_ne_nil, statusCode_statusLine,
      if_pos ⟨hlow, hhigh⟩, hfields]
    simp only
    rw [readBody_length hbody (hte.trans hargsTe) hcl'
      (parseNumeral_numeral (by norm_num) (by norm_num) _) (by simp), take_left',
      drop_left'] <;> rfl

lemma Ordinary.readReply_ne {content : Bytes}
    (hbad : ¬ (content ≠ [] ∧ (readFields (argumentLines true setters)).isSome = true)) (r : Reply)
    (rest' : Bytes) : readReply (responseBytes true setters content ++ rest) ≠ .reply r rest' := by
  obtain ⟨hlow, hhigh, hbody⟩ := h.status
  rw [readReply_responseBytes h.argumentLines_ne_nil, statusCode_statusLine, if_pos ⟨hlow, hhigh⟩]
  rcases headFields true setters content with
    ⟨hnone, -⟩ | ⟨fields, args, hfields, hargs, hte, a, b, hcl, hcl'⟩
  · rw [hnone]
    simp
  · have hnil : content = [] := by
      by_contra hne
      exact hbad ⟨hne, by rw [hargs]; rfl⟩
    obtain ⟨hargsCl, hargsTe⟩ := h.framing args hargs
    obtain ⟨rfl, rfl⟩ := append_eq_nil_iff.mp (hcl.symm.trans hargsCl)
    rw [if_pos hnil] at hcl'
    rw [hfields]
    simp only
    rw [readBody_untilClose hbody (hte.trans hargsTe) hcl']
    simp

end

lemma readReplies_responses_iff (h : ∀ c ∈ calls, Ordinary c.1) :
    (∃ replies, readReplies calls.length (calls.flatMap fun c => responseBytes true c.1 c.2) =
        some (replies, []) ∧
      List.Forall₂ (fun c r => (r.status : ℤ) = (configured true c.1).httpCode ∧ r.body = c.2)
        calls replies) ↔
    ∀ c ∈ calls, c.2 ≠ [] ∧ (readFields (argumentLines true c.1)).isSome = true := by
  induction calls with
  | nil => simp [readReplies]
  | cons c calls ih =>
    obtain ⟨hc, hcalls⟩ := forall_mem_cons.mp h
    rw [forall_mem_cons, ← ih hcalls, flatMap_cons, length_cons]
    simp only [readReplies]
    by_cases hgood : c.2 ≠ [] ∧ (readFields (argumentLines true c.1)).isSome = true
    · obtain ⟨args, hargs⟩ := Option.isSome_iff_exists.mp hgood.2
      obtain ⟨fields, hreply⟩ := hc.readReply_eq
        (calls.flatMap fun c => responseBytes true c.1 c.2) hgood.1 hargs
      have hstatus : (((configured true c.1).httpCode.toNat : ℕ) : ℤ) =
          (configured true c.1).httpCode := Int.toNat_of_nonneg (by have := hc.status.1; omega)
      rw [hreply]
      simp only [hgood, ne_eq, not_false_eq_true, and_self, true_and, Option.map_eq_some_iff]
      constructor
      · rintro ⟨replies, ⟨⟨rs, left⟩, hrest, he⟩, hall⟩
        cases he
        exact ⟨rs, hrest, (forall₂_cons.mp hall).2⟩
      · rintro ⟨rs, hrest, hall⟩
        exact ⟨_, ⟨⟨rs, []⟩, hrest, rfl⟩, .cons ⟨hstatus, rfl⟩ hall⟩
    · simp only [hgood, false_and, iff_false]
      rintro ⟨replies, hread, -⟩
      split at hread
      · rename_i r rest' hreply
        exact hc.readReply_ne _ hgood r rest' hreply
      · cases hread

/-- **Responses on a kept connection** are told apart if no content is empty. -/
theorem responses_framed_iff (calls : List (List Setter × Bytes)) (h : ∀ c ∈ calls, Ordinary c.1) :
    (∃ bytes replies, writtenAll calls = .ok bytes ∧
      readReplies calls.length bytes = some (replies, []) ∧
      List.Forall₂ (fun c r => (r.status : ℤ) = (configured true c.1).httpCode ∧ r.body = c.2)
        calls replies) ↔
    ∀ c ∈ calls, c.2 ≠ [] ∧ (readFields (argumentLines true c.1)).isSome = true := by
  rw [← readReplies_responses_iff calls h]
  constructor
  · rintro ⟨bytes, replies, hbytes, hread, hall⟩
    rw [writtenAll_eq] at hbytes
    cases hbytes
    exact ⟨replies, hread, hall⟩
  · rintro ⟨replies, hread, hall⟩
    exact ⟨_, replies, writtenAll_eq calls, hread, hall⟩

def twoResponses : List (List Setter × Bytes) :=
  [([], ascii "hello"), ([.status 404, .header (ascii "X-Why") (ascii "gone")], ascii "no")]

private lemma twoResponses_ordinary : ∀ c ∈ twoResponses, Ordinary c.1 := by
  refine forall_mem_cons.mpr ⟨?_, forall_mem_cons.mpr ⟨?_, by simp⟩⟩
  · refine ⟨by decide +kernel, by decide +kernel, by decide +kernel, fun args hargs => ?_⟩
    have hread : readFields (argumentLines true []) =
        some [(ascii "content-type", ascii "text/html"),
          (ascii "server", ascii "Web Server")] := by decide +kernel
    cases hread.symm.trans hargs
    exact ⟨by decide +kernel, by decide +kernel⟩
  · refine ⟨by decide +kernel, by decide +kernel, by decide +kernel, fun args hargs => ?_⟩
    have hread : readFields (argumentLines true
          [.status 404, .header (ascii "X-Why") (ascii "gone")]) =
        some [(ascii "content-type", ascii "text/html"), (ascii "server", ascii "Web Server"),
          (ascii "x-why", ascii "gone")] := by decide +kernel
    cases hread.symm.trans hargs
    exact ⟨by decide +kernel, by decide +kernel⟩

theorem responses_framed_twoResponses : ∃ bytes replies, writtenAll twoResponses = .ok bytes ∧
      readReplies 2 bytes = some (replies, []) ∧
      List.Forall₂ (fun c r => (r.status : ℤ) = (configured true c.1).httpCode ∧ r.body = c.2)
        twoResponses replies :=
  (responses_framed_iff twoResponses twoResponses_ordinary).mpr (by decide +kernel)

/-- **The response after one without content is taken for its body.** -/
theorem empty_response_not_framed :
    ∃ bytes, writtenAll [([], []), ([], ascii "hello")] = .ok bytes ∧ readReplies 2 bytes = none ∧
      readReply bytes = .untilClose ⟨200, [(ascii "content-type", ascii "text/html"),
          (ascii "server", ascii "Web Server"), (ascii "connection", ascii "Keep-Alive"),
          (ascii "keep-alive", ascii "timeout=7200, max=1000000000")],
        responseBytes true [] (ascii "hello")⟩ := by
  refine ⟨_, writtenAll_eq _, ?_⟩
  rw [and_iff_right_of_imp]
  · decide +kernel
  · intro hread
    rw [readReplies, hread]

end Megatron.Http
