import Megatron.Http.Upgrades

/-!
Requests on one connection are told apart (`modules/http/httpService.cpp`; `serve_iff`,
`requests_isolated_iff`).
-/

namespace Megatron.Http

open Library.Http Library.Spans List Request

/-- What an application reads of a request. -/
@[ext]
structure RequestData where
  method : Bytes
  url : Bytes
  headers : HeaderMap
  body : Option Bytes

def HttpContext.data (ctx : HttpContext) : RequestData :=
  ⟨ctx.method, ctx.url, ctx.headers, ctx.body⟩

/-- The data in the `RequestIncoming` events. -/
def incomings (os : List Output) : List RequestData :=
  os.filterMap fun
    | .requestIncoming _ ctx => some ctx.data
    | .requestChunkReceived .. | .requestChunkingCompleted .. | .write _ | .webSocketInput _ => none

@[simp] lemma incomings_append (os os' : List Output) :
    incomings (os ++ os') = incomings os ++ incomings os' := filterMap_append

@[simp] lemma incomings_requestIncoming (n : ℕ) (ctx : HttpContext) (os : List Output) :
    incomings (.requestIncoming n ctx :: os) = ctx.data :: incomings os := rfl

lemma incomings_inputs (reads : List Bytes) : incomings (reads.map .webSocketInput) = [] := by
  simp [incomings]

lemma incomings_chunkEvents (context i : ℕ) (chunks : List Chunk) :
    incomings (chunkEvents context i chunks) = [] := by
  induction chunks generalizing i with
  | nil => rfl
  | cons chunk chunks ih =>
    rw [chunkEvents_cons]
    exact ih (i + 1)

def HeaderMap.ofList (hs : List (Bytes × Bytes)) : HeaderMap :=
  hs.foldl (fun m h => m.assign h.1 h.2) fun _ => none

namespace Request

def fields (r : Request) : List (Bytes × Bytes) := r.headers.map fun h => (h.name, h.value)

def own (r : Request) : RequestData where
  method := r.method.name
  url := r.url
  headers := HeaderMap.ofList r.fields
  body := match r.body with
    | .identity content _ => some content
    | .empty | .chunked .. => none

end Request

/-! ### The header map -/

/-- The name of a header without a value is put in front of the next name. -/
def joinedFrom (start : Bytes) : List (Bytes × Bytes) → List (Bytes × Bytes)
  | [] => if start = [] then [] else [(start, [])]
  | (name, value) :: hs =>
    if value = [] then joinedFrom (start ++ name) hs
    else (start ++ name, value) :: joinedFrom [] hs

/-- The headers as `on_header_field` joins them. -/
def joined (hs : List (Bytes × Bytes)) : List (Bytes × Bytes) := joinedFrom [] hs

lemma joined_eq_self {hs : List (Bytes × Bytes)} (hname : ∀ h ∈ hs, h.1 ≠ [])
    (hvalue : ∀ h ∈ hs.dropLast, h.2 ≠ []) : joined hs = hs := by
  rw [joined]
  induction hs with
  | nil => rfl
  | cons h hs ih =>
    obtain ⟨name, value⟩ := h
    cases hs with
    | nil =>
      have := hname _ mem_cons_self
      by_cases hv : value = [] <;> simp_all [joinedFrom]
    | cons h' hs =>
      rw [dropLast_cons_cons] at hvalue
      rw [joinedFrom, if_neg (hvalue _ mem_cons_self), nil_append,
        ih (fun h hh => hname h (mem_cons_of_mem _ hh)) fun h hh => hvalue h (mem_cons_of_mem _ hh)]

lemma headers_collect (hs : List Header) (ctx : HttpContext) (p : Parsed)
    (h : ctx.currentValue ≠ [] → ctx.currentField ≠ []) :
    (headersRead (hs.foldl collect ctx) p).headers =
      (joinedFrom (if ctx.currentValue = [] then ctx.currentField else [])
        (hs.map fun h => (h.name, h.value))).foldl (fun m h => m.assign h.1 h.2)
        (if ctx.currentValue = [] then ctx.headers
          else ctx.headers.assign ctx.currentField ctx.currentValue) := by
  induction hs generalizing ctx with
  | nil =>
    by_cases hvalue : ctx.currentValue = []
    · by_cases hfield : ctx.currentField = [] <;> simp [headersRead, joinedFrom, hvalue, hfield]
    · simp [headersRead, joinedFrom, hvalue, h hvalue]
  | cons hd hs ih =>
    have hnext : (collect ctx hd).currentValue = hd.value ∧ (collect ctx hd).currentField =
          (if ctx.currentValue = [] then ctx.currentField else []) ++ hd.name ∧
        (collect ctx hd).headers = if ctx.currentValue = [] then ctx.headers
          else ctx.headers.assign ctx.currentField ctx.currentValue := by
      by_cases hvalue : ctx.currentValue = [] <;>
        simp [collect, onHeaderField, onHeaderValue, hvalue]
    obtain ⟨hv, hf, hm⟩ := hnext
    have hinv : (collect ctx hd).currentValue ≠ [] → (collect ctx hd).currentField ≠ [] := by
      intro _
      rw [hf]
      exact append_ne_nil_of_right_ne_nil _ hd.name_ne_nil
    rw [foldl_cons, ih (collect ctx hd) hinv, hv, hf, hm, map_cons, joinedFrom]
    by_cases hvalue : hd.value = [] <;> simp [hvalue]

/-! ### One request -/

namespace Request

def chunkCount (r : Request) : ℕ := match r.body with
  | .chunked chunks .. => chunks.length
  | .empty | .identity .. => 0

/-- The request makes a `RequestIncoming`. -/
def Announced (r : Request) : Prop := r.isChunked = true ∨ r.method = .get ∨ r.method = .post

section

variable (sha1 : Bytes → Bytes)

def storedHeaders (r : Request) : HeaderMap :=
  if r.skipBody then (upgradeHeaders sha1 (HeaderMap.ofList (joined r.fields))).1
  else HeaderMap.ofList (joined r.fields)

def seen (r : Request) : RequestData where
  method := r.method.name
  url := r.url
  headers := r.storedHeaders sha1
  body := if r.isChunked then none else r.bodyRead none

/-- **The conditions under which a request is served.** -/
structure Served (r : Request) : Prop where
  announced : r.Announced
  headers : r.storedHeaders sha1 = HeaderMap.ofList r.fields
  body : r.skipBody = true → r.body = .empty
  chunks : r.pausesEarly = false → r.chunkCount < 2 ^ 31

variable {sha1}

lemma body_seen_iff (r : Request) :
    (r.seen sha1).body = r.own.body ↔ (r.skipBody = true → r.body = .empty) := by
  rw [seen, own, skipBody, bodyRead, pausesEarly]
  cases hbody : r.body with
  | empty => simp
  | identity content hne =>
    have hchunked : r.isChunked = false := by rw [isChunked, hbody]
    simp [hchunked]
  | chunked chunks lastLine trailers ending hne =>
    have hchunked : r.isChunked = true := by rw [isChunked, hbody]
    simp [hchunked]

lemma served_iff (r : Request) : r.Served sha1 ↔
    (r.pausesEarly = false → r.chunkCount < 2 ^ 31) ∧ r.Announced ∧ r.seen sha1 = r.own := by
  have hseen : r.seen sha1 = r.own ↔ r.storedHeaders sha1 = HeaderMap.ofList r.fields ∧
      (r.skipBody = true → r.body = .empty) := by
    rw [← @body_seen_iff sha1, RequestData.ext_iff]
    simp [seen, own]
  rw [hseen]
  constructor
  · intro h
    exact ⟨h.chunks, h.announced, h.headers, h.body⟩
  · rintro ⟨hchunks, hannounced, hheaders, hbody⟩
    exact ⟨hannounced, hheaders, hbody, hchunks⟩

lemma headersRead_headRead (r : Request) :
    (headersRead (r.headRead {}) r.parsed).headers = HeaderMap.ofList (joined r.fields) ∧
      (r.headRead {}).url = r.url ∧ (r.headRead {}).body = none := by
  refine ⟨?_, ?_⟩
  · have h := headers_collect r.headers (onUrl {} r.url) r.parsed (by simp [onUrl])
    exact h
  · obtain ⟨field, value, headers, heq⟩ := headRead_keeps r {}
    rw [heq]
    exact ⟨rfl, rfl⟩

lemma data_chunkedContext {r : Request} (h : r.isChunked = true) :
    (r.chunkedContext {}).data = r.seen sha1 := by
  obtain ⟨hheaders, hurl, hbody⟩ := r.headersRead_headRead
  ext1
  · rfl
  · exact hurl
  · have hskip : r.skipBody = false := by simp [skipBody, h]
    rw [seen, storedHeaders, hskip]
    exact hheaders
  · rw [seen, if_pos h]
    exact hbody

lemma data_plainContext {r : Request} (h : r.isChunked = false) (isWebSocket : Bool) :
    (r.plainContext sha1 {} isWebSocket).data = r.seen sha1 := by
  obtain ⟨hheaders, hurl, hbody⟩ := r.headersRead_headRead
  ext1
  · rfl
  · exact hurl
  · have hskip : r.skipBody = r.upgrade := by simp [skipBody, h]
    rw [seen, storedHeaders, hskip]
    exact congrArg (r.plainHeaders sha1) hheaders
  · rw [seen, if_neg (by simp [h])]
    exact congrArg r.bodyRead hbody

end

end Request

section

variable {sha1 : Bytes → Bytes}

lemma incomings_serve_plain {c : Conn} (h : c.Between) {r : Request}
    (hchunked : r.isChunked = false) :
    ∃ isWebSocket c', play sha1 r.readPieces c = .ok c' ∧
      (r.method = .get ∨ r.method = .post → c'.ctx = {} ∧ incomings c'.outputs =
        incomings c.outputs ++ [(r.plainContext sha1 c.ctx isWebSocket).data]) ∧
      (¬ (r.method = .get ∨ r.method = .post) → incomings c'.outputs = incomings c.outputs) := by
  obtain ⟨isWebSocket, writes, hserve, hwrites⟩ := @serve_plain sha1 r hchunked c
  obtain ⟨hflag, -, hmethod⟩ := @plainContext_keeps sha1 r c.ctx isWebSocket
  have hnone : incomings writes = [] := by
    rcases hwrites with ⟨rfl, -⟩ | ⟨b, rfl, -⟩ <;> rfl
  refine ⟨isWebSocket, _, hserve, ?_, ?_⟩
  · intro hget
    simp only [onMessageComplete, hflag, h.isChunked, hmethod, Bool.false_eq_true, if_false,
      if_pos hget, incomings_append, hnone, append_nil]
    exact ⟨trivial, rfl⟩
  · intro hget
    simp only [onMessageComplete, hflag, h.isChunked, hmethod, Bool.false_eq_true, if_false,
      if_neg hget, incomings_append, hnone, append_nil]

lemma incomings_serve_chunked {c : Conn} (h : c.Between) {r : Request}
    (hchunked : r.isChunked = true) : (¬ (r.pausesEarly = false → r.chunkCount < 2 ^ 31) ∧
      play sha1 r.readPieces c = .error .overflow) ∨
    ((r.pausesEarly = false → r.chunkCount < 2 ^ 31) ∧
      ∃ c', play sha1 r.readPieces c = .ok c' ∧ c'.ctx = {} ∧
        incomings c'.outputs = incomings c.outputs ++ [(r.chunkedContext c.ctx).data]) := by
  cases hearly : r.pausesEarly with
  | true =>
    refine .inr ⟨nofun, _, serve_chunked_early hchunked hearly c, rfl, ?_⟩
    rw [incomings_append]
    rfl
  | false =>
    obtain ⟨chunks, lastLine, trailers, ending, hne, hbody⟩ := r.isChunked_eq_true hchunked
    have hcount : r.chunkCount = chunks.length := by rw [chunkCount, hbody]
    rw [serve_chunked hbody hearly c h.chunkId, hcount]
    split_ifs with hlength
    · refine .inr ⟨fun _ => hlength, _, rfl, rfl, ?_⟩
      rw [incomings_append, incomings_requestIncoming, incomings_append, incomings_chunkEvents]
      rfl
    · exact .inl ⟨fun hall => hlength (hall rfl), rfl⟩

lemma incomings_serve_le {c c' : Conn} (h : c.Between) {r : Request}
    (hrun : play sha1 r.readPieces c = .ok c') :
    ∃ l, incomings c'.outputs = incomings c.outputs ++ l ∧ l.length ≤ 1 := by
  cases hchunked : r.isChunked with
  | true =>
    rcases @incomings_serve_chunked sha1 c h r hchunked with ⟨-, herror⟩ | ⟨-, c₁, hok, -, hin⟩
    · rw [herror] at hrun
      cases hrun
    · obtain rfl := Except.ok.inj (hok.symm.trans hrun)
      exact ⟨_, hin, le_rfl⟩
  | false =>
    obtain ⟨isWebSocket, c₁, hok, hget, hother⟩ := @incomings_serve_plain sha1 c h r hchunked
    obtain rfl := Except.ok.inj (hok.symm.trans hrun)
    by_cases hmethod : r.method = .get ∨ r.method = .post
    · exact ⟨_, (hget hmethod).2, le_rfl⟩
    · exact ⟨[], by rw [hother hmethod, append_nil], Nat.zero_le 1⟩

lemma serve_new {c : Conn} (h : c.ctx = {}) (r : Request) :
    (¬ (r.pausesEarly = false → r.chunkCount < 2 ^ 31) ∧
      play sha1 r.readPieces c = .error .overflow) ∨
    ((r.pausesEarly = false → r.chunkCount < 2 ^ 31) ∧
      ∃ c', play sha1 r.readPieces c = .ok c' ∧ (r.Announced → c'.ctx = {} ∧
          incomings c'.outputs = incomings c.outputs ++ [r.seen sha1]) ∧
        (¬ r.Announced → incomings c'.outputs = incomings c.outputs)) := by
  have hbetween : c.Between := ⟨by rw [h], by rw [h]⟩
  cases hchunked : r.isChunked with
  | true =>
    refine (@incomings_serve_chunked sha1 c hbetween r hchunked).imp_right ?_
    rintro ⟨hcount, c', hok, hctx, hin⟩
    refine ⟨hcount, c', hok, fun _ => ⟨hctx, ?_⟩, fun hnot => absurd (.inl hchunked) hnot⟩
    rw [hin, h, data_chunkedContext hchunked]
  | false =>
    obtain ⟨isWebSocket, c', hok, hget, hother⟩ := @incomings_serve_plain sha1 c hbetween r hchunked
    have hann : r.Announced ↔ r.method = .get ∨ r.method = .post := by
      simp [Request.Announced, hchunked]
    have hcount : r.chunkCount < 2 ^ 31 := by
      rw [chunkCount]
      rw [isChunked] at hchunked
      cases hbody : r.body with
      | chunked chunks lastLine trailers ending hne =>
        rw [hbody] at hchunked
        cases hchunked
      | empty | identity content hne => exact Nat.two_pow_pos 31
    refine .inr ⟨fun _ => hcount, c', hok, fun hyes => ?_, fun hnot => hother (hann.not.mp hnot)⟩
    obtain ⟨hctx, hin⟩ := hget (hann.mp hyes)
    exact ⟨hctx, by rw [hin, h, data_plainContext hchunked]⟩

/-! ### The requests of a connection -/

section

variable (sha1)

def serve (c : Conn) : List Request → Except CallbackError Conn
  | [] => .ok c
  | r :: rs => do
      let c' ← play sha1 r.readPieces c
      if r.upgrade then pure c' else serve c' rs

end

lemma incomings_serveAll_le {rs : List Request} {c c' : Conn} (h : c.Between)
    (hrun : serve sha1 c rs = .ok c') :
    ∃ l, incomings c'.outputs = incomings c.outputs ++ l ∧ l.length ≤ rs.length := by
  induction rs generalizing c with
  | nil =>
    cases hrun
    exact ⟨[], by rw [append_nil], le_rfl⟩
  | cons r rs ih =>
    rw [serve] at hrun
    obtain ⟨c₁, hone, hrun⟩ := Library.exists_of_bind_ok hrun
    obtain ⟨l₁, hl₁, hlen₁⟩ := incomings_serve_le h hone
    split_ifs at hrun with hup
    · cases hrun
      refine ⟨l₁, hl₁, ?_⟩
      rw [length_cons]
      omega
    · obtain ⟨l, hl, hlen⟩ := ih (h.serve r hone) hrun
      refine ⟨l₁ ++ l, by rw [hl, hl₁, append_assoc], ?_⟩
      rw [length_append, length_cons]
      omega

def AllServed (sha1 : Bytes → Bytes) (rs : List Request) : Prop :=
  (∀ r ∈ rs, r.Served sha1) ∧ ∀ r ∈ rs.dropLast, r.upgrade = false

lemma allServed_cons {r : Request} {rs : List Request} : AllServed sha1 (r :: rs) ↔
      r.Served sha1 ∧ (r.upgrade = true → rs = []) ∧ AllServed sha1 rs := by
  rw [AllServed, AllServed, forall_mem_cons]
  cases rs with
  | nil => simp
  | cons r' rs =>
    simp only [dropLast_cons_cons, forall_mem_cons, reduceCtorEq, imp_false, Bool.not_eq_true]
    tauto

lemma allServed_nil : AllServed sha1 [] := ⟨by simp, by simp⟩

lemma serve_cons_of_served {c c₁ : Conn} {r : Request} {rs : List Request}
    (hok : play sha1 r.readPieces c = .ok c₁)
    (hin : incomings c₁.outputs = incomings c.outputs ++ [r.own])
    (ih : (∃ c', serve sha1 c₁ rs = .ok c' ∧
      incomings c'.outputs = incomings c₁.outputs ++ rs.map own) ↔ AllServed sha1 rs) :
    (∃ c', serve sha1 c (r :: rs) = .ok c' ∧
      incomings c'.outputs = incomings c.outputs ++ (r :: rs).map own) ↔
    (r.upgrade = true → rs = []) ∧ AllServed sha1 rs := by
  simp only [serve, hok, bind, Except.bind]
  by_cases hup : r.upgrade = true
  · rw [if_pos hup]
    constructor
    · rintro ⟨c', hc', hall⟩
      cases hc'
      rw [hin, map_cons] at hall
      have hnil := (List.cons.inj (append_cancel_left hall)).2
      obtain rfl := map_eq_nil_iff.mp hnil.symm
      exact ⟨fun _ => rfl, allServed_nil⟩
    · rintro ⟨hlast, -⟩
      rw [hlast hup]
      exact ⟨c₁, rfl, hin⟩
  · rw [if_neg hup, ← ih, hin]
    simp [hup]

lemma serve_cons_of_not_served {c c₁ : Conn} (h : c.Between) {r : Request} {rs : List Request}
    (hok : play sha1 r.readPieces c = .ok c₁)
    (hin : incomings c₁.outputs = incomings c.outputs ∨
      ∃ d, incomings c₁.outputs = incomings c.outputs ++ [d] ∧ d ≠ r.own) :
    ¬ ∃ c', serve sha1 c (r :: rs) = .ok c' ∧
      incomings c'.outputs = incomings c.outputs ++ (r :: rs).map own := by
  rintro ⟨c', hrun, hall⟩
  simp only [serve, hok, bind, Except.bind] at hrun
  obtain ⟨l, hl, hlen⟩ : ∃ l, incomings c'.outputs = incomings c₁.outputs ++ l ∧
      l.length ≤ rs.length := by
    split_ifs at hrun with hup
    · cases hrun
      exact ⟨[], by rw [append_nil], Nat.zero_le _⟩
    · exact incomings_serveAll_le (h.serve r hok) hrun
  rw [hl, map_cons] at hall
  rcases hin with hin | ⟨d, hin, hd⟩
  · rw [hin] at hall
    have hlen' := congrArg List.length (append_cancel_left hall)
    rw [length_cons, length_map] at hlen'
    omega
  · rw [hin, append_assoc] at hall
    exact hd (List.cons.inj (append_cancel_left hall)).1

theorem serve_iff (rs : List Request) {c : Conn} (h : c.ctx = {}) :
    (∃ c', serve sha1 c rs = .ok c' ∧
      incomings c'.outputs = incomings c.outputs ++ rs.map own) ↔ AllServed sha1 rs := by
  induction rs generalizing c with
  | nil => simp [serve, allServed_nil]
  | cons r rs ih =>
    have hbetween : c.Between := ⟨by rw [h], by rw [h]⟩
    rw [allServed_cons, served_iff]
    rcases @serve_new sha1 c h r with ⟨hcount, herror⟩ | ⟨hcount, c₁, hok, hyes, hno⟩
    · simp only [hcount, false_and, iff_false, serve, herror]
      rintro ⟨c', hc', -⟩
      cases hc'
    · by_cases hann : r.Announced
      · obtain ⟨hctx, hin⟩ := hyes hann
        by_cases hseen : r.seen sha1 = r.own
        · rw [hseen] at hin
          rw [serve_cons_of_served hok hin (ih hctx)]
          exact (and_iff_right ⟨hcount, hann, hseen⟩).symm
        · simp only [hseen, and_false, false_and, iff_false]
          exact serve_cons_of_not_served hbetween hok (.inr ⟨_, hin, hseen⟩)
      · simp only [hann, false_and, and_false, iff_false]
        exact serve_cons_of_not_served hbetween hok (.inl (hno hann))

/-! ### The reads of a connection -/

lemma exists_first_upgrade (rs : List Request) :
    (∀ r ∈ rs, r.upgrade = false) ∨ ∃ (rs₁ : List Request) (u : Request) (rs₂ : List Request),
      rs = rs₁ ++ u :: rs₂ ∧ (∀ r ∈ rs₁, r.upgrade = false) ∧ u.upgrade = true := by
  induction rs with
  | nil => exact .inl (by simp)
  | cons r rs ih =>
    cases hr : r.upgrade with
    | true => exact .inr ⟨[], r, rs, rfl, by simp, hr⟩
    | false =>
      rcases ih with hall | ⟨rs₁, u, rs₂, rfl, hall, hu⟩
      · exact .inl (forall_mem_cons.mpr ⟨hr, hall⟩)
      · exact .inr ⟨r :: rs₁, u, rs₂, rfl, forall_mem_cons.mpr ⟨hr, hall⟩, hu⟩

lemma serve_append {rs : List Request} (h : ∀ r ∈ rs, r.upgrade = false) (rs' : List Request)
    (c : Conn) : serve sha1 c (rs ++ rs') = (do
      let c' ← play sha1 (rs.flatMap readPieces) c
      serve sha1 c' rs') := by
  induction rs generalizing c with
  | nil => rfl
  | cons r rs ih =>
    have hr : ¬ r.upgrade = true := by simp [h r mem_cons_self]
    rw [cons_append, serve, flatMap_cons, play_append, bind_assoc]
    simp only [if_neg hr, ih fun r' hr' => h r' (mem_cons_of_mem _ hr')]

lemma map_receiveHttp {α : Type*} {f : Conn → α} (hf : ∀ ctx made os (reads : List Bytes),
      f ⟨ctx, made, os ++ reads.map .webSocketInput⟩ = f ⟨ctx, made, os⟩)
    {rs : List Request} (hkeep : ∀ r ∈ rs.dropLast, r.shouldKeepAlive = true)
    {reads : List Bytes} (hreads : reads.flatten = rs.flatMap wire) :
    (receiveHttp sha1 (State.initial rs) reads).map (fun st => f st.conn) =
      (serve sha1 {} rs).map f := by
  rcases exists_first_upgrade rs with hall | ⟨rs₁, u, rs₂, rfl, hall, hu⟩
  · obtain ⟨ps, n, hrun⟩ := @receiveHttp_requests sha1 rs hkeep hall reads hreads
    have hserve := @serve_append sha1 rs hall [] {}
    rw [append_nil] at hserve
    rw [hrun, hserve]
    cases play sha1 (rs.flatMap readPieces) {} with
    | error e | ok c => rfl
  · have hwire : u.wire = bytes u.readPieces ++ u.unread := by
      rw [← u.bytes_pieces, pieces, if_pos hu, bytes_append]
      simp [Piece.bytes]
    have hkeep' : ∀ r ∈ rs₁, r.shouldKeepAlive = true := by
      intro r hr
      refine hkeep r ?_
      rw [dropLast_append_of_ne_nil (cons_ne_nil _ _)]
      exact mem_append_left _ hr
    obtain ⟨before, d, after, extra, ps, n, -, -, -, -, hrun⟩ :=
      @receiveHttp_pause sha1 rs₁ hkeep' hall u hu rs₂ reads
        (u.unread ++ rs₂.flatMap wire) (by
          rw [hreads, flatMap_append, flatMap_cons, hwire]
          simp only [append_assoc])
    rw [hrun, serve_append hall]
    cases play sha1 (rs₁.flatMap readPieces) {} with
    | error e => rfl
    | ok c =>
      simp only [serve, hu, if_true, bind, Except.bind]
      cases play sha1 u.readPieces c with
      | error e => rfl
      | ok c' =>
        obtain ⟨n', hn'⟩ := @receiveHttp_paused sha1 c'.ctx c'.made c'.outputs ps n after
        have hsame : f ⟨c'.ctx, c'.made, c'.outputs ++
            if c'.ctx.isWebSocket then after.map .webSocketInput else []⟩ = f c' := by
          split
          · exact hf ..
          · rw [append_nil]
        exact (congrArg (Except.map fun st => f st.conn) hn').trans (congrArg Except.ok hsame)

lemma map_eq_ok {α β ε : Type*} {x : Except ε α} {f : α → β} {b : β} :
    x.map f = .ok b ↔ ∃ a, x = .ok a ∧ f a = b := by
  cases x with
  | error e | ok a => simp [Except.map]

/-- **Requests on a kept connection** make one event each, with their own data, if all are served.
-/
theorem requests_isolated_iff (sha1 : Bytes → Bytes) (rs : List Request)
    (hkeep : ∀ r ∈ rs, r.shouldKeepAlive = true) (reads : List Bytes)
    (hreads : reads.flatten = rs.flatMap Request.wire) :
    (∃ st, receiveHttp sha1 (State.initial rs) reads = .ok st ∧
      incomings st.conn.outputs = rs.map Request.own) ↔
    (∀ r ∈ rs, r.Served sha1) ∧ ∀ r ∈ rs.dropLast, r.upgrade = false := by
  have hobserved : ∀ ctx made os (reads : List Bytes),
      incomings (Conn.mk ctx made (os ++ reads.map .webSocketInput)).outputs = incomings os := by
    intro ctx made os reads
    rw [incomings_append, incomings_inputs, append_nil]
  have hsame := @map_receiveHttp sha1 _ (fun c => incomings c.outputs) hobserved rs
    (fun r hr => hkeep r (mem_of_mem_dropLast hr)) reads hreads
  rw [← map_eq_ok, hsame, map_eq_ok]
  exact serve_iff rs rfl

end

lemma Request.served_of_values {sha1 : Bytes → Bytes} {r : Request} (hup : r.upgrade = false)
    (hann : r.Announced) (hvalue : ∀ h ∈ r.fields.dropLast, h.2 ≠ [])
    (hchunks : r.chunkCount < 2 ^ 31) : r.Served sha1 where
  announced := hann
  headers := by
    have hname : ∀ h ∈ r.fields, h.1 ≠ [] := by
      intro h hh
      obtain ⟨h', -, rfl⟩ := mem_map.mp hh
      exact h'.name_ne_nil
    rw [storedHeaders, skipBody, hup, joined_eq_self hname hvalue]
    rfl
  body hskip := by simp [skipBody, hup] at hskip
  chunks _ := hchunks

/-- A `GET` with one header. -/
def getPage : Request := request .get "/a" [header "Host" "h" (by decide)] .empty

/-- A `POST` with a body. -/
def postForm : Request :=
  request .post "/b" [header "Content-Length" "2" (by decide)]
    (.identity (ascii "hi") (by decide))

theorem requests_isolated_twoRequests : ∃ st,
    receiveHttp (List.take 20) (State.initial [getPage, postForm]) [getPage.wire ++ postForm.wire] =
    .ok st ∧ incomings st.conn.outputs = [getPage.own, postForm.own] := by
  refine (requests_isolated_iff (List.take 20) [getPage, postForm] (by decide)
    [getPage.wire ++ postForm.wire] (by simp)).mpr ⟨?_, by decide⟩
  refine forall_mem_cons.mpr ⟨?_, forall_mem_cons.mpr ⟨?_, by simp⟩⟩
  · exact Request.served_of_values rfl (.inr (.inl rfl)) (by decide) (by decide)
  · exact Request.served_of_values rfl (.inr (.inr rfl)) (by decide) (by decide)

/-- **The URL of a `PUT` is in the event of the `GET` after it.** -/
theorem put_not_isolated : ∃ st, receiveHttp (List.take 20)
        (State.initial [request .put "/a" [] .empty, request .get "/b" [] .empty])
        [(request .put "/a" [] .empty).wire ++ (request .get "/b" [] .empty).wire] = .ok st ∧
      (incomings st.conn.outputs).map (fun d => (d.method, d.url)) =
        [(ascii "GET", ascii "/a/b")] := ⟨_, rfl, rfl⟩

end Megatron.Http
