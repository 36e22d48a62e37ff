import Megatron.Http.Requests

/-!
What one request does to a connection, and the events it makes
(`modules/http/httpService.cpp`).
-/

namespace Megatron.Http

open Library.Http Library.Spans List Request

section

variable {sha1 : Bytes → Bytes}

lemma play_append (ps qs : List Part) (c : Conn) :
    play sha1 (ps ++ qs) c = play sha1 ps c >>= play sha1 qs := by
  rw [play, reports_append, foldlM_append]
  rfl

/-- A field and its value. -/
def collect (ctx : HttpContext) (h : Header) : HttpContext :=
  onHeaderValue (onHeaderField ctx h.name) h.value

def Request.headRead (r : Request) (ctx : HttpContext) : HttpContext :=
  r.headers.foldl collect (onUrl ctx r.url)

lemma foldlM_headers (hs : List Header) (c : Conn) :
    play sha1 (hs.flatMap Header.pieces) c =
      .ok { c with ctx := hs.foldl collect c.ctx } := by
  induction hs generalizing c with
  | nil => rfl
  | cons h hs ih =>
    rw [flatMap_cons, play_append]
    exact ih _

lemma foldlM_headPieces (r : Request) (c : Conn) : play sha1 r.headPieces c =
      .ok { c with ctx := r.headRead c.ctx } := by
  show play sha1 (r.headers.flatMap Header.pieces ++ [.skip r.headEnd])
    { c with ctx := onUrl c.ctx r.url } = _
  rw [play_append, foldlM_headers]
  rfl

lemma collect_keeps (hs : List Header) (ctx : HttpContext) :
    ∃ field value headers, hs.foldl collect ctx =
      { ctx with currentField := field, currentValue := value, headers := headers } := by
  induction hs generalizing ctx with
  | nil => exact ⟨_, _, _, rfl⟩
  | cons h hs ih =>
    obtain ⟨field, value, headers, heq⟩ := ih (collect ctx h)
    refine ⟨field, value, headers, ?_⟩
    rw [foldl_cons, heq, collect, onHeaderValue, onHeaderField]
    split <;> rfl

lemma headRead_keeps (r : Request) (ctx : HttpContext) : ∃ field value headers, r.headRead ctx =
      { ctx with
        url := ctx.url ++ r.url
        currentField := field
        currentValue := value
        headers := headers } := collect_keeps r.headers (onUrl ctx r.url)

/-- The connection after `on_headers_complete`. -/
def Request.atHeaders (sha1 : Bytes → Bytes) (r : Request) (c : Conn) : Conn :=
  (onHeadersComplete sha1 { c with ctx := r.headRead c.ctx } r.parsed).1

lemma foldlM_readPieces (r : Request) (c : Conn) : play sha1 r.readPieces c =
      play sha1 r.bodyPieces (r.atHeaders sha1 c) := by
  rw [readPieces, play_append, foldlM_headPieces]
  rfl

/-! ### Chunks -/

def afterChunk (c : Conn) (data : Bytes) : Conn :=
  { c with
    ctx := { c.ctx with chunkId := c.ctx.chunkId + 1, body := none, chunkSize := 0 }
    outputs := c.outputs ++ [.requestChunkReceived c.made c.ctx.chunkId data] }

@[simp] lemma afterChunk_chunkId (c : Conn) (data : Bytes) :
    (afterChunk c data).ctx.chunkId = c.ctx.chunkId + 1 := rfl

@[simp] lemma afterChunk_made (c : Conn) (data : Bytes) : (afterChunk c data).made = c.made := rfl

@[simp] lemma afterChunk_outputs (c : Conn) (data : Bytes) : (afterChunk c data).outputs =
      c.outputs ++ [Output.requestChunkReceived c.made c.ctx.chunkId data] := rfl

lemma foldlM_chunk (c : Conn) (chunk : Chunk) : play sha1 chunk.pieces c =
      if 2 ^ 31 ≤ c.ctx.chunkId + 1 then .error .overflow else .ok (afterChunk c chunk.data) := by
  simp only [play, Chunk.pieces, reports_skip, reports_call, reports_span, reports_nil,
    foldlM_cons, foldlM_nil, perform, onChunkHeader, onBody, onChunkComplete, bind,
    Except.bind, Option.getD_none, nil_append, ne_eq, not_true_eq_false, if_false]
  split_ifs <;> rfl

def chunkEvents (context i : ℕ) (chunks : List Chunk) : List Output :=
  chunks.mapIdx fun j chunk => .requestChunkReceived context (i + j) chunk.data

lemma chunkEvents_cons (context i : ℕ) (chunk : Chunk) (chunks : List Chunk) :
    chunkEvents context i (chunk :: chunks) =
      .requestChunkReceived context i chunk.data :: chunkEvents context (i + 1) chunks := by
  rw [chunkEvents, mapIdx_cons, chunkEvents]
  simp only [Nat.add_zero, Nat.add_comm, Nat.add_left_comm]

lemma foldlM_chunks (chunks : List Chunk) (c : Conn) {i : ℕ} (hi : c.ctx.chunkId = i)
    (h : i + chunks.length < 2 ^ 31) :
    ∃ ctx, play sha1 (chunks.flatMap Chunk.pieces) c =
        .ok ⟨ctx, c.made, c.outputs ++ chunkEvents c.made i chunks⟩ ∧
      ctx.isChunked = c.ctx.isChunked ∧ ctx.chunkId = i + chunks.length := by
  induction chunks generalizing c i with
  | nil => exact ⟨c.ctx, by simp [chunkEvents]; rfl, rfl, hi⟩
  | cons chunk chunks ih =>
    rw [length_cons] at h
    have hi' : (afterChunk c chunk.data).ctx.chunkId = i + 1 := by
      rw [afterChunk_chunkId, hi]
    obtain ⟨ctx, hrun, hchunked, hid⟩ := ih _ hi' (by omega)
    rw [flatMap_cons, play_append, foldlM_chunk, if_neg (by omega)]
    refine ⟨ctx, hrun.trans ?_, hchunked, ?_⟩
    · rw [chunkEvents_cons, afterChunk_outputs, afterChunk_made, hi, append_assoc, singleton_append]
    · rw [hid, length_cons]
      omega

lemma foldlM_chunks_overflow (chunks : List Chunk) (c : Conn) {i : ℕ} (hi : c.ctx.chunkId = i)
    (hroom : i < 2 ^ 31) (h : 2 ^ 31 ≤ i + chunks.length) :
    play sha1 (chunks.flatMap Chunk.pieces) c = .error .overflow := by
  induction chunks generalizing c i with
  | nil =>
    rw [length_nil] at h
    omega
  | cons chunk chunks ih =>
    rw [flatMap_cons, play_append, foldlM_chunk, hi]
    split_ifs with hlast
    · rfl
    · rw [length_cons] at h
      have hi' : (afterChunk c chunk.data).ctx.chunkId = i + 1 := by
        rw [afterChunk_chunkId, hi]
      exact ih _ hi' (by omega) (by omega)

lemma foldlM_lastChunk {c : Conn}
    (h : c.ctx.isChunked = true) (lastLine : Bytes) (trailers : List Header) (ending : Bytes) :
    play sha1 (lastChunkPieces lastLine trailers ending) c =
    .ok ⟨{}, c.made + 1, c.outputs ++ [Output.requestChunkingCompleted c.made c.ctx.chunkId]⟩ := by
  show play sha1 (trailers.flatMap Header.pieces ++
    [.skip ending, .call .chunkComplete, .call .messageComplete])
    { c with ctx := onChunkHeader c.ctx 0 } = _
  obtain ⟨field, value, headers, heq⟩ := collect_keeps trailers (onChunkHeader c.ctx 0)
  rw [play_append, foldlM_headers, heq]
  simp [play, perform, onChunkComplete, onChunkHeader, onMessageComplete, bind, Except.bind, pure,
    Except.pure, h]

/-! ### A request -/

namespace Request

def chunkedContext (r : Request) (ctx : HttpContext) : HttpContext :=
  { headersRead (r.headRead ctx) r.parsed with isChunked := true }

lemma isChunked_eq_true {r : Request} (h : r.isChunked = true) :
    ∃ chunks lastLine trailers ending hne,
      r.body = .chunked chunks lastLine trailers ending hne := by
  rw [isChunked] at h
  cases hbody : r.body with
  | empty | identity content hne =>
    rw [hbody] at h
    cases h
  | chunked chunks lastLine trailers ending hne => exact ⟨_, _, _, _, hne, rfl⟩

lemma atHeaders_chunked {r : Request} (h : r.isChunked = true) (c : Conn) : r.atHeaders sha1 c =
      ⟨r.chunkedContext c.ctx, c.made,
        c.outputs ++ [Output.requestIncoming c.made (r.chunkedContext c.ctx)]⟩ := by
  rw [atHeaders, onHeadersComplete, if_pos (by exact h)]
  rfl

lemma chunkedContext_chunkId (r : Request) (ctx : HttpContext) :
    (r.chunkedContext ctx).chunkId = ctx.chunkId := by
  obtain ⟨field, value, headers, heq⟩ := headRead_keeps r ctx
  rw [chunkedContext, headersRead, heq]

lemma serve_chunked {r : Request} {chunks : List Chunk} {lastLine : Bytes}
    {trailers : List Header} {ending : Bytes} {hne : ending ≠ []}
    (hbody : r.body = .chunked chunks lastLine trailers ending hne)
    (hearly : r.pausesEarly = false) (c : Conn) (hid : c.ctx.chunkId = 0) :
    play sha1 r.readPieces c =
      if chunks.length < 2 ^ 31 then
        .ok ⟨{}, c.made + 1, c.outputs ++ Output.requestIncoming c.made (r.chunkedContext c.ctx) ::
          (chunkEvents c.made 0 chunks ++ [Output.requestChunkingCompleted c.made chunks.length])⟩
      else .error .overflow := by
  have hchunked : r.isChunked = true := by rw [isChunked, hbody]
  have hid' : (r.chunkedContext c.ctx).chunkId = 0 := (r.chunkedContext_chunkId _).trans hid
  rw [foldlM_readPieces, bodyPieces_eq, hearly, hbody, atHeaders_chunked hchunked]
  simp only [Bool.false_eq_true, if_false, Body.pieces]
  rw [play_append]
  split_ifs with hlength
  · obtain ⟨ctx, hrun, hctx, hlast⟩ := @foldlM_chunks sha1 chunks
      ⟨r.chunkedContext c.ctx, c.made,
        c.outputs ++ [.requestIncoming c.made (r.chunkedContext c.ctx)]⟩ 0 hid' (by omega)
    rw [hrun]
    refine (foldlM_lastChunk hctx lastLine trailers ending).trans ?_
    simp only [hlast, Nat.zero_add, append_assoc]
    rfl
  · rw [@foldlM_chunks_overflow sha1 chunks _ 0 hid' (by omega) (by omega)]
    rfl

lemma serve_chunked_early {r : Request} (hchunked : r.isChunked = true)
    (hearly : r.pausesEarly = true) (c : Conn) : play sha1 r.readPieces c =
      .ok ⟨{}, c.made + 1, c.outputs ++ [Output.requestIncoming c.made (r.chunkedContext c.ctx),
        Output.requestChunkingCompleted c.made c.ctx.chunkId]⟩ := by
  rw [foldlM_readPieces, bodyPieces_eq, if_pos hearly, atHeaders_chunked hchunked,
    ← chunkedContext_chunkId r c.ctx]
  simp [play, perform, onMessageComplete, chunkedContext, bind, Except.bind, pure, Except.pure]

def bodyRead (r : Request) (body : Option Bytes) : Option Bytes :=
  if r.pausesEarly then body
  else match r.body with
    | .identity content _ => some (body.getD [] ++ content)
    | .empty | .chunked .. => body

def plainHeaders (sha1 : Bytes → Bytes) (r : Request) (headers : HeaderMap) : HeaderMap :=
  if r.upgrade then (upgradeHeaders sha1 headers).1 else headers

def plainContext (sha1 : Bytes → Bytes) (r : Request) (ctx : HttpContext) (isWebSocket : Bool) :
    HttpContext :=
  { headersRead (r.headRead ctx) r.parsed with
    headers := r.plainHeaders sha1 (headersRead (r.headRead ctx) r.parsed).headers
    body := r.bodyRead (headersRead (r.headRead ctx) r.parsed).body
    isWebSocket }

/-- What `on_headers_complete` writes. -/
def answer (sha1 : Bytes → Bytes) (r : Request) (headers : HeaderMap) : Option Bytes :=
  if r.upgrade then (upgradeHeaders sha1 headers).2 else none

lemma serve_plain_eq {r : Request} (hchunked : r.isChunked = false) (c : Conn)
    {written : Option Bytes}
    (h : r.answer sha1 (headersRead (r.headRead c.ctx) r.parsed).headers = written) :
    play sha1 r.readPieces c =
      .ok (onMessageComplete ⟨r.plainContext sha1 c.ctx (written.isSome || c.ctx.isWebSocket),
        c.made, c.outputs ++ written.toList.map .write⟩) := by
  have hbody (c : Conn) : play sha1 r.bodyPieces c =
      .ok (onMessageComplete { c with ctx := { c.ctx with body := r.bodyRead c.ctx.body } }) := by
    rw [bodyPieces_eq, bodyRead]
    by_cases hearly : r.pausesEarly = true
    · rw [if_pos hearly, if_pos hearly]
      rfl
    · rw [if_neg hearly, if_neg hearly]
      cases hb : r.body with
      | empty | identity content hne => rfl
      | chunked chunks lastLine trailers ending hne =>
        rw [isChunked, hb] at hchunked
        cases hchunked
  have hflag : (headersRead (r.headRead c.ctx) r.parsed).isWebSocket = c.ctx.isWebSocket := by
    obtain ⟨field, value, headers, heq⟩ := headRead_keeps r c.ctx
    rw [headersRead, heq]
  rw [answer] at h
  rw [foldlM_readPieces, hbody, atHeaders, onHeadersComplete, if_neg (by simp [parsed, hchunked])]
  simp only [plainContext, plainHeaders]
  by_cases hup : r.upgrade = true
  · rw [if_pos hup] at h
    rw [if_pos (show r.parsed.upgrade = true from hup)]
    split
    · next headers written heq =>
        rw [heq] at h
        rw [← h]
        simp [hup, heq]
    · next headers heq =>
        rw [heq] at h
        rw [← h]
        simp [hup, heq, hflag]
  · rw [if_neg hup] at h
    rw [if_neg (show ¬ r.parsed.upgrade = true from hup), ← h]
    simp [hup, hflag]

lemma serve_plain {r : Request} (hchunked : r.isChunked = false) (c : Conn) : ∃ isWebSocket writes,
      play sha1 r.readPieces c =
        .ok (onMessageComplete ⟨r.plainContext sha1 c.ctx isWebSocket, c.made,
          c.outputs ++ writes⟩) ∧ (writes = [] ∧ isWebSocket = c.ctx.isWebSocket ∨
        ∃ b, writes = [.write b] ∧ isWebSocket = true) := by
  cases h : r.answer sha1 (headersRead (r.headRead c.ctx) r.parsed).headers with
  | none => exact ⟨_, _, serve_plain_eq hchunked c h, .inl ⟨rfl, rfl⟩⟩
  | some b => exact ⟨_, _, serve_plain_eq hchunked c h, .inr ⟨b, rfl, rfl⟩⟩

lemma plainContext_keeps (r : Request) (ctx : HttpContext) (isWebSocket : Bool) :
    (r.plainContext sha1 ctx isWebSocket).isChunked = ctx.isChunked ∧
      (r.plainContext sha1 ctx isWebSocket).chunkId = ctx.chunkId ∧
      (r.plainContext sha1 ctx isWebSocket).methodInt = r.method := by
  obtain ⟨field, value, headers, heq⟩ := headRead_keeps r ctx
  rw [plainContext, headersRead, heq]
  exact ⟨rfl, rfl, rfl⟩

end Request

/-! ### Between two requests -/

structure Conn.Between (c : Conn) : Prop where
  isChunked : c.ctx.isChunked = false
  chunkId : c.ctx.chunkId = 0

lemma Conn.Between.serve {c c' : Conn} (h : c.Between) (r : Request)
    (hrun : play sha1 r.readPieces c = .ok c') : c'.Between := by
  cases hchunked : r.isChunked with
  | true =>
    cases hearly : r.pausesEarly with
    | true =>
      rw [serve_chunked_early hchunked hearly] at hrun
      cases hrun
      exact ⟨rfl, rfl⟩
    | false =>
      obtain ⟨chunks, lastLine, trailers, ending, hne, hbody⟩ := r.isChunked_eq_true hchunked
      rw [serve_chunked hbody hearly c h.chunkId] at hrun
      split_ifs at hrun
      cases hrun
      exact ⟨rfl, rfl⟩
  | false =>
    obtain ⟨isWebSocket, writes, hserve, -⟩ := @serve_plain sha1 r hchunked c
    obtain ⟨hflag, hid, -⟩ := @plainContext_keeps sha1 r c.ctx isWebSocket
    rw [hserve] at hrun
    cases hrun
    rw [onMessageComplete]
    split_ifs
    · exact ⟨rfl, rfl⟩
    · exact ⟨rfl, rfl⟩
    · exact ⟨hflag.trans h.isChunked, hid.trans h.chunkId⟩

lemma Conn.Between.serveAll {c c' : Conn} (h : c.Between) (rs : List Request)
    (hrun : play sha1 (rs.flatMap readPieces) c = .ok c') :
    c'.Between := by
  induction rs generalizing c with
  | nil =>
    cases hrun
    exact h
  | cons r rs ih =>
    rw [flatMap_cons, play_append] at hrun
    obtain ⟨c₁, hone, hrun⟩ := Library.exists_of_bind_ok hrun
    exact ih (h.serve r hone) hrun

/-! ### Requests without an upgrade -/

namespace Request

lemma quiet_of_mem_readPieces {r : Request} (h : r.isChunked = true ∨ r.upgrade = false)
    {call : Call} (hmem : .call call ∈ r.readPieces) : call.Quiet := by
  cases call with
  | headersComplete p =>
    have hp : p = r.parsed := by
      rw [readPieces, mem_append, mem_cons, bodyPieces_eq] at hmem
      rcases hmem with hmem | hmem | hmem
      · exact absurd hmem (r.call_notMem_head _)
      · cases hmem
        rfl
      · exfalso
        split at hmem
        · simp at hmem
        · revert hmem
          cases r.body <;> simp [Body.pieces, lastChunkPieces, Chunk.pieces, Header.pieces]
    rw [hp]
    exact h
  | chunkHeader n | chunkComplete | messageComplete => trivial

lemma bytes_readPieces_ne_nil (r : Request) : bytes r.readPieces ≠ [] := by
  rw [readPieces, bytes_append]
  exact append_ne_nil_of_left_ne_nil r.bytes_head_ne_nil _

lemma pieces_of_not_upgrade {r : Request} (h : r.upgrade = false) : r.pieces = r.readPieces := by
  simp [pieces, h]

lemma pausesEarly_of_not_upgrade {r : Request} (h : r.upgrade = false) : r.pausesEarly = false := by
  simp [pausesEarly, h]

lemma bytes_readPieces {r : Request} (h : r.pausesEarly = false) : bytes r.readPieces = r.wire := by
  rw [readPieces, bytes_append, bytes_cons, bodyPieces_eq, h]
  rfl

lemma pause_notMem_flatMap (rs : List Request) : .pause ∉ rs.flatMap readPieces := by
  simp [pause_notMem]

lemma delimited_flatMap (rs : List Request) : Delimited SpanKind.ahead (rs.flatMap readPieces) := by
  induction rs with
  | nil => trivial
  | cons r rs ih => exact r.delimited.append ih

section

variable {rs : List Request} (h : ∀ r ∈ rs, r.upgrade = false)
include h

lemma quiet_flatMap {call : Call} (hmem : .call call ∈ rs.flatMap readPieces) : call.Quiet := by
  obtain ⟨r, hr, hcall⟩ := mem_flatMap.mp hmem
  exact quiet_of_mem_readPieces (.inr (h r hr)) hcall

lemma bytes_flatMap_readPieces : bytes (rs.flatMap readPieces) = rs.flatMap wire := by
  rw [bytes_flatMap]
  exact flatMap_congr fun r hr => bytes_readPieces (pausesEarly_of_not_upgrade (h r hr))

lemma flatMap_pieces : rs.flatMap pieces = rs.flatMap readPieces :=
  flatMap_congr fun r hr => pieces_of_not_upgrade (h r hr)

end

end Request

lemma receiveHttp_rest {ps : List Part} {reads : List Bytes}
    (h : ps = [] ∧ reads.flatten = [] ∨ ∃ ps', ps = .pause :: ps') (n : ℕ) : ∃ n', ∀ conn : Conn,
    conn.ctx.isWebSocket = false → receiveHttp sha1 ⟨conn, ps, n⟩ reads = .ok ⟨conn, ps, n'⟩ := by
  have hexecute (d : Bytes) : execute SpanKind.ahead ps d = ([], ps) := by
    rcases h with ⟨rfl, -⟩ | ⟨ps', rfl⟩ <;> rfl
  induction reads generalizing n with
  | nil => exact ⟨n, fun conn _ => rfl⟩
  | cons d reads ih =>
    have h' : ps = [] ∧ reads.flatten = [] ∨ ∃ ps', ps = .pause :: ps' := by
      refine h.imp_left fun hnil => ⟨hnil.1, ?_⟩
      exact (append_eq_nil_iff.mp (flatten_cons ▸ hnil.2)).2
    obtain ⟨n', hn'⟩ := ih h' (n + (isPaused ps).toNat)
    refine ⟨n', fun conn hconn => ?_⟩
    rw [receiveHttp, foldlM_cons, onStreamReadHttp, if_neg (by simp [hconn]), parse]
    simp only [hexecute]
    exact hn' conn hconn

lemma receiveHttp_quiet {qs ps : List Part} (hpause : .pause ∉ qs)
    (hd : Delimited SpanKind.ahead qs) (hquiet : ∀ c, .call c ∈ qs → c.Quiet) (hne : bytes qs ≠ [])
    {reads : List Bytes} {tail : Bytes} (hreads : reads.flatten = bytes qs ++ tail)
    (h : ps = [] ∧ tail = [] ∨ ∃ ps', ps = .pause :: ps') (n : ℕ) :
    ∃ n', ∀ conn : Conn, conn.Plain → receiveHttp sha1 ⟨conn, qs ++ ps, n⟩ reads =
    play sha1 qs conn >>= fun conn' => pure ⟨conn', ps, n'⟩ := by
  obtain ⟨before, d, after, extra, -, -, -, htail, hrun⟩ :=
    @receiveHttp_until sha1 qs hpause hd hquiet hne reads tail hreads ps n
  have hexecute : execute SpanKind.ahead ps extra = ([], ps) := by
    rcases h with ⟨rfl, -⟩ | ⟨ps', rfl⟩ <;> rfl
  have hafter : ps = [] ∧ after.flatten = [] ∨ ∃ ps', ps = .pause :: ps' :=
    h.imp_left fun hnil => ⟨hnil.1, (append_eq_nil_iff.mp (htail.trans hnil.2)).2⟩
  obtain ⟨n', hn'⟩ := @receiveHttp_rest sha1 ps after hafter (n + (isPaused ps).toNat)
  refine ⟨n', fun conn hconn => ?_⟩
  rw [hrun conn hconn]
  cases hfold : play sha1 qs conn with
  | error e => rfl
  | ok conn' =>
    have hplain : conn'.Plain := hconn.foldlM (fun c hc => hquiet c (call_mem_reports.mp hc)) hfold
    simp only [parse, hexecute]
    exact hn' conn' hplain.isWebSocket

lemma Conn.plain_initial : Conn.Plain {} := ⟨rfl, by simp, by simp⟩

lemma receiveHttp_concat {rs : List Request} (hkeep : ∀ r ∈ rs, r.shouldKeepAlive = true)
    (hup : ∀ r ∈ rs, r.upgrade = false) {r : Request}
    (hr : r.isChunked = true ∨ r.upgrade = false) (hearly : r.pausesEarly = false)
    {reads : List Bytes} (hreads : reads.flatten = (rs ++ [r]).flatMap wire) :
    ∃ ps n, receiveHttp sha1 (State.initial (rs ++ [r])) reads = (do
      let conn ← play sha1 (rs.flatMap readPieces) {}
      let conn' ← play sha1 r.readPieces conn
      pure ⟨conn', ps, n⟩) := by
  have hparser : stream (rs ++ [r]) = (rs.flatMap readPieces ++ r.readPieces) ++
      if r.upgrade then [.pause, .skip r.unread] else [] := by
    rw [stream_append hkeep, stream_singleton, flatMap_pieces hup, pieces, append_assoc]
  have hbytes : bytes (rs.flatMap readPieces ++ r.readPieces) =
      (rs ++ [r]).flatMap wire := by
    rw [bytes_append, bytes_flatMap_readPieces hup, bytes_readPieces hearly,
      flatMap_append, flatMap_singleton]
  have hpause : .pause ∉ rs.flatMap readPieces ++ r.readPieces := fun hmem =>
    (mem_append.mp hmem).elim (pause_notMem_flatMap rs) r.pause_notMem
  have hquiet (c : Call) (hc : .call c ∈ rs.flatMap readPieces ++ r.readPieces) :
      c.Quiet :=
    (mem_append.mp hc).elim (quiet_flatMap hup) (quiet_of_mem_readPieces hr)
  have hne : bytes (rs.flatMap readPieces ++ r.readPieces) ≠ [] := by
    rw [bytes_append]
    exact append_ne_nil_of_right_ne_nil _ r.bytes_readPieces_ne_nil
  obtain ⟨n, hn⟩ := @receiveHttp_quiet sha1 _ (if r.upgrade then [.pause, .skip r.unread] else [])
    hpause ((delimited_flatMap rs).append r.delimited) hquiet hne reads []
    (by rw [hreads, hbytes, append_nil]) (by split <;> simp) 0
  refine ⟨if r.upgrade then [.pause, .skip r.unread] else [], n, ?_⟩
  rw [State.initial, hparser, hn {} Conn.plain_initial, play_append, bind_assoc]

lemma receiveHttp_requests {rs : List Request} (hkeep : ∀ r ∈ rs.dropLast, r.shouldKeepAlive = true)
    (hup : ∀ r ∈ rs, r.upgrade = false) {reads : List Bytes}
    (hreads : reads.flatten = rs.flatMap wire) :
    ∃ ps n, receiveHttp sha1 (State.initial rs) reads = (do
      let conn ← play sha1 (rs.flatMap readPieces) {}
      pure ⟨conn, ps, n⟩) := by
  cases rs using List.reverseRecOn with
  | nil =>
    obtain ⟨n, hn⟩ := @receiveHttp_rest sha1 [] reads (.inl ⟨rfl, hreads⟩) 0
    exact ⟨[], n, hn {} rfl⟩
  | append_singleton rs r _ =>
    have hr : r.upgrade = false := hup r (by simp)
    rw [dropLast_concat] at hkeep
    obtain ⟨ps, n, hn⟩ := @receiveHttp_concat sha1 rs hkeep
      (fun r hr => hup r (by simp [hr])) r (.inr hr) (pausesEarly_of_not_upgrade hr)
      reads hreads
    refine ⟨ps, n, ?_⟩
    rw [hn, flatMap_append, flatMap_singleton, play_append, bind_assoc]

/-- **Chunked uploads** make one event for each chunk, if there are less than `2 ^ 31`. -/
theorem chunked_upload (sha1 : Bytes → Bytes) (rs : List Request)
    (hkeep : ∀ r ∈ rs, r.shouldKeepAlive = true) (hup : ∀ r ∈ rs, r.upgrade = false)
    (r : Request) (chunks : List Chunk) (lastLine : Bytes) (trailers : List Header)
    (ending : Bytes) (hne : ending ≠ [])
    (hbody : r.body = .chunked chunks lastLine trailers ending hne)
    (hmethod : r.method ≠ .connect) (hlength : chunks.length < 2 ^ 31)
    (before reads : List Bytes) (hbefore : before.flatten = rs.flatMap Request.wire)
    (hreads : reads.flatten = rs.flatMap Request.wire ++ r.wire) (st₀ : State)
    (hst₀ : receiveHttp sha1 (State.initial rs) before = .ok st₀) :
    ∃ st ctx, receiveHttp sha1 (State.initial (rs ++ [r])) reads = .ok st ∧
      st.conn.outputs = st₀.conn.outputs ++ .requestIncoming st₀.conn.made ctx ::
        (chunks.mapIdx (fun i chunk => .requestChunkReceived st₀.conn.made i chunk.data) ++
          [.requestChunkingCompleted st₀.conn.made chunks.length]) ∧ st.conn.ctx = {} := by
  have hchunked : r.isChunked = true := by rw [Request.isChunked, hbody]
  have hearly : r.pausesEarly = false := by simp [Request.pausesEarly, hchunked, hmethod]
  have hreads' : reads.flatten = (rs ++ [r]).flatMap Request.wire := by
    rw [hreads, flatMap_append, flatMap_singleton]
  obtain ⟨ps₀, n₀, hrun₀⟩ := @receiveHttp_requests sha1 rs
    (fun r hr => hkeep r (mem_of_mem_dropLast hr)) hup before hbefore
  obtain ⟨ps, n, hrun⟩ :=
    @receiveHttp_concat sha1 rs hkeep hup r (.inl hchunked) hearly reads hreads'
  rw [hrun₀] at hst₀
  obtain ⟨conn, hconn, hst₀⟩ := Library.exists_of_bind_ok hst₀
  cases hst₀
  have hbetween : conn.Between := Conn.Between.serveAll ⟨rfl, rfl⟩ rs hconn
  have hserve := @Request.serve_chunked sha1 _ _ _ _ _ _ hbody hearly conn hbetween.chunkId
  rw [if_pos hlength] at hserve
  have hlast {conn' : Conn}
      (h : play sha1 r.readPieces conn = .ok conn') :
      receiveHttp sha1 (State.initial (rs ++ [r])) reads = .ok ⟨conn', ps, n⟩ := by
    simp only [hrun, hconn, bind, Except.bind, h]
    rfl
  refine ⟨_, r.chunkedContext conn.ctx, hlast hserve, ?_, rfl⟩
  simp only [chunkEvents, Nat.zero_add]

end

def header (name value : String) (h : ascii name ≠ []) : Header :=
  ⟨ascii name, ascii ": ", ascii value, crlf, h⟩

def request (method : Method) (url : String) (headers : List Header) (body : Body) : Request where
  method := method
  start := method.name ++ ascii " "
  url := ascii url
  version := ascii " HTTP/1.1\r\n"
  headers := headers
  headEnd := crlf
  headEnd_ne_nil := by decide
  http11 := true
  connectionKeepAlive := false
  connectionClose := false
  connectionUpgrade := false
  upgradeField := false
  body := body

def oneByte : Chunk := ⟨ascii "1\r\n", ascii "x", crlf, by decide⟩

def upload (chunks : List Chunk) : Request :=
  request .put "/u" [header "Transfer-Encoding" "chunked" (by decide)]
    (.chunked chunks (ascii "0\r\n") [] crlf (by decide))

/-- After a `GET`, two chunks that come byte by byte. -/
theorem chunked_upload_twoChunks : ∃ st₀ st ctx,
      receiveHttp (List.take 20) (State.initial [request .get "/" [] .empty])
          [(request .get "/" [] .empty).wire] = .ok st₀ ∧ receiveHttp (List.take 20)
          (State.initial [request .get "/" [] .empty, upload [oneByte, oneByte]])
          (((request .get "/" [] .empty).wire ++ (upload [oneByte, oneByte]).wire).map ([·])) =
        .ok st ∧ st.conn.outputs = st₀.conn.outputs ++ [.requestIncoming st₀.conn.made ctx,
        .requestChunkReceived st₀.conn.made 0 (ascii "x"),
        .requestChunkReceived st₀.conn.made 1 (ascii "x"),
        .requestChunkingCompleted st₀.conn.made 2] ∧ st.conn.ctx = {} := by
  obtain ⟨st₀, hst₀⟩ : ∃ st₀, receiveHttp (List.take 20)
      (State.initial [request .get "/" [] .empty]) [(request .get "/" [] .empty).wire] = .ok st₀ :=
    ⟨_, rfl⟩
  have hreads : (((request .get "/" [] .empty).wire ++
      (upload [oneByte, oneByte]).wire).map ([·])).flatten =
        [request .get "/" [] .empty].flatMap Request.wire ++ (upload [oneByte, oneByte]).wire := by
    rw [← flatMap_def, flatMap_singleton', flatMap_singleton]
  obtain ⟨st, ctx, h⟩ := chunked_upload (List.take 20) [request .get "/" [] .empty] (by decide)
    (by decide) (upload [oneByte, oneByte]) [oneByte, oneByte] (ascii "0\r\n") [] crlf (by decide)
    rfl (by decide) (by decide) [(request .get "/" [] .empty).wire] _ (by simp) hreads st₀ hst₀
  exact ⟨st₀, st, ctx, hst₀, h⟩

private lemma upload_overflows {chunks : List Chunk} (h : ¬ chunks.length < 2 ^ 31) :
    receiveHttp (List.take 20) (State.initial [upload chunks]) [(upload chunks).wire] =
      .error .overflow := by
  obtain ⟨ps, n, hrun⟩ := @receiveHttp_concat (List.take 20) [] (by simp) (by simp)
    (upload chunks) (.inl rfl) rfl [(upload chunks).wire] (by simp)
  have hserve := @serve_chunked (List.take 20) (upload chunks) chunks _ _ _ _ rfl rfl {} rfl
  rw [if_neg h] at hserve
  refine hrun.trans ?_
  show play (List.take 20) (upload chunks).readPieces {} >>= _ = _
  rw [hserve]
  rfl

/-- With `2 ^ 31` chunks `chunkId` overflows. -/
theorem huge_upload_overflows :
    receiveHttp (List.take 20) (State.initial [upload (List.replicate (2 ^ 31) oneByte)])
      [(upload (List.replicate (2 ^ 31) oneByte)).wire] = .error .overflow :=
  upload_overflows (Nat.not_lt.mpr (Nat.le_of_eq length_replicate.symm))

end Megatron.Http
