import Megatron.Http.Handshake
import Megatron.Library.Reads
import Megatron.Library.Spans

/-!
Requests that come in on an HTTP connection (`modules/http/httpService.cpp`,
`corelib/httpConnection.h`, `corelib/llhttp/http.c`).
-/

namespace Megatron.Http

open Library.Http Library.Spans List

/-- `llhttp_method_t`, the methods of HTTP. -/
inductive Method where
  | delete | get | head | post | put | connect | options | trace | copy | lock | mkcol | move
  | propfind | proppatch | search | unlock | bind | rebind | unbind | acl | report | mkactivity
  | checkout | merge | msearch | notify | subscribe | unsubscribe | patch | purge | mkcalendar
  | link | unlink | source
  deriving DecidableEq, Repr

/-- `llhttp_method_name`. -/
def Method.name : Method → Bytes
  | .delete => ascii "DELETE"
  | .get => ascii "GET"
  | .head => ascii "HEAD"
  | .post => ascii "POST"
  | .put => ascii "PUT"
  | .connect => ascii "CONNECT"
  | .options => ascii "OPTIONS"
  | .trace => ascii "TRACE"
  | .copy => ascii "COPY"
  | .lock => ascii "LOCK"
  | .mkcol => ascii "MKCOL"
  | .move => ascii "MOVE"
  | .propfind => ascii "PROPFIND"
  | .proppatch => ascii "PROPPATCH"
  | .search => ascii "SEARCH"
  | .unlock => ascii "UNLOCK"
  | .bind => ascii "BIND"
  | .rebind => ascii "REBIND"
  | .unbind => ascii "UNBIND"
  | .acl => ascii "ACL"
  | .report => ascii "REPORT"
  | .mkactivity => ascii "MKACTIVITY"
  | .checkout => ascii "CHECKOUT"
  | .merge => ascii "MERGE"
  | .msearch => ascii "M-SEARCH"
  | .notify => ascii "NOTIFY"
  | .subscribe => ascii "SUBSCRIBE"
  | .unsubscribe => ascii "UNSUBSCRIBE"
  | .patch => ascii "PATCH"
  | .purge => ascii "PURGE"
  | .mkcalendar => ascii "MKCALENDAR"
  | .link => ascii "LINK"
  | .unlink => ascii "UNLINK"
  | .source => ascii "SOURCE"

/-- A `std::map` from header names to values. -/
abbrev HeaderMap := Bytes → Option Bytes

/-- `map[name] = value`. -/
def HeaderMap.assign (m : HeaderMap) (name value : Bytes) : HeaderMap :=
  Function.update m name (some value)

/-- `map[name]` makes an entry that is missing. -/
def HeaderMap.entry (m : HeaderMap) (name : Bytes) : Bytes × HeaderMap :=
  match m name with
  | some value => (value, m)
  | none => ([], m.assign name [])

structure HttpContext where
  method : Bytes := []
  methodInt : Method := .get
  url : Bytes := []
  currentField : Bytes := []
  currentValue : Bytes := []
  headers : HeaderMap := fun _ => none
  keepalive : Bool := true
  upgrade : Bool := false
  body : Option Bytes := none
  chunkSize : ℕ := 0
  isChunked : Bool := false
  chunkId : ℕ := 0
  isWebSocket : Bool := false

inductive Output where
  | requestIncoming (context : ℕ) (ctx : HttpContext)
  | requestChunkReceived (context : ℕ) (id : ℕ) (buf : Bytes)
  | requestChunkingCompleted (context : ℕ) (total : ℕ)
  | write (b : Bytes)
  | webSocketInput (b : Bytes)

/-- The part of `HTTP::Request` that the callbacks use. -/
structure Conn where
  ctx : HttpContext := {}
  /-- The number of contexts before this one. -/
  made : ℕ := 0
  outputs : List Output := []

inductive CallbackError where
  | commonError (what : String)
  /-- An `int` overflows. -/
  | overflow
  deriving DecidableEq, Repr

/-! ### The callbacks -/

def onUrl (ctx : HttpContext) (b : Bytes) : HttpContext := { ctx with url := ctx.url ++ b }

/-- `on_header_field`, which stores the header before. -/
def onHeaderField (ctx : HttpContext) (b : Bytes) : HttpContext :=
  if ctx.currentValue ≠ [] then
    { ctx with
      headers := ctx.headers.assign ctx.currentField ctx.currentValue
      currentField := b
      currentValue := [] }
  else { ctx with currentField := ctx.currentField ++ b }

def onHeaderValue (ctx : HttpContext) (b : Bytes) : HttpContext :=
  { ctx with currentValue := ctx.currentValue ++ b }

/-- `on_body`; a buffer is made if there is none. -/
def onBody (ctx : HttpContext) (b : Bytes) : HttpContext :=
  { ctx with body := some (ctx.body.getD [] ++ b) }

/-- What `on_headers_complete` reads of the parser. -/
structure Parsed where
  method : Method
  keepAlive : Bool
  upgrade : Bool
  chunked : Bool
  deriving DecidableEq, Repr

def equalsCaseInsensitive (a b : Bytes) : Bool := a.map lower = b.map lower

def headersRead (ctx : HttpContext) (p : Parsed) : HttpContext :=
  { ctx with
    keepalive := p.keepAlive
    upgrade := p.upgrade
    headers := if ctx.currentField ≠ [] then ctx.headers.assign ctx.currentField ctx.currentValue
      else ctx.headers
    method := p.method.name
    methodInt := p.method }

section

variable (sha1 : Bytes → Bytes)

/-- The branch of `on_headers_complete` for an upgrade. -/
def upgradeHeaders (headers : HeaderMap) : HeaderMap × Option Bytes :=
  let (ug, headers) := headers.entry (ascii "Upgrade")
  if equalsCaseInsensitive ug (ascii "websocket") then
    let (_, headers) := headers.entry (ascii "Sec-WebSocket-Version")
    let (key, headers) := headers.entry (ascii "Sec-WebSocket-Key")
    (headers, some (switchingProtocols sha1 key))
  else (headers, none)

/-- `on_headers_complete`. It returns true if the parser is to skip the body. -/
def onHeadersComplete (c : Conn) (p : Parsed) : Conn × Bool :=
  let ctx := headersRead c.ctx p
  if p.chunked then
    let ctx := { ctx with isChunked := true }
    ({ c with ctx, outputs := c.outputs ++ [.requestIncoming c.made ctx] }, false)
  else if p.upgrade then
    match upgradeHeaders sha1 ctx.headers with
    | (headers, some answer) =>
      ({ c with
        ctx := { ctx with headers, isWebSocket := true }
        outputs := c.outputs ++ [.write answer] }, true)
    | (headers, none) => ({ c with ctx := { ctx with headers } }, true)
  else ({ c with ctx }, false)

def onMessageComplete (c : Conn) : Conn :=
  if c.ctx.isChunked then
    { ctx := {}
      made := c.made + 1
      outputs := c.outputs ++ [.requestChunkingCompleted c.made c.ctx.chunkId] }
  else if c.ctx.methodInt = .get ∨ c.ctx.methodInt = .post then
    { ctx := {}, made := c.made + 1, outputs := c.outputs ++ [.requestIncoming c.made c.ctx] }
  else c

def onChunkHeader (ctx : HttpContext) (contentLength : ℕ) : HttpContext :=
  { ctx with body := none, chunkSize := contentLength }

def onChunkComplete (c : Conn) : Except CallbackError Conn :=
  match c.ctx.body with
  | none => .ok c
  | some body =>
    if body.length ≠ c.ctx.chunkSize then .error (.commonError "chunk size mismatch")
    -- `chunkId++`
    else if 2 ^ 31 ≤ c.ctx.chunkId + 1 then .error .overflow
    else .ok { c with
      ctx := { c.ctx with chunkId := c.ctx.chunkId + 1, body := none, chunkSize := 0 }
      outputs := c.outputs ++ [.requestChunkReceived c.made c.ctx.chunkId body] }

inductive SpanKind where
  | url
  | headerField
  | headerValue
  | body
  deriving DecidableEq, Repr

def SpanKind.ahead : SpanKind → Bool
  | .body => false
  | .url | .headerField | .headerValue => true

inductive Call where
  | headersComplete (p : Parsed)
  | chunkHeader (contentLength : ℕ)
  | chunkComplete
  | messageComplete
  deriving DecidableEq, Repr

def perform (c : Conn) : Report (BitVec 8) SpanKind Call → Except CallbackError Conn
  | .span .url b => .ok { c with ctx := onUrl c.ctx b }
  | .span .headerField b => .ok { c with ctx := onHeaderField c.ctx b }
  | .span .headerValue b => .ok { c with ctx := onHeaderValue c.ctx b }
  | .span .body b => .ok { c with ctx := onBody c.ctx b }
  | .call (.headersComplete p) => .ok (onHeadersComplete sha1 c p).1
  | .call (.chunkHeader n) => .ok { c with ctx := onChunkHeader c.ctx n }
  | .call .chunkComplete => onChunkComplete c
  | .call .messageComplete => .ok (onMessageComplete c)

end

/-! ### Requests -/

structure Header where
  name : Bytes
  colon : Bytes
  value : Bytes
  eol : Bytes
  name_ne_nil : name ≠ []

structure Chunk where
  sizeLine : Bytes
  data : Bytes
  eol : Bytes
  data_ne_nil : data ≠ []

inductive Body where
  | empty
  | identity (content : Bytes) (h : content ≠ [])
  | chunked (chunks : List Chunk) (lastLine : Bytes) (trailers : List Header) (ending : Bytes)
      (h : ending ≠ [])

structure Request where
  method : Method
  start : Bytes
  url : Bytes
  version : Bytes
  headers : List Header
  /-- The empty line. -/
  headEnd : Bytes
  headEnd_ne_nil : headEnd ≠ []
  /-- `http_major > 0 && http_minor > 0`. -/
  http11 : Bool
  connectionKeepAlive : Bool
  connectionClose : Bool
  connectionUpgrade : Bool
  upgradeField : Bool
  body : Body

namespace Request

variable (r : Request)

/-- The flag `F_CHUNKED`. -/
def isChunked : Bool := match r.body with
  | .chunked .. => true
  | .empty | .identity .. => false

/-- `content_length` after the headers. -/
def contentLength : ℕ := match r.body with
  | .identity content _ => content.length
  | .empty | .chunked .. => 0

/-- `llhttp__before_headers_complete`. -/
def upgrade : Bool := if r.upgradeField && r.connectionUpgrade then true else r.method = .connect

/-- `llhttp_should_keep_alive` for a request. -/
def shouldKeepAlive : Bool := if r.http11 then !r.connectionClose else r.connectionKeepAlive

def parsed : Parsed := ⟨r.method, r.shouldKeepAlive, r.upgrade, r.isChunked⟩

/-- The results of `llhttp__after_headers_complete`. -/
inductive AfterHeaders where
  | complete
  | pause
  | chunks
  | identity
  deriving DecidableEq, Repr

/-- `llhttp__after_headers_complete` for a request. -/
def afterHeadersComplete (skipBody : Bool) : AfterHeaders :=
  if r.upgrade && (decide (r.method = .connect) || skipBody ||
      !(r.isChunked || decide (0 < r.contentLength))) then .pause
  else if skipBody then .complete
  else if r.isChunked then .chunks
  else if r.contentLength = 0 then .complete
  else .identity

def skipBody : Bool := r.upgrade && !r.isChunked

end Request

/-! ### What the parser reports -/

abbrev Part := Piece (BitVec 8) SpanKind Call

def Header.pieces (h : Header) : List Part :=
  [.span .headerField h.name, .skip h.colon, .span .headerValue h.value, .skip h.eol]

def Chunk.pieces (c : Chunk) : List Part :=
  [.skip c.sizeLine, .call (.chunkHeader c.data.length), .span .body c.data, .skip c.eol,
    .call .chunkComplete]

def lastChunkPieces (lastLine : Bytes) (trailers : List Header) (ending : Bytes) : List Part :=
  .skip lastLine :: .call (.chunkHeader 0) :: (trailers.flatMap Header.pieces ++
    [.skip ending, .call .chunkComplete, .call .messageComplete])

def Body.pieces : Body → List Part
  | .empty => [.call .messageComplete]
  | .identity content _ => [.span .body content, .call .messageComplete]
  | .chunked chunks lastLine trailers ending _ =>
    chunks.flatMap Chunk.pieces ++ lastChunkPieces lastLine trailers ending

namespace Request

variable (r : Request)

def headPieces : List Part :=
  .skip r.start :: .span .url r.url :: .skip r.version ::
    (r.headers.flatMap Header.pieces ++ [.skip r.headEnd])

def bodyPieces : List Part :=
  match r.afterHeadersComplete r.skipBody with
  | .complete | .pause => [.call .messageComplete]
  | .chunks | .identity => r.body.pieces

def readPieces : List Part := r.headPieces ++ .call (.headersComplete r.parsed) :: r.bodyPieces

def unread : Bytes :=
  match r.afterHeadersComplete r.skipBody with
  | .pause => bytes r.body.pieces
  | .complete | .chunks | .identity => []

def pieces : List Part := r.readPieces ++ if r.upgrade then [.pause, .skip r.unread] else []

def wire : Bytes := bytes r.headPieces ++ bytes r.body.pieces

end Request

/-! ### The connection -/

structure State where
  conn : Conn := {}
  parser : List Part
  parseErrors : ℕ := 0

def isPaused : List Part → Bool
  | .pause :: _ => true
  | _ => false

section

variable (sha1 : Bytes → Bytes)

/-- The callbacks of a message, one after the other. -/
def play (ps : List Part) (conn : Conn) : Except CallbackError Conn :=
  (reports ps).foldlM (perform sha1) conn

/-- `llhttp_execute`. The bytes after a pause are lost. -/
def parse (st : State) (data : Bytes) : Except CallbackError State :=
  let e := execute SpanKind.ahead st.parser data
  do
    let conn ← e.1.foldlM (perform sha1) st.conn
    pure { conn, parser := e.2, parseErrors := st.parseErrors + (isPaused e.2).toNat }

/-- `on_StreamRead` with what has arrived. -/
def onStreamReadHttp (st : State) (data : Bytes) : Except CallbackError State :=
  if st.conn.ctx.isWebSocket then
    .ok { st with
      conn := { st.conn with outputs := st.conn.outputs ++ [.webSocketInput data] } }
  else parse sha1 st data

def receiveHttp (st : State) (reads : List Bytes) : Except CallbackError State :=
  reads.foldlM (onStreamReadHttp sha1) st

end

def stream : List Request → List Part
  | [] => []
  | r :: rs => r.pieces ++ if r.shouldKeepAlive then stream rs else rs.map fun r => .skip r.wire

def State.initial (rs : List Request) : State := { parser := stream rs }

lemma stream_append {rs : List Request} (h : ∀ r ∈ rs, r.shouldKeepAlive = true)
    (rs' : List Request) : stream (rs ++ rs') = rs.flatMap Request.pieces ++ stream rs' := by
  induction rs with
  | nil => rfl
  | cons r rs ih =>
    have hr := h r mem_cons_self
    rw [cons_append, stream, if_pos hr, ih fun r' hr' => h r' (mem_cons_of_mem _ hr'),
      flatMap_cons, append_assoc]

lemma stream_singleton (r : Request) : stream [r] = r.pieces := by
  simp [stream]

/-! ### Where the parser pauses -/

namespace Request

variable {r : Request}

def pausesEarly (r : Request) : Bool := r.upgrade && (!r.isChunked || decide (r.method = .connect))

lemma afterHeadersComplete_eq : r.afterHeadersComplete r.skipBody =
      if r.pausesEarly then .pause else if r.isChunked then .chunks
      else if r.contentLength = 0 then .complete else .identity := by
  rw [afterHeadersComplete, skipBody, pausesEarly]
  cases r.upgrade <;> cases r.isChunked <;> simp

lemma body_eq_empty (hchunked : r.isChunked = false) (hlength : r.contentLength = 0) :
    r.body = .empty := by
  rw [isChunked] at hchunked
  rw [contentLength] at hlength
  cases hbody : r.body with
  | empty => rfl
  | identity content hne =>
    rw [hbody] at hlength
    exact absurd (length_eq_zero_iff.mp hlength) hne
  | chunked chunks lastLine trailers ending hne =>
    rw [hbody] at hchunked
    cases hchunked

lemma bodyPieces_eq :
    r.bodyPieces = if r.pausesEarly then [.call .messageComplete] else r.body.pieces := by
  rw [bodyPieces, afterHeadersComplete_eq]
  split_ifs with hpause hchunked hlength
  · rfl
  · rfl
  · rw [body_eq_empty (by simpa using hchunked) hlength]
    rfl
  · rfl

lemma unread_eq : r.unread = if r.pausesEarly then bytes r.body.pieces else [] := by
  rw [unread, afterHeadersComplete_eq]
  split_ifs <;> rfl

lemma bytes_pieces : bytes r.pieces = r.wire := by
  have hupgrade : r.pausesEarly = true → r.upgrade = true := by
    intro h
    exact (Bool.and_eq_true_iff.mp h).1
  have hcomplete : bytes ([.call .messageComplete] : List Part) = [] := rfl
  rw [pieces, readPieces, wire, bytes_append, bytes_append, bytes_cons, bodyPieces_eq, unread_eq]
  by_cases hearly : r.pausesEarly = true
  · simp [hearly, hupgrade hearly, hcomplete, Piece.bytes]
  · by_cases hup : r.upgrade = true <;> simp [hearly, hup, Piece.bytes]

end Request

/-! ### The pieces of a request -/

lemma Header.pause_notMem (hs : List Header) : .pause ∉ hs.flatMap Header.pieces := by
  simp [Header.pieces]

lemma Body.pause_notMem (b : Body) : .pause ∉ b.pieces := by
  cases b with
  | empty | identity content h => simp [Body.pieces]
  | chunked chunks lastLine trailers ending h =>
    simp [Body.pieces, lastChunkPieces, Chunk.pieces, Header.pieces]

open SpanKind

lemma Body.delimited (b : Body) : Delimited ahead b.pieces := by
  cases b with
  | empty => trivial
  | identity content h => exact ⟨nofun, trivial⟩
  | chunked chunks lastLine trailers ending h =>
    refine Delimited.append ?_ ?_
    · induction chunks with
      | nil => trivial
      | cons c chunks ih => exact ⟨nofun, ih⟩
    · refine delimited_append_of_ne_nil (_ :: _ :: _) trivial ?_
      simpa [Piece.bytes] using h

namespace Request

variable (r : Request)

lemma pause_notMem_head : .pause ∉ r.headPieces := by
  simp [headPieces, Header.pieces]

lemma call_notMem_head (c : Call) : .call c ∉ r.headPieces := by
  simp [headPieces, Header.pieces]

lemma delimited_head : Delimited ahead r.headPieces := by
  refine delimited_append_of_ne_nil (_ :: _ :: _ :: _) trivial ?_
  simpa [Piece.bytes] using r.headEnd_ne_nil

lemma bytes_head_ne_nil : bytes r.headPieces ≠ [] := by
  simp [headPieces, Piece.bytes, r.headEnd_ne_nil]

lemma pause_notMem_body : .pause ∉ r.bodyPieces := by
  rw [bodyPieces_eq]
  split
  · simp
  · exact r.body.pause_notMem

lemma delimited_body : Delimited ahead r.bodyPieces := by
  rw [bodyPieces_eq]
  split
  · trivial
  · exact r.body.delimited

lemma pause_notMem : .pause ∉ r.readPieces := by
  simp [readPieces, pause_notMem_head, pause_notMem_body]

lemma delimited : Delimited ahead r.readPieces := r.delimited_head.append r.delimited_body

end Request

def Call.Quiet : Call → Prop
  | .headersComplete p => p.chunked = true ∨ p.upgrade = false
  | .chunkHeader _ | .chunkComplete | .messageComplete => True

structure Conn.Plain (c : Conn) : Prop where
  isWebSocket : c.ctx.isWebSocket = false
  write (b : Bytes) : .write b ∉ c.outputs
  webSocketInput (b : Bytes) : .webSocketInput b ∉ c.outputs

section

variable {sha1 : Bytes → Bytes}

lemma joins_perform : Joins (perform sha1) := by
  intro c k a b
  cases k with
  | url => simp [perform, onUrl, bind, Except.bind]
  | headerField =>
    by_cases hvalue : c.ctx.currentValue = [] <;>
      simp [perform, onHeaderField, bind, Except.bind, hvalue]
  | headerValue => simp [perform, onHeaderValue, bind, Except.bind]
  | body => simp [perform, onBody, bind, Except.bind]

variable {c : Conn} {ctx : HttpContext} {n : ℕ} {os : List Output}
variable {r : Report (BitVec 8) SpanKind Call} {rs : List (Report (BitVec 8) SpanKind Call)}

lemma Conn.Plain.events (h : c.Plain) (hctx : ctx.isWebSocket = false) (hwrite : ∀ b, .write b ∉ os)
    (hinput : ∀ b, .webSocketInput b ∉ os) : Conn.Plain ⟨ctx, n, c.outputs ++ os⟩ where
  isWebSocket := hctx
  write b := by simp [h.write b, hwrite b]
  webSocketInput b := by simp [h.webSocketInput b, hinput b]

lemma Conn.Plain.context (h : c.Plain)
    (hctx : ctx.isWebSocket = false) : Conn.Plain { c with ctx } :=
  ⟨hctx, h.write, h.webSocketInput⟩

lemma Conn.Plain.perform {c' : Conn} (h : c.Plain) (hr : ∀ call, r = .call call → call.Quiet)
    (hc : Http.perform sha1 c r = .ok c') : c'.Plain := by
  cases r with
  | span k b =>
    cases k <;> cases hc
    · exact h.context h.isWebSocket
    · refine h.context ?_
      rw [onHeaderField]
      split <;> exact h.isWebSocket
    · exact h.context h.isWebSocket
    · exact h.context h.isWebSocket
  | call call =>
    have hquiet := hr call rfl
    cases call with
    | headersComplete p =>
      cases hc
      rw [onHeadersComplete]
      rcases hquiet with hchunked | hupgrade
      · rw [if_pos hchunked]
        exact h.events h.isWebSocket (by simp) (by simp)
      · by_cases hchunked : p.chunked = true
        · rw [if_pos hchunked]
          exact h.events h.isWebSocket (by simp) (by simp)
        · rw [if_neg hchunked, hupgrade]
          exact h.context h.isWebSocket
    | chunkHeader n =>
      cases hc
      exact h.context h.isWebSocket
    | chunkComplete =>
      simp only [Http.perform, onChunkComplete] at hc
      split at hc
      · cases hc
        exact h
      · split_ifs at hc
        cases hc
        exact h.events h.isWebSocket (by simp) (by simp)
    | messageComplete =>
      cases hc
      rw [onMessageComplete]
      split_ifs
      · exact h.events rfl (by simp) (by simp)
      · exact h.events rfl (by simp) (by simp)
      · exact h

lemma Conn.Plain.foldlM {c' : Conn} (h : c.Plain) (hrs : ∀ call, .call call ∈ rs → call.Quiet)
    (hc : rs.foldlM (Http.perform sha1) c = .ok c') : c'.Plain := by
  induction rs generalizing c with
  | nil =>
    cases hc
    exact h
  | cons r rs ih =>
    rw [foldlM_cons] at hc
    obtain ⟨c₁, hone, hc⟩ := Library.exists_of_bind_ok hc
    have hr : ∀ call, r = .call call → call.Quiet := by
      rintro call rfl
      exact hrs call mem_cons_self
    exact ih (h.perform hr hone)
      (fun call hcall => hrs call (mem_cons_of_mem _ hcall)) hc

lemma onStreamReadHttp_cut {conn : Conn} (hconn : conn.Plain) {qs ps : List Part} {data : Bytes}
    {q : Part} (he : execute ahead qs data = (rs, q :: ps)) (hq : q ≠ .pause) :
    onStreamReadHttp sha1 ⟨conn, qs, n⟩ data =
    rs.foldlM (perform sha1) conn >>= fun conn' => pure ⟨conn', q :: ps, n⟩ := by
  have hpaused : isPaused (q :: ps) = false := by
    cases q with
    | pause => exact absurd rfl hq
    | skip b | span k b | call c => rfl
  rw [onStreamReadHttp, if_neg (by simp [hconn.isWebSocket]), parse]
  simp only [he, hpaused, Bool.toNat_false, Nat.add_zero]

theorem receiveHttp_until {qs : List Part} (hpause : .pause ∉ qs)
    (hd : Delimited ahead qs) (hquiet : ∀ c, .call c ∈ qs → c.Quiet)
    (hne : bytes qs ≠ []) {reads : List Bytes} {tail : Bytes}
    (hreads : reads.flatten = bytes qs ++ tail) (ps : List Part) (n : ℕ) :
    ∃ (before : List Bytes) (d : Bytes) (after : List Bytes) (extra : Bytes),
      reads = before ++ d :: after ∧
      before.flatten.length < (bytes qs).length ∧ before.flatten ++ d = bytes qs ++ extra ∧
      extra ++ after.flatten = tail ∧ ∀ conn : Conn, conn.Plain →
        receiveHttp sha1 ⟨conn, qs ++ ps, n⟩ reads = (do
          let conn' ← play sha1 qs conn
          let st ← parse sha1 ⟨conn', ps, n⟩ extra
          receiveHttp sha1 st after) := by
  induction reads generalizing qs with
  | nil => exact absurd (append_eq_nil_iff.mp hreads.symm).1 hne
  | cons d reads ih =>
    rw [flatten_cons] at hreads
    by_cases hshort : d.length < (bytes qs).length
    · -- The read ends within the pieces.
      obtain ⟨later, hlater⟩ : d <+: bytes qs :=
        prefix_of_prefix_length_le ⟨_, hreads⟩ (prefix_append _ _) hshort.le
      have hne' : later ≠ [] := by
        rintro rfl
        rw [← hlater, append_nil] at hshort
        exact lt_irrefl _ hshort
      obtain ⟨start, p, rest, a, rs, q, rfl, hcut, hd', he⟩ :=
        @execute_cut _ _ _ ahead _ hpause _ _ hlater hne' ps
      have hq : bytes (q :: rest) = later := by
        have h := hlater
        rw [bytes_append, bytes_cons, hcut.bytes_eq, hd', append_assoc, append_assoc] at h
        exact (append_cancel_left (append_cancel_left h)).symm
      have hpause' : .pause ∉ q :: rest := by
        intro hmem
        rcases mem_cons.mp hmem with h | h
        · exact hcut.ne_pause h.symm
        · exact hpause (by simp [h])
      have hquiet' : ∀ c, .call c ∈ q :: rest → c.Quiet := by
        intro c hc
        rcases mem_cons.mp hc with h | h
        · exact absurd h.symm (hcut.not_call c).2
        · exact hquiet c (by simp [h])
      have hreads' : reads.flatten = bytes (q :: rest) ++ tail := by
        rw [← hlater, append_assoc] at hreads
        rw [hq, append_cancel_left hreads]
      obtain ⟨before, d', after, extra, rfl, hlen, hsplit, htail, hrun⟩ :=
        ih hpause' (hcut.delimited hd.of_append) hquiet' (hq ▸ hne') hreads'
      refine ⟨d :: before, d', after, extra, rfl, ?_, ?_, htail, fun conn hconn => ?_⟩
      · rw [← hlater, ← hq, flatten_cons, length_append, length_append]
        omega
      · rw [← hlater, ← hq, flatten_cons, append_assoc, hsplit, append_assoc]
      · rw [receiveHttp, foldlM_cons, onStreamReadHttp_cut hconn he hcut.ne_pause,
          play, ← foldlM_cut joins_perform hcut, bind_assoc, bind_assoc]
        cases hfold : (reports start ++ rs).foldlM (perform sha1) conn with
        | error e => rfl
        | ok conn' =>
          refine hrun conn' (hconn.foldlM (fun c hc => hquiet c ?_) hfold)
          rcases mem_append.mp hc with hc | hc
          · exact mem_append_left _ (call_mem_reports.mp hc)
          · exact absurd hc (hcut.not_call c).1
    · -- The read has all of the pieces.
      obtain ⟨extra, rfl⟩ : bytes qs <+: d :=
        prefix_of_prefix_length_le (prefix_append _ _) ⟨_, hreads⟩ (not_lt.mp hshort)
      rw [append_assoc] at hreads
      refine ⟨[], _, reads, extra, rfl, length_pos_of_ne_nil hne, rfl,
        append_cancel_left hreads, fun conn hconn => ?_⟩
      rw [receiveHttp, foldlM_cons, onStreamReadHttp, if_neg (by simp [hconn.isWebSocket])]
      simp only [parse, play, receiveHttp, execute_bytes hpause hd, foldlM_append, bind_assoc]

end

end Megatron.Http
