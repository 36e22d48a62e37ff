import Megatron.Http.Headers

/-!
Upgrades and the case of header names (`on_headers_complete` of `modules/http/httpService.cpp`). The
header map is keyed by the names as they are spelt: an upgrade depends on the headers that are spelt
exactly `Upgrade` and `Sec-WebSocket-Key` (`handshake_serve`, `sameAnswer_iff_spelling`,
`upgrade_case_iff`).
-/

namespace Megatron.Http

open Library.Http Library.Spans List Request HeaderMap

def Header.SameUpToCase (h h' : Header) : Prop :=
  h.name.map lower = h'.name.map lower ∧ h.colon = h'.colon ∧ h.value = h'.value ∧ h.eol = h'.eol

def Body.SameUpToCase : Body → Body → Prop
  | .empty, .empty => True
  | .identity content _, .identity content' _ => content = content'
  | .chunked chunks lastLine trailers ending _, .chunked chunks' lastLine' trailers' ending' _ =>
    chunks = chunks' ∧ lastLine = lastLine' ∧
      List.Forall₂ Header.SameUpToCase trailers trailers' ∧ ending = ending'
  | _, _ => False

structure Request.SameUpToCase (r r' : Request) : Prop where
  method : r.method = r'.method
  start : r.start = r'.start
  url : r.url = r'.url
  version : r.version = r'.version
  headers : List.Forall₂ Header.SameUpToCase r.headers r'.headers
  headEnd : r.headEnd = r'.headEnd
  http11 : r.http11 = r'.http11
  connectionKeepAlive : r.connectionKeepAlive = r'.connectionKeepAlive
  connectionClose : r.connectionClose = r'.connectionClose
  connectionUpgrade : r.connectionUpgrade = r'.connectionUpgrade
  upgradeField : r.upgradeField = r'.upgradeField
  body : r.body.SameUpToCase r'.body

namespace Request.SameUpToCase

variable {r r' : Request}

section

variable (h : r.SameUpToCase r')
include h

lemma upgrade_eq : r.upgrade = r'.upgrade := by
  rw [upgrade, upgrade, h.upgradeField, h.connectionUpgrade, h.method]

lemma body_eq : r.isChunked = r'.isChunked ∧ r.chunkCount = r'.chunkCount := by
  have hbody := h.body
  rw [isChunked, isChunked, chunkCount, chunkCount]
  cases hb : r.body with
  | empty =>
    cases hb' : r'.body with
    | empty => exact ⟨rfl, rfl⟩
    | identity content' hne' | chunked chunks' lastLine' trailers' ending' hne' =>
      rw [hb, hb'] at hbody
      exact hbody.elim
  | identity content hne =>
    cases hb' : r'.body with
    | empty | chunked chunks' lastLine' trailers' ending' hne' =>
      rw [hb, hb'] at hbody
      exact hbody.elim
    | identity content' hne' => exact ⟨rfl, rfl⟩
  | chunked chunks lastLine trailers ending hne =>
    cases hb' : r'.body with
    | empty | identity content' hne' =>
      rw [hb, hb'] at hbody
      exact hbody.elim
    | chunked chunks' lastLine' trailers' ending' hne' =>
      rw [hb, hb'] at hbody
      exact ⟨rfl, congrArg List.length hbody.1⟩

lemma fields :
    Forall₂ (fun h h' => h.1.map lower = h'.1.map lower ∧ h.2 = h'.2) r.fields r'.fields := by
  rw [Request.fields, Request.fields, forall₂_map_left_iff, forall₂_map_right_iff]
  exact h.headers.imp fun _ _ hh => ⟨hh.1, hh.2.2.1⟩

lemma values (hvalues : ∀ f ∈ r.fields, f.2 ≠ []) : ∀ f ∈ r'.fields, f.2 ≠ [] := by
  have hfields := h.fields
  generalize r.fields = hs at hfields hvalues
  generalize r'.fields = hs' at hfields
  induction hfields with
  | nil => exact hvalues
  | cons hsame _ ih =>
    rw [forall_mem_cons] at hvalues ⊢
    exact ⟨hsame.2 ▸ hvalues.1, ih hvalues.2⟩

lemma pausesEarly_eq : r.pausesEarly = r'.pausesEarly := by
  rw [pausesEarly, pausesEarly, h.upgrade_eq, h.body_eq.1, h.method]

end

end Request.SameUpToCase

/-! ### The headers of a context -/

namespace HttpContext

def pendingName (ctx : HttpContext) : Bytes :=
  if ctx.currentValue = [] then ctx.currentField else []

def settled (ctx : HttpContext) : HeaderMap :=
  if ctx.currentValue = [] then ctx.headers
  else ctx.headers.assign ctx.currentField ctx.currentValue

def Named (ctx : HttpContext) : Prop := ctx.currentValue ≠ [] → ctx.currentField ≠ []

end HttpContext

/-- The last value that is given for exactly this name; a name without a value is put in front of
the next one, and what the context holds counts where no header has the name. -/
def Request.headerMap (r : Request) (ctx : HttpContext) : HeaderMap :=
  (joinedFrom ctx.pendingName r.fields).foldl (fun m h => m.assign h.1 h.2) ctx.settled

lemma Request.headers_headRead (r : Request) {ctx : HttpContext} (h : ctx.Named) :
    (headersRead (r.headRead ctx) r.parsed).headers = r.headerMap ctx :=
  headers_collect r.headers (onUrl ctx r.url) r.parsed h

lemma HttpContext.Named.collect {ctx : HttpContext} (h : ctx.Named) (hs : List Header) :
    (hs.foldl Http.collect ctx).Named := by
  induction hs generalizing ctx with
  | nil => exact h
  | cons hd hs ih =>
    refine ih fun _ => ?_
    rw [Http.collect, onHeaderValue, onHeaderField]
    split
    · exact hd.name_ne_nil
    · exact append_ne_nil_of_right_ne_nil _ hd.name_ne_nil

section

variable {sha1 : Bytes → Bytes}

lemma HttpContext.Named.serve {c c' : Conn} (h : c.ctx.Named) (hbetween : c.Between) (r : Request)
    (hrun : play sha1 r.readPieces c = .ok c') : c'.ctx.Named := by
  cases hchunked : r.isChunked with
  | true =>
    rcases @incomings_serve_chunked sha1 c hbetween r hchunked with
      ⟨-, herror⟩ | ⟨-, c₁, hok, hctx, -⟩
    · rw [herror] at hrun
      cases hrun
    · obtain rfl := Except.ok.inj (hok.symm.trans hrun)
      rw [hctx]
      exact fun hne => absurd rfl hne
  | false =>
    obtain ⟨isWebSocket, writes, hserve, -⟩ := @serve_plain sha1 r hchunked c
    obtain rfl := Except.ok.inj (hserve.symm.trans hrun)
    rw [onMessageComplete]
    split_ifs
    · exact fun hne => absurd rfl hne
    · exact fun hne => absurd rfl hne
    · have hnamed : (onUrl c.ctx r.url).Named := h
      exact hnamed.collect r.headers

lemma HttpContext.Named.serveAll {c c' : Conn} (h : c.ctx.Named) (hbetween : c.Between)
    (rs : List Request)
    (hrun : play sha1 (rs.flatMap readPieces) c = .ok c') :
    c'.ctx.Named := by
  induction rs generalizing c with
  | nil =>
    cases hrun
    exact h
  | cons r rs ih =>
    rw [flatMap_cons, play_append] at hrun
    obtain ⟨c₁, hone, hrun⟩ := Library.exists_of_bind_ok hrun
    exact ih (h.serve hbetween r hone) (hbetween.serve r hone) hrun

/-! ### What a request writes -/

def written (os : List Output) : List Bytes :=
  os.filterMap fun
    | .write b => some b
    | .requestIncoming .. | .requestChunkReceived .. | .requestChunkingCompleted ..
    | .webSocketInput _ => none

@[simp] lemma written_append (os os' : List Output) :
    written (os ++ os') = written os ++ written os' := filterMap_append

lemma written_inputs (reads : List Bytes) : written (reads.map .webSocketInput) = [] := by
  simp [written]

lemma written_writes (bs : List Bytes) : written (bs.map .write) = bs := by
  simp [written]

lemma Conn.Plain.written {c : Conn} (h : c.Plain) : Http.written c.outputs = [] := by
  rw [Http.written, filterMap_eq_nil_iff]
  intro o ho
  cases o with
  | write b => exact absurd ho (h.write b)
  | requestIncoming context ctx | requestChunkReceived context id buf
  | requestChunkingCompleted context total | webSocketInput b => rfl

/-- What is written, and whether the connection is a websocket. -/
def handshake (c : Conn) : List Bytes × Bool := (written c.outputs, c.ctx.isWebSocket)

/-- The handshake of a new connection on which the requests `rs` come in as `reads`. -/
def observed (sha1 : Bytes → Bytes) (rs : List Request) (reads : List Bytes) :
    Except CallbackError (List Bytes × Bool) :=
  (receiveHttp sha1 (State.initial rs) reads).map fun st => handshake st.conn

def outcome (r : Request) (b : Option Bytes) : Except CallbackError (List Bytes × Bool) :=
  if r.isChunked then
    if r.pausesEarly = false → r.chunkCount < 2 ^ 31 then .ok ([], false) else .error .overflow
  else .ok (b.toList, b.isSome && decide (r.method ≠ .get ∧ r.method ≠ .post))

/-- **The handshake of one request.** -/
lemma handshake_serve {c : Conn} (hplain : c.Plain) (hbetween : c.Between) (hnamed : c.ctx.Named)
    (r : Request) : (play sha1 r.readPieces c).map handshake =
      outcome r (r.answer sha1 (r.headerMap c.ctx)) := by
  rw [outcome]
  cases hchunked : r.isChunked with
  | true =>
    rcases @incomings_serve_chunked sha1 c hbetween r hchunked with
      ⟨hcount, herror⟩ | ⟨hcount, c', hok, -⟩
    · rw [if_pos rfl, if_neg hcount, herror]
      rfl
    · have hquiet : ∀ call, .call call ∈ reports r.readPieces → call.Quiet := fun call hcall =>
        quiet_of_mem_readPieces (.inl hchunked) (call_mem_reports.mp hcall)
      have hplain' := hplain.foldlM hquiet hok
      rw [if_pos rfl, if_pos hcount, hok]
      show Except.ok (handshake c') = _
      rw [handshake, hplain'.written, hplain'.isWebSocket]
  | false =>
    have hserve := serve_plain_eq hchunked c
      (congrArg (r.answer sha1) (r.headers_headRead hnamed))
    generalize r.answer sha1 (r.headerMap c.ctx) = b at hserve
    obtain ⟨hflag, -, hmethod⟩ := @plainContext_keeps sha1 r c.ctx
      (b.isSome || c.ctx.isWebSocket)
    rw [if_neg Bool.false_ne_true, hserve]
    refine congrArg Except.ok ?_
    rw [onMessageComplete]
    simp only [hflag, hbetween.isChunked, hmethod, Bool.false_eq_true, if_false]
    by_cases hget : r.method = .get ∨ r.method = .post
    · have hget' : ¬ (r.method ≠ .get ∧ r.method ≠ .post) := by tauto
      rw [if_pos hget, decide_eq_false hget', Bool.and_false, handshake, written_append,
        written_append, hplain.written, written_writes, nil_append]
      exact Prod.ext (append_nil _) rfl
    · have hget' : r.method ≠ .get ∧ r.method ≠ .post := by tauto
      rw [if_neg hget, decide_eq_true hget', Bool.and_true, handshake, written_append,
        hplain.written, written_writes, nil_append]
      refine Prod.ext rfl ?_
      show (b.isSome || c.ctx.isWebSocket) = b.isSome
      rw [hplain.isWebSocket, Bool.or_false]

/-! ### Two requests -/

section

variable (sha1)

def SameAnswer (m m' : HeaderMap) : Prop :=
  m.asksForWebSocket = m'.asksForWebSocket ∧ (m.asksForWebSocket = true →
    calcKeyAnswer sha1 ((m (ascii "Sec-WebSocket-Key")).getD []) =
      calcKeyAnswer sha1 ((m' (ascii "Sec-WebSocket-Key")).getD []))

end

lemma entry_fst (m : HeaderMap) (name : Bytes) : (m.entry name).1 = (m name).getD [] := by
  rw [entry]
  cases m name <;> rfl

lemma getD_entry (m : HeaderMap) (name n : Bytes) :
    ((m.entry name).2 n).getD [] = (m n).getD [] := by
  rw [entry]
  cases hname : m name with
  | some value => rfl
  | none =>
    by_cases heq : n = name
    · rw [heq, hname]
      show (Function.update m name (some []) name).getD [] = _
      rw [Function.update_self]
      rfl
    · exact congrArg (Option.getD · []) (Function.update_of_ne heq ..)

lemma upgradeHeaders_snd (m : HeaderMap) : (upgradeHeaders sha1 m).2 = if m.asksForWebSocket then
      some (switchingProtocols sha1 ((m (ascii "Sec-WebSocket-Key")).getD [])) else none := by
  rw [upgradeHeaders, asksForWebSocket]
  simp only [entry_fst]
  split
  · simp only [getD_entry]
  · rfl

lemma switchingProtocols_inj {key key' : Bytes} : switchingProtocols sha1 key =
    switchingProtocols sha1 key' ↔ calcKeyAnswer sha1 key = calcKeyAnswer sha1 key' := by
  rw [switchingProtocols, switchingProtocols, append_left_inj, append_left_inj,
    switchingHead, switchingHead, append_right_inj, append_right_inj]

lemma sameAnswer_iff (m m' : HeaderMap) :
    (upgradeHeaders sha1 m).2 = (upgradeHeaders sha1 m').2 ↔ SameAnswer sha1 m m' := by
  rw [upgradeHeaders_snd, upgradeHeaders_snd, SameAnswer]
  cases m.asksForWebSocket <;> cases m'.asksForWebSocket <;> simp [switchingProtocols_inj]

lemma outcome_eq_iff {r r' : Request} (h : r.SameUpToCase r') (m m' : HeaderMap) :
    outcome r (r.answer sha1 m) = outcome r' (r'.answer sha1 m') ↔
      (r.upgrade = true → r.isChunked = false → SameAnswer sha1 m m') := by
  rw [outcome, outcome, ← h.body_eq.1, ← h.body_eq.2, ← h.pausesEarly_eq, ← h.method,
    answer, answer, ← h.upgrade_eq]
  cases r.isChunked with
  | true => simp
  | false =>
    cases r.upgrade with
    | false => simp
    | true =>
      simp only [Bool.false_eq_true, if_false, if_true, ← sameAnswer_iff, forall_const]
      cases (upgradeHeaders sha1 m).2 <;> cases (upgradeHeaders sha1 m').2 <;> simp

lemma serve_concat {rs : List Request} (hup : ∀ r ∈ rs, r.upgrade = false) (r : Request) :
    serve sha1 {} (rs ++ [r]) = (do
      let c ← play sha1 (rs.flatMap readPieces) {}
      play sha1 r.readPieces c) := by
  rw [serve_append hup]
  refine congrArg _ (funext fun c => ?_)
  rw [serve]
  simp only [serve]
  cases play sha1 r.readPieces c with
  | error e => rfl
  | ok c' => simp [bind, Except.bind, pure, Except.pure]

lemma handshake_receiveHttp {rs : List Request} (hkeep : ∀ q ∈ rs, q.shouldKeepAlive = true)
    (hup : ∀ q ∈ rs, q.upgrade = false) (r : Request) {reads : List Bytes}
    (hreads : reads.flatten = rs.flatMap wire ++ r.wire) :
    observed sha1 (rs ++ [r]) reads = (do
      let c ← play sha1 (rs.flatMap readPieces) {}
      outcome r (r.answer sha1 (r.headerMap c.ctx))) := by
  have hobserved : ∀ ctx made os (reads : List Bytes),
      handshake ⟨ctx, made, os ++ reads.map .webSocketInput⟩ = handshake ⟨ctx, made, os⟩ := by
    intro ctx made os reads
    rw [handshake, written_append, written_inputs, append_nil]
    rfl
  rw [observed, map_receiveHttp hobserved (by rwa [dropLast_concat])
    (by rw [hreads, flatMap_append, flatMap_singleton]), serve_concat hup]
  cases hconn : play sha1 (rs.flatMap readPieces) {} with
  | error e => rfl
  | ok c =>
    have hplain : c.Plain := Conn.plain_initial.foldlM
      (fun call hcall => quiet_flatMap hup (call_mem_reports.mp hcall)) hconn
    have hbetween : c.Between := Conn.Between.serveAll ⟨rfl, rfl⟩ rs hconn
    have hnamed : c.ctx.Named :=
      HttpContext.Named.serveAll (fun hne => absurd rfl hne) ⟨rfl, rfl⟩ rs hconn
    exact handshake_serve hplain hbetween hnamed r

end

/-! ### The spelling -/

section

open Library

/-- The name of the header is `name` up to case. -/
def isNamed (name : Bytes) (h : Bytes × Bytes) : Bool := h.1.map lower = name.map lower

/-- What the spelling has to keep: an `Upgrade` that asks for a websocket is spelt exactly so in
both lists or in neither, and if it is, the same holds of a `Sec-WebSocket-Key` whose answer is not
that of an empty key. -/
def SameSpelling (sha1 : Bytes → Bytes) (hs hs' : List (Bytes × Bytes)) : Prop :=
  (∀ h ∈ hs, isNamed (ascii "Upgrade") h → equalsCaseInsensitive h.2 (ascii "websocket") = true →
    (ascii "Upgrade" ∈ hs.map Prod.fst ↔ ascii "Upgrade" ∈ hs'.map Prod.fst)) ∧
  ∀ u, (ascii "Upgrade", u) ∈ hs → equalsCaseInsensitive u (ascii "websocket") = true →
    ∀ h ∈ hs, isNamed (ascii "Sec-WebSocket-Key") h →
      calcKeyAnswer sha1 h.2 ≠ calcKeyAnswer sha1 [] →
        (ascii "Sec-WebSocket-Key" ∈ hs.map Prod.fst ↔
          ascii "Sec-WebSocket-Key" ∈ hs'.map Prod.fst)

lemma lastValue_filter_isNamed (name : Bytes) (hs : List (Bytes × Bytes)) :
    lastValue (hs.filter (isNamed name)) name = lastValue hs name := by
  induction hs using List.reverseRecOn with
  | nil => rfl
  | append_singleton hs h ih =>
    rw [filter_append, lastValue_append, lastValue_append, ih, lastValue_singleton,
      filter_singleton]
    by_cases hname : name = h.1
    · have hnamed : isNamed name h = true := by simp [isNamed, hname]
      rw [hnamed, cond_true, lastValue_singleton]
    · rw [if_neg hname]
      cases isNamed name h with
      | true => rw [cond_true, lastValue_singleton, if_neg hname]
      | false => rfl

lemma lastValue_of_filter {name n v : Bytes} {hs : List (Bytes × Bytes)}
    (h : hs.filter (isNamed name) = [(n, v)]) :
    lastValue hs name = if name ∈ hs.map Prod.fst then some v else none := by
  have hlast : lastValue hs name = if name = n then some v else none := by
    rw [← lastValue_filter_isNamed, h, lastValue_singleton]
  split_ifs with hmem
  · by_cases hn : name = n
    · rw [hlast, if_pos hn]
    · rw [if_neg hn] at hlast
      exact absurd hmem (lastValue_eq_none.mp hlast)
  · exact lastValue_eq_none.mpr hmem

section

variable {hs hs' : List (Bytes × Bytes)}
  (hrel : Forall₂ (fun h h' => h.1.map lower = h'.1.map lower ∧ h.2 = h'.2) hs hs')
include hrel

/-- A header that is there once, up to case, counts where it is spelt exactly. -/
lemma spelt_cases {name : Bytes} (honce : (hs.filter (isNamed name)).length ≤ 1) :
    ((∀ h ∈ hs, isNamed name h = false) ∧ lastValue hs name = none ∧ lastValue hs' name = none) ∨
    ∃ v, (∃ h ∈ hs, isNamed name h = true) ∧ (∀ h ∈ hs, isNamed name h = true → h.2 = v) ∧
      lastValue hs name = (if name ∈ hs.map Prod.fst then some v else none) ∧
      lastValue hs' name = (if name ∈ hs'.map Prod.fst then some v else none) := by
  have hfilter : Forall₂ (fun h h' : Bytes × Bytes => h.1.map lower = h'.1.map lower ∧ h.2 = h'.2)
      (hs.filter (isNamed name)) (hs'.filter (isNamed name)) := by
    refine rel_filter (fun h h' heq => ?_) hrel
    simp only [isNamed, heq.1]
  cases hone : hs.filter (isNamed name) with
  | nil =>
    rw [hone] at hfilter
    have hnone' := forall₂_nil_left_iff.mp hfilter
    refine .inl ⟨fun h hh => ?_, ?_, ?_⟩
    · simpa using filter_eq_nil_iff.mp hone h hh
    · rw [← lastValue_filter_isNamed, hone]
      rfl
    · rw [← lastValue_filter_isNamed, hnone']
      rfl
  | cons h rest =>
    rw [hone, length_cons] at honce
    obtain rfl : rest = [] := length_eq_zero_iff.mp (by omega)
    obtain ⟨n, v⟩ := h
    rw [hone] at hfilter
    obtain ⟨⟨n', v'⟩, rest', ⟨-, rfl⟩, hrest, hone'⟩ := forall₂_cons_left_iff.mp hfilter
    rw [forall₂_nil_left_iff.mp hrest] at hone'
    have hmem {h : Bytes × Bytes} (hh : h ∈ hs) (hnamed : isNamed name h = true) : h = (n, v) := by
      have := mem_filter.mpr ⟨hh, hnamed⟩
      rwa [hone, mem_singleton] at this
    have hfirst : (n, v) ∈ hs.filter (isNamed name) := by
      rw [hone]
      exact mem_singleton_self _
    refine .inr ⟨v, ⟨_, mem_of_mem_filter hfirst, (mem_filter.mp hfirst).2⟩, fun h hh hnamed => ?_,
      lastValue_of_filter hone, lastValue_of_filter hone'⟩
    rw [hmem hh hnamed]

/-- **For headers that are there once only the spelling counts.** -/
lemma sameAnswer_iff_spelling (sha1 : Bytes → Bytes)
    (hupgrade : (hs.filter (isNamed (ascii "Upgrade"))).length ≤ 1)
    (hkey : (hs.filter (isNamed (ascii "Sec-WebSocket-Key"))).length ≤ 1) :
    SameAnswer sha1 (lastValue hs) (lastValue hs') ↔ SameSpelling sha1 hs hs' := by
  have hnamed {name v : Bytes} (h : (name, v) ∈ hs) : isNamed name (name, v) = true := by
    simp [isNamed]
  have hempty : equalsCaseInsensitive [] (ascii "websocket") = false := by decide
  rw [SameAnswer, SameSpelling, asksForWebSocket, asksForWebSocket]
  rcases spelt_cases hrel hupgrade with ⟨hnone, hlast, hlast'⟩ |
    ⟨v, ⟨h, hh, hup⟩, hv, hlast, hlast'⟩
  · rw [hlast, hlast', Option.getD_none, hempty]
    refine iff_of_true ⟨rfl, fun h => absurd h Bool.false_ne_true⟩ ⟨fun h hh hup => ?_, fun u hu => ?_⟩
    · rw [hnone h hh] at hup
      cases hup
    · exact absurd (hnamed hu) (by rw [hnone _ hu]; decide)
  rw [hlast, hlast']
  have hasks (b : Prop) [Decidable b] :
      equalsCaseInsensitive ((if b then some v else none).getD []) (ascii "websocket") = true ↔
        b ∧ equalsCaseInsensitive v (ascii "websocket") = true := by
    split_ifs with hb <;> simp [hb, hempty]
  rw [Bool.eq_iff_iff, hasks, hasks]
  refine and_congr ⟨fun hiff h hh hup hws => ?_, fun hall => ?_⟩ ?_
  · rw [hv h hh hup] at hws
    simpa only [hws, and_true] using hiff
  · refine and_congr_left fun hws => hall h hh hup ?_
    rwa [hv h hh hup]
  rcases spelt_cases hrel hkey with ⟨hnone, hlast, hlast'⟩ | ⟨k, ⟨h', hh', hk⟩, hv', hlast, hlast'⟩
  · rw [hlast, hlast']
    refine iff_of_true (fun _ => rfl) fun u hu hws h hh hk => ?_
    rw [hnone h hh] at hk
    cases hk
  · have hanswer : calcKeyAnswer sha1 ((if ascii "Sec-WebSocket-Key" ∈ hs.map Prod.fst then some k
        else none).getD []) = calcKeyAnswer sha1 ((if ascii "Sec-WebSocket-Key" ∈ hs'.map Prod.fst
        then some k else none).getD []) ↔ (calcKeyAnswer sha1 k ≠ calcKeyAnswer sha1 [] →
          (ascii "Sec-WebSocket-Key" ∈ hs.map Prod.fst ↔
            ascii "Sec-WebSocket-Key" ∈ hs'.map Prod.fst)) := by
      split_ifs with h1 h2 h2 <;> simp [h1, h2, eq_comm]
    rw [hlast, hlast', hanswer]
    constructor
    · rintro hsame u hu hws h hh hk hne
      have huv : u = v := hv _ hu (hnamed hu)
      rw [hv' h hh hk] at hne
      exact hsame ⟨mem_map_of_mem hu, huv ▸ hws⟩ hne
    · rintro hsame ⟨hmem, hws⟩ hne
      obtain ⟨⟨n, u⟩, hu, rfl⟩ := mem_map.mp hmem
      have huv : u = v := hv _ hu (hnamed hu)
      exact hsame u hu (huv ▸ hws) h' hh' hk (by rwa [hv' h' hh' hk])

end

end

lemma headerMap_initial {r : Request} (h : ∀ f ∈ r.fields, f.2 ≠ []) :
    r.headerMap {} = Library.lastValue r.fields := by
  have hname : ∀ h ∈ r.fields, h.1 ≠ [] := by
    simp only [fields, mem_map]
    rintro _ ⟨h, -, rfl⟩
    exact h.name_ne_nil
  have hjoined : r.headerMap {} = ofList (joined r.fields) := rfl
  rw [hjoined, joined_eq_self hname fun f hf => h f (mem_of_mem_dropLast hf), ofList_eq]

/-- **When two requests that differ in the case of header names have the same effect**: when the
last values for exactly `Upgrade` and `Sec-WebSocket-Key` have, and in the first request on a
connection, with these headers at most once and all values given, when the spelling is the same. -/
theorem upgrade_case_iff
    (sha1 : Bytes → Bytes) (rs : List Request) (hkeep : ∀ q ∈ rs, q.shouldKeepAlive = true)
    (hup : ∀ q ∈ rs, q.upgrade = false) (r r' : Request) (hcase : r.SameUpToCase r')
    (reads reads' : List Bytes) (hreads : reads.flatten = rs.flatMap Request.wire ++ r.wire)
    (hreads' : reads'.flatten = rs.flatMap Request.wire ++ r'.wire) :
    (observed sha1 (rs ++ [r]) reads = observed sha1 (rs ++ [r']) reads' ↔ ∀ c,
    play sha1 (rs.flatMap Request.readPieces) {} = .ok c → r.upgrade = true →
    r.isChunked = false → SameAnswer sha1 (r.headerMap c.ctx) (r'.headerMap c.ctx)) ∧
    (rs = [] → (∀ f ∈ r.fields, f.2 ≠ []) →
    (r.fields.filter (isNamed (ascii "Upgrade"))).length ≤ 1 →
    (r.fields.filter (isNamed (ascii "Sec-WebSocket-Key"))).length ≤ 1 →
    (observed sha1 (rs ++ [r]) reads = observed sha1 (rs ++ [r']) reads' ↔
    (r.upgrade = true → r.isChunked = false → SameSpelling sha1 r.fields r'.fields))) := by
  have hiff : observed sha1 (rs ++ [r]) reads = observed sha1 (rs ++ [r']) reads' ↔
      ∀ c, play sha1 (rs.flatMap Request.readPieces) {} = .ok c →
        r.upgrade = true → r.isChunked = false →
          SameAnswer sha1 (r.headerMap c.ctx) (r'.headerMap c.ctx) := by
    rw [handshake_receiveHttp hkeep hup r hreads, handshake_receiveHttp hkeep hup r' hreads']
    cases play sha1 (rs.flatMap Request.readPieces) {} with
    | error e =>
      refine iff_of_true rfl fun c hc => ?_
      cases hc
    | ok c =>
      show outcome r _ = outcome r' _ ↔ _
      rw [outcome_eq_iff hcase]
      constructor
      · intro h c' hc'
        cases hc'
        exact h
      · intro h
        exact h c rfl
  refine ⟨hiff, fun hrs hvalues hupgrade hkey => hiff.trans ?_⟩
  subst hrs
  rw [← sameAnswer_iff_spelling hcase.fields sha1 hupgrade hkey, ← headerMap_initial hvalues,
    ← headerMap_initial (hcase.values hvalues)]
  constructor
  · intro h
    exact h {} rfl
  · rintro h c hc
    cases hc
    exact h

def spelt (upgrade connection : String) (hupgrade : ascii upgrade ≠ [])
    (hconnection : ascii connection ≠ []) : Request :=
  { upgradeRequest .get with
    headers := [header upgrade "websocket" hupgrade, header connection "Upgrade" hconnection] }

lemma spelt_sameUpToCase {u u' c c' : String} (hu : ascii u ≠ []) (hu' : ascii u' ≠ [])
    (hc : ascii c ≠ []) (hc' : ascii c' ≠ []) (h : (ascii u).map lower = (ascii u').map lower)
    (h' : (ascii c).map lower = (ascii c').map lower) :
    (spelt u c hu hc).SameUpToCase (spelt u' c' hu' hc') where
  method := rfl
  start := rfl
  url := rfl
  version := rfl
  headers := .cons ⟨h, rfl, rfl, rfl⟩ (.cons ⟨h', rfl, rfl, rfl⟩ .nil)
  headEnd := rfl
  http11 := rfl
  connectionKeepAlive := rfl
  connectionClose := rfl
  connectionUpgrade := rfl
  upgradeField := rfl
  body := trivial

/-- The name `CONNECTION` is not looked up. -/
theorem connection_case :
    observed (List.take 20) [spelt "Upgrade" "Connection" (by decide) (by decide)]
        [(spelt "Upgrade" "Connection" (by decide) (by decide)).wire] =
      observed (List.take 20) [spelt "Upgrade" "CONNECTION" (by decide) (by decide)]
        [(spelt "Upgrade" "CONNECTION" (by decide) (by decide)).wire] := by
  refine ((upgrade_case_iff (List.take 20) [] (by simp) (by simp)
    (spelt "Upgrade" "Connection" (by decide) (by decide))
    (spelt "Upgrade" "CONNECTION" (by decide) (by decide))
    (spelt_sameUpToCase _ _ _ _ (by decide) (by decide)) _ _ (by simp) (by simp)).2 rfl (by decide)
    (by decide) (by decide)).mpr fun _ _ => ⟨fun _ _ _ _ => by decide, fun _ _ _ h hh hk => ?_⟩
  have hnone : ∀ h ∈ (spelt "Upgrade" "Connection" (by decide) (by decide)).fields,
      isNamed (ascii "Sec-WebSocket-Key") h = false := by decide
  rw [hnone h hh] at hk
  cases hk

theorem lower_case_upgrade_not_answered :
    (spelt "Upgrade" "Connection" (by decide) (by decide)).SameUpToCase
        (spelt "upgrade" "Connection" (by decide) (by decide)) ∧
      observed (List.take 20) [spelt "Upgrade" "Connection" (by decide) (by decide)]
        [(spelt "Upgrade" "Connection" (by decide) (by decide)).wire] =
          .ok ([switchingProtocols (List.take 20) []], false) ∧
      observed (List.take 20) [spelt "upgrade" "Connection" (by decide) (by decide)]
        [(spelt "upgrade" "Connection" (by decide) (by decide)).wire] = .ok ([], false) :=
  ⟨spelt_sameUpToCase _ _ _ _ (by decide) rfl, rfl, rfl⟩

end Megatron.Http
