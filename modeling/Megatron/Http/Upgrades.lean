import Megatron.Http.RequestEvents

/-!
Upgrades of an HTTP connection (`modules/http/httpService.cpp`): what is read up to the pause of the
parser (`receiveHttp_pause`), and when the connection is a websocket (`webSocket_mode_iff`).
-/

namespace Megatron.Http

open Library.Http Library.Spans List Request

section

variable {sha1 : Bytes → Bytes}

lemma Request.readPieces_of_upgrade {u : Request} (h : u.upgrade = true) :
    ∃ (qs : List Part) (calls : List Call), u.readPieces = qs ++ calls.map .call ∧ .pause ∉ qs ∧
      Delimited SpanKind.ahead qs ∧ (∀ c, .call c ∈ qs → c.Quiet) ∧ bytes qs ≠ [] := by
  cases hchunked : u.isChunked with
  | true =>
    exact ⟨u.readPieces, [], by simp, u.pause_notMem, u.delimited,
      fun c hc => quiet_of_mem_readPieces (.inl hchunked) hc, u.bytes_readPieces_ne_nil⟩
  | false =>
    refine ⟨u.headPieces, [.headersComplete u.parsed, .messageComplete], ?_,
      u.pause_notMem_head, u.delimited_head,
      fun c hc => absurd hc (u.call_notMem_head c), u.bytes_head_ne_nil⟩
    rw [readPieces, bodyPieces_eq, if_pos (by simp [pausesEarly, h, hchunked])]
    rfl

/-- **Requests up to the first upgrade.** -/
theorem receiveHttp_pause {rs : List Request} (hkeep : ∀ r ∈ rs, r.shouldKeepAlive = true)
    (hup : ∀ r ∈ rs, r.upgrade = false) {u : Request} (hu : u.upgrade = true)
    (rs' : List Request) {reads : List Bytes} {tail : Bytes}
    (hreads : reads.flatten = rs.flatMap wire ++ bytes u.readPieces ++ tail) :
    ∃ (before : List Bytes) (d : Bytes) (after : List Bytes) (extra : Bytes) (ps : List Part)
      (n : ℕ), reads = before ++ d :: after ∧
      before.flatten.length < (rs.flatMap wire ++ bytes u.readPieces).length ∧
      before.flatten ++ d = rs.flatMap wire ++ bytes u.readPieces ++ extra ∧
      extra ++ after.flatten = tail ∧ receiveHttp sha1 (State.initial (rs ++ u :: rs')) reads = (do
        let conn ← play sha1 (rs.flatMap Request.readPieces) {}
        let conn' ← play sha1 u.readPieces conn
        receiveHttp sha1 ⟨conn', .pause :: ps, n⟩ after) := by
  obtain ⟨qs, calls, hpieces, hpause, hd, hquiet, hne⟩ := readPieces_of_upgrade hu
  have hbytes : bytes (rs.flatMap Request.readPieces ++ qs) =
      rs.flatMap wire ++ bytes u.readPieces := by
    rw [bytes_append, bytes_flatMap_readPieces hup, hpieces, bytes_append, bytes_calls, append_nil]
  have hpause' : .pause ∉ rs.flatMap Request.readPieces ++ qs := fun hmem =>
    (mem_append.mp hmem).elim (pause_notMem_flatMap rs) hpause
  have hquiet' (c : Call) (hc : .call c ∈ rs.flatMap Request.readPieces ++ qs) : c.Quiet :=
    (mem_append.mp hc).elim (quiet_flatMap hup) (hquiet c)
  have hne' : bytes (rs.flatMap Request.readPieces ++ qs) ≠ [] := by
    rw [bytes_append]
    exact append_ne_nil_of_right_ne_nil _ hne
  obtain ⟨ps, hparser⟩ : ∃ ps, stream (rs ++ u :: rs') =
      (rs.flatMap Request.readPieces ++ qs) ++ (calls.map .call ++ .pause :: ps) := by
    rw [stream_append hkeep, flatMap_pieces hup, stream, pieces, if_pos hu, hpieces]
    exact ⟨_, by simp only [append_assoc, cons_append]; rfl⟩
  obtain ⟨before, d, after, extra, hsplit, hlen, hd', htail, hrun⟩ :=
    @receiveHttp_until sha1 _ hpause' ((delimited_flatMap rs).append hd) hquiet' hne'
      reads tail (by rw [hbytes, hreads]) (calls.map .call ++ .pause :: ps) 0
  rw [hbytes] at hlen hd'
  refine ⟨before, d, after, extra, ps, 1, hsplit, hlen, hd', htail, ?_⟩
  rw [State.initial, hparser, hrun {} Conn.plain_initial, hpieces]
  simp only [play, reports_append, reports_calls, parse, execute_calls, foldlM_append, bind_assoc,
    pure_bind]
  rfl

lemma receiveHttp_paused (ctx : HttpContext) (made : ℕ) (os : List Output) (ps : List Part)
    (n : ℕ) (reads : List Bytes) : ∃ n', receiveHttp sha1 ⟨⟨ctx, made, os⟩, .pause :: ps, n⟩ reads =
      .ok ⟨⟨ctx, made, os ++ if ctx.isWebSocket then reads.map .webSocketInput else []⟩,
        .pause :: ps, n'⟩ := by
  induction reads generalizing os n with
  | nil => exact ⟨n, by simp [receiveHttp]; rfl⟩
  | cons d reads ih =>
    rw [receiveHttp, foldlM_cons, onStreamReadHttp]
    by_cases hws : ctx.isWebSocket = true
    · obtain ⟨n', hn'⟩ := ih (os ++ [.webSocketInput d]) n
      refine ⟨n', ?_⟩
      rw [if_pos hws]
      refine hn'.trans ?_
      simp [hws]
    · obtain ⟨n', hn'⟩ := ih os (n + 1)
      refine ⟨n', ?_⟩
      rw [if_neg hws]
      refine hn'.trans ?_
      simp [hws]

/-! ### WebSocket data -/

def webSocketBytes (os : List Output) : Bytes :=
  os.flatMap fun
    | .webSocketInput b => b
    | .requestIncoming .. | .requestChunkReceived .. | .requestChunkingCompleted .. | .write _ => []

@[simp] lemma webSocketBytes_append (os os' : List Output) :
    webSocketBytes (os ++ os') = webSocketBytes os ++ webSocketBytes os' := flatMap_append

lemma webSocketBytes_inputs (reads : List Bytes) :
    webSocketBytes (reads.map .webSocketInput) = reads.flatten := by
  rw [webSocketBytes, flatMap_map, flatMap_id']

lemma webSocketBytes_eq_nil {os : List Output} (h : ∀ b, .webSocketInput b ∉ os) :
    webSocketBytes os = [] := by
  rw [webSocketBytes, flatMap_eq_nil_iff]
  intro o ho
  cases o with
  | webSocketInput b => exact absurd ho (h b)
  | requestIncoming context ctx | requestChunkReceived context id buf
  | requestChunkingCompleted context total | write b => rfl

lemma boundary_iff {before after : List Bytes} {d x extra : Bytes}
    (hlen : before.flatten.length < x.length) (hd : before.flatten ++ d = x ++ extra) :
    (∃ b a, before ++ d :: after = b ++ a ∧ b.flatten = x) ↔ extra = [] := by
  constructor
  · rintro ⟨b, a, hsplit, hx⟩
    rcases append_eq_append_iff.mp hsplit with ⟨c, rfl, hc⟩ | ⟨c, rfl, -⟩
    · cases c with
      | nil =>
        rw [append_nil] at hx
        rw [hx] at hlen
        exact absurd hlen (lt_irrefl _)
      | cons d' c =>
        obtain ⟨rfl, -⟩ := List.cons.inj hc
        rw [flatten_append, flatten_cons, ← append_assoc, hd, append_assoc] at hx
        exact (append_eq_nil_iff.mp (append_right_eq_self.mp hx)).1
    · rw [← hx, flatten_append, length_append] at hlen
      omega
  · rintro rfl
    refine ⟨before ++ [d], after, by simp, ?_⟩
    rw [flatten_append, flatten_singleton, hd, append_nil]

lemma serve_upgrade {conn conn' : Conn} (hplain : conn.Plain) (hbetween : conn.Between)
    {r : Request} (hchunked : r.isChunked = false)
    (hserve : play sha1 r.readPieces conn = .ok conn') :
    webSocketBytes conn'.outputs = [] ∧ ((∃ b, .write b ∈ conn'.outputs) →
      conn'.ctx.isWebSocket = decide (r.method ≠ .get ∧ r.method ≠ .post)) := by
  obtain ⟨isWebSocket, writes, hok, hwrites⟩ := @serve_plain sha1 r hchunked conn
  obtain ⟨hflag, -, hmethod⟩ := @plainContext_keeps sha1 r conn.ctx isWebSocket
  obtain rfl := Except.ok.inj (hok.symm.trans hserve)
  have hnone : webSocketBytes (conn.outputs ++ writes) = [] := by
    refine webSocketBytes_eq_nil fun b hb => ?_
    rcases mem_append.mp hb with hb | hb
    · exact hplain.webSocketInput b hb
    · rcases hwrites with ⟨rfl, -⟩ | ⟨b', rfl, -⟩ <;> simp at hb
  rw [onMessageComplete]
  simp only [hflag, hbetween.isChunked, hmethod, Bool.false_eq_true, if_false]
  by_cases hget : r.method = .get ∨ r.method = .post
  · have hget' : ¬ (r.method ≠ .get ∧ r.method ≠ .post) := by tauto
    rw [if_pos hget, webSocketBytes_append, hnone, decide_eq_false hget']
    exact ⟨rfl, fun _ => rfl⟩
  · have hget' : r.method ≠ .get ∧ r.method ≠ .post := by tauto
    rw [if_neg hget, decide_eq_true hget']
    refine ⟨hnone, ?_⟩
    rintro ⟨b, hb⟩
    rcases hwrites with ⟨rfl, -⟩ | ⟨b', -, hws⟩
    · rw [append_nil] at hb
      exact absurd hb (hplain.write b)
    · rw [hws]
      rfl

/-- **When the bytes after `101 Switching Protocols` are WebSocket data.** -/
theorem webSocket_mode_iff (sha1 : Bytes → Bytes) (rs : List Request)
    (hkeep : ∀ r ∈ rs, r.shouldKeepAlive = true) (hup : ∀ r ∈ rs, r.upgrade = false)
    (r : Request) (hr : r.upgrade = true) (hchunked : r.isChunked = false) (reads : List Bytes)
    (tail : Bytes) (hreads : reads.flatten = rs.flatMap wire ++ bytes r.headPieces ++ tail)
    (st : State) (hst : receiveHttp sha1 (State.initial (rs ++ [r])) reads = .ok st)
    (hwritten : ∃ b, .write b ∈ st.conn.outputs) : webSocketBytes st.conn.outputs = tail ↔
    tail = [] ∨ (r.method ≠ .get ∧ r.method ≠ .post) ∧ ∃ before after, reads = before ++ after ∧
    before.flatten = rs.flatMap wire ++ bytes r.headPieces := by
  have hbytes : bytes r.readPieces = bytes r.headPieces := by
    rw [Request.readPieces, Request.bodyPieces_eq,
      if_pos (by simp [Request.pausesEarly, hr, hchunked])]
    simp [Piece.bytes]
  obtain ⟨before, d, after, extra, ps, n, rfl, hlen, hd, rfl, hrun⟩ :=
    @receiveHttp_pause sha1 rs hkeep hup r hr [] reads tail (by rw [hbytes, hreads])
  rw [hbytes] at hlen hd
  rw [boundary_iff hlen hd]
  rw [hrun] at hst
  obtain ⟨conn, hconn, hst⟩ := Library.exists_of_bind_ok hst
  obtain ⟨conn', hconn', hst⟩ := Library.exists_of_bind_ok hst
  have hplain : conn.Plain := Conn.plain_initial.foldlM
    (fun c hc => quiet_flatMap hup (call_mem_reports.mp hc)) hconn
  have hbetween : conn.Between := Conn.Between.serveAll ⟨rfl, rfl⟩ rs hconn
  obtain ⟨hnone, hmark⟩ := serve_upgrade hplain hbetween hchunked hconn'
  obtain ⟨n', hn'⟩ := @receiveHttp_paused sha1 conn'.ctx conn'.made conn'.outputs ps n after
  obtain rfl := Except.ok.inj (hn'.symm.trans hst)
  have hanswered : ∃ b, .write b ∈ conn'.outputs := by
    obtain ⟨b, hb⟩ := hwritten
    refine ⟨b, (mem_append.mp hb).resolve_right fun hb => ?_⟩
    split_ifs at hb <;> simp at hb
  rw [webSocketBytes_append, hnone, hmark hanswered, nil_append]
  by_cases hget : r.method ≠ .get ∧ r.method ≠ .post
  · simp only [hget, decide_true, if_true, webSocketBytes_inputs, ne_eq, not_false_eq_true,
      true_and]
    constructor
    · intro h
      exact .inr (append_left_eq_self.mp h.symm)
    · rintro (h | h)
      · rw [append_eq_nil_iff] at h
        rw [h.1, h.2]
        rfl
      · rw [h]
        rfl
  · simp only [hget, decide_false, Bool.false_eq_true, if_false, false_and, or_false]
    exact eq_comm

end

def upgradeRequest (method : Method) : Request :=
  { request method "/w" [header "Upgrade" "websocket" (by decide),
      header "Connection" "Upgrade" (by decide)] .empty with
    connectionUpgrade := true
    upgradeField := true }

/-- A `PUT` whose head is one read. -/
theorem webSocket_mode_put : ∃ st, receiveHttp (List.take 20) (State.initial [upgradeRequest .put])
        [bytes (upgradeRequest .put).headPieces, ascii "hi"] = .ok st ∧
      (∃ b, .write b ∈ st.conn.outputs) ∧ webSocketBytes st.conn.outputs = ascii "hi" := by
  obtain ⟨st, hst, hwritten⟩ : ∃ st, receiveHttp (List.take 20)
      (State.initial [upgradeRequest .put])
      [bytes (upgradeRequest .put).headPieces, ascii "hi"] = .ok st ∧
      ∃ b, .write b ∈ st.conn.outputs := ⟨_, rfl, _, mem_cons_self⟩
  refine ⟨st, hst, hwritten, ?_⟩
  exact (webSocket_mode_iff (List.take 20) [] (by simp) (by simp) (upgradeRequest .put) rfl rfl
    [bytes (upgradeRequest .put).headPieces, ascii "hi"] (ascii "hi") (by simp) st hst
    hwritten).mpr (.inr ⟨by decide, [bytes (upgradeRequest .put).headPieces], [ascii "hi"],
      rfl, by simp⟩)

/-- **After a `GET` nothing is taken for WebSocket data.** -/
theorem webSocket_mode_lost :
    ∃ st b, receiveHttp (List.take 20) (State.initial [upgradeRequest .get])
        [bytes (upgradeRequest .get).headPieces, ascii "hi"] = .ok st ∧
      .write b ∈ st.conn.outputs ∧ webSocketBytes st.conn.outputs = [] ∧ st.parseErrors = 2 :=
  ⟨_, _, rfl, mem_cons_self, rfl, rfl⟩

end Megatron.Http
