import Megatron.Corelib.IoBuffer
import Megatron.Library.HttpMessage

/-!
Responses of the HTTP service (`corelib/httpConnection.h`, `corelib/httpConnection.cpp`)
and what a client makes of them.
-/

namespace Megatron.Http

open Library.Http List

inductive ConnType where
  | close
  | keepAlive
  | upgrade
  | unknown
  deriving DecidableEq, Repr

/-- The class `HTTP::Response`; `keepalive` is that of the request. -/
structure Response where
  keepalive : Bool
  httpCode : ℤ := 200
  httpContentType : Bytes := ascii "text/html"
  content : Bytes := []
  httpCharset : Bytes := []
  serverName : Bytes := []
  httpHeaderOut : Bytes := []
  chunkedHttpHeaderSent : Bool := false
  connection : ConnType := .close
  isChunked : Bool := false
  deriving DecidableEq, Repr

def getNameOfHttpCode (code : ℤ) : Bytes :=
  match code with
  | 200 => ascii "OK"
  | 203 => ascii "Non-Authoritative Information"
  | 206 => ascii "Partial Content"
  | 302 => ascii "Found"
  | 303 => ascii "See Other"
  | 400 => ascii "Bad Request"
  | 401 => ascii "Unauthorized"
  | 402 => ascii "Payment Required"
  | 403 => ascii "Forbidden"
  | 404 => ascii "Not Found"
  | 405 => ascii "Method Not Allowed"
  | 406 => ascii "Not Acceptable"
  | 413 => ascii "Request Entity Too Large"
  | 500 => ascii "Internal Server Error"
  | 501 => ascii "Not Implemented"
  | 502 => ascii "Bad Gateway"
  | 503 => ascii "Service Unavailable"
  | 505 => ascii "HTTP Version not supported"
  | _ => ascii "Unknow"

/-- An `int` in decimal. -/
def intText (n : ℤ) : Bytes :=
  if n < 0 then 45#8 :: numeral 10 n.natAbs else numeral 10 n.natAbs

def buildHtmlResponse (r : Response) : Bytes :=
  (ascii "HTTP/1.1 " ++ intText r.httpCode ++ ascii " " ++ getNameOfHttpCode r.httpCode ++ crlf) ++
  (if r.httpContentType ≠ [] then
    ascii "Content-Type: " ++ r.httpContentType ++
      (if r.httpCharset ≠ [] then ascii "; charset: " ++ r.httpCharset else []) ++ crlf else []) ++
  ((if r.serverName ≠ [] then ascii "Server: " ++ r.serverName else ascii "Server: Web Server") ++
    crlf) ++
  (if r.isChunked = false ∧ r.content ≠ [] then
    ascii "Content-Length: " ++ numeral 10 r.content.length ++ crlf else []) ++
  (if r.keepalive = true ∧ r.isChunked = false then
    ascii "Connection: Keep-Alive\r\nKeep-Alive: timeout=7200, max=1000000000\r\n"
  else ascii "Connection: close\r\n") ++
  (if r.isChunked = true then ascii "Transfer-Encoding: chunked\r\n" else []) ++
  r.httpHeaderOut ++ crlf ++
  (if r.isChunked = false then r.content else [])

/-- `strcasecmp(s.c_str(), t) == 0`, up to the first zero byte. -/
def strcasecmpEq (s t : Bytes) : Bool := (s.takeWhile fun c => c ≠ 0#8).map lower = t.map lower

def setHeader (r : Response) (key value : Bytes) : Response :=
  if strcasecmpEq key (ascii "Connection") then
    if strcasecmpEq value (ascii "Close") then { r with connection := .close }
    else if strcasecmpEq value (ascii "Keep-Alive") then { r with connection := .keepAlive }
    else if strcasecmpEq value (ascii "Upgrade") then { r with connection := .upgrade }
    else r
  else { r with httpHeaderOut := r.httpHeaderOut ++ (key ++ ascii ": " ++ value ++ crlf) }

def setContentType (r : Response) (ct : Bytes) : Response := { r with httpContentType := ct }

def setStatus (r : Response) (code : ℤ) : Response := { r with httpCode := code }

/-- What is done to the socket: `write_` or `write_and_close`. -/
structure Write where
  bytes : Bytes
  closes : Bool
  deriving DecidableEq, Repr

def lastWrite (r : Response) (bytes : Bytes) : Write := ⟨bytes, !r.keepalive⟩

def makeResponse (r : Response) (str : Bytes) : Except Exn (Response × Write) :=
  if r.isChunked then .error (.commonError "if(is_chunked)")
  else
    let r' := { r with content := str }
    .ok (r', lastWrite r' (buildHtmlResponse r'))

/-- One chunk, as `send_chunked` writes it. -/
def chunkText (str : Bytes) : Bytes := numeral 16 str.length ++ crlf ++ str ++ crlf

def sendChunked (r : Response) (str : Bytes) : Except Exn (Response × List Write) :=
  let r' := { r with isChunked := true }
  if r'.content ≠ [] then .error (.commonError "if(content.size())")
  else if r'.chunkedHttpHeaderSent then .ok (r', [⟨chunkText str, false⟩])
  else
    .ok ({ r' with chunkedHttpHeaderSent := true },
      [⟨buildHtmlResponse r', false⟩, ⟨chunkText str, false⟩])

def endChunked (r : Response) : Except Exn Write :=
  if r.isChunked = false then .error (.commonError "if(!is_chunked)")
  else if r.content ≠ [] then .error (.commonError "if(content.size())")
  else .ok (lastWrite r (ascii "0\r\n\r\n"))

/-- `send_chunked` for each string, then `end_chunked`. -/
def sendAll : Response → List Bytes → Except Exn (List Write)
  | r, [] => do
      let w ← endChunked r
      pure [w]
  | r, s :: ss => do
      let (r', ws) ← sendChunked r s
      let ws' ← sendAll r' ss
      pure (ws ++ ws')

inductive Setter where
  | header (key value : Bytes)
  | contentType (ct : Bytes)
  | status (code : ℤ)
  deriving DecidableEq, Repr

def Setter.apply (r : Response) : Setter → Response
  | .header key value => setHeader r key value
  | .contentType ct => setContentType r ct
  | .status code => setStatus r code

def configured (keepalive : Bool) (setters : List Setter) : Response :=
  setters.foldl Setter.apply { keepalive := keepalive }

/-! ### Configured responses -/

def headerTexts (setters : List Setter) : List Bytes :=
  setters.filterMap fun
    | .header key value =>
      if strcasecmpEq key (ascii "Connection") then none
      else some (key ++ ascii ": " ++ value)
    | _ => none

section

variable (keepalive : Bool) (setters : List Setter)

structure Response.Plain (r : Response) : Prop where
  keepalive : r.keepalive = keepalive
  content : r.content = []
  httpCharset : r.httpCharset = []
  serverName : r.serverName = []
  isChunked : r.isChunked = false
  chunkedHttpHeaderSent : r.chunkedHttpHeaderSent = false

variable {keepalive}

lemma Response.Plain.apply {r : Response} (h : r.Plain keepalive) (c : Setter) :
    (c.apply r).Plain keepalive := by
  cases c with
  | header key value =>
    rw [Setter.apply, setHeader]
    split_ifs <;> exact ⟨h.1, h.2, h.3, h.4, h.5, h.6⟩
  | contentType ct | status code => exact ⟨h.1, h.2, h.3, h.4, h.5, h.6⟩

variable (keepalive)

lemma configured_plain : (configured keepalive setters).Plain keepalive := by
  rw [configured]
  generalize hr : ({ keepalive := keepalive } : Response) = r
  have h : r.Plain keepalive := by
    subst hr
    exact ⟨rfl, rfl, rfl, rfl, rfl, rfl⟩
  clear hr
  induction setters generalizing r with
  | nil => exact h
  | cons c setters ih => exact ih _ (h.apply c)

lemma configured_httpHeaderOut :
    (configured keepalive setters).httpHeaderOut = (headerTexts setters).flatMap (· ++ crlf) := by
  have hfold (r : Response) : (setters.foldl Setter.apply r).httpHeaderOut =
      r.httpHeaderOut ++ (headerTexts setters).flatMap (· ++ crlf) := by
    induction setters generalizing r with
    | nil => simp [headerTexts]
    | cons c setters ih =>
      rw [foldl_cons, ih]
      cases c with
      | header key value =>
        by_cases hkey : strcasecmpEq key (ascii "Connection") = true
        · have hsame : (setHeader r key value).httpHeaderOut = r.httpHeaderOut := by
            rw [setHeader, if_pos hkey]
            split_ifs <;> rfl
          simp [headerTexts, Setter.apply, hkey, hsame]
        · simp [headerTexts, Setter.apply, setHeader, hkey]
      | contentType ct => simp [headerTexts, Setter.apply, setContentType]
      | status code => simp [headerTexts, Setter.apply, setStatus]
  rw [configured, hfold]
  rfl

end

/-! ### Chunked responses -/

lemma chunkText_eq (str : Bytes) : chunkText str = encodeChunk str := by
  rw [chunkText, encodeChunk, append_assoc (numeral 16 str.length ++ crlf)]

def writtenBytes (ws : List Write) : Bytes := ws.flatMap Write.bytes

lemma sendAll_of_headerSent {r : Response} (hchunked : r.isChunked = true)
    (hsent : r.chunkedHttpHeaderSent = true) (hcontent : r.content = []) (ss : List Bytes) :
    ∃ ws, sendAll r ss = .ok ws ∧ writtenBytes ws = ss.flatMap encodeChunk ++ encodeChunk [] := by
  induction ss with
  | nil =>
    refine ⟨_, by rw [sendAll, endChunked, if_neg (by simp [hchunked]),
      if_neg (by simp [hcontent])]; rfl, ?_⟩
    simp only [writtenBytes, lastWrite, flatMap_cons, flatMap_nil, append_nil, nil_append]
    decide
  | cons s ss ih =>
    obtain ⟨ws, hws, hbytes⟩ := ih
    have hr : { r with isChunked := true } = r := by
      cases r
      simp_all
    refine ⟨⟨chunkText s, false⟩ :: ws, ?_, ?_⟩
    · rw [sendAll, sendChunked, if_neg (by simp [hcontent]), if_pos (by simp [hsent]), hr]
      simp [bind, Except.bind, hws, pure, Except.pure]
    · rw [writtenBytes] at hbytes ⊢
      rw [flatMap_cons, hbytes, flatMap_cons, append_assoc, chunkText_eq]

lemma sendAll_configured (keepalive : Bool) (setters : List Setter) (s : Bytes) (ss : List Bytes) :
    ∃ ws, sendAll (configured keepalive setters) (s :: ss) = .ok ws ∧
      writtenBytes ws = buildHtmlResponse { configured keepalive setters with isChunked := true } ++
        ((s :: ss).flatMap encodeChunk ++ encodeChunk []) := by
  have h := configured_plain keepalive setters
  obtain ⟨ws, hws, hbytes⟩ := sendAll_of_headerSent (r := { configured keepalive setters with
    isChunked := true, chunkedHttpHeaderSent := true }) rfl rfl h.content ss
  refine ⟨⟨buildHtmlResponse { configured keepalive setters with isChunked := true }, false⟩ ::
    ⟨chunkText s, false⟩ :: ws, ?_, ?_⟩
  · rw [sendAll, sendChunked, if_neg (by simp [h.content]),
      if_neg (by simp [h.chunkedHttpHeaderSent])]
    simp only [bind, Except.bind, hws]
    rfl
  · rw [writtenBytes] at hbytes ⊢
    rw [flatMap_cons, flatMap_cons, hbytes, flatMap_cons, chunkText_eq, append_assoc]

lemma sendAll_nil (keepalive : Bool) (setters : List Setter) :
    sendAll (configured keepalive setters) [] = .error (.commonError "if(!is_chunked)") := by
  rw [sendAll, endChunked, if_pos (configured_plain keepalive setters).isChunked]
  rfl

lemma decodeChunked_chunks_iff (ss : List Bytes) :
    decodeChunked (ss.flatMap encodeChunk ++ encodeChunk []) = some (ss.flatten, []) ↔
      ∀ s ∈ ss, s ≠ [] := by
  constructor
  · intro h s hs hnil
    -- the first empty string ends the body
    subst hnil
    obtain ⟨pre, post, rfl, hpre⟩ := eq_append_cons_of_mem hs
    have hne : ∀ s ∈ pre, s ≠ [] := fun s hs hnil => hpre (hnil ▸ hs)
    rw [flatMap_append, flatMap_cons, append_assoc, append_assoc, decodeChunked_encode hne] at h
    have hrest := (Prod.ext_iff.mp (Option.some.inj h)).2
    have hlast : encodeChunk [] = [] := (append_eq_nil_iff.mp hrest).2
    exact absurd hlast (by decide)
  · intro h
    have := decodeChunked_encode h []
    rwa [append_nil] at this

/-- **Chunked responses** are decoded exactly if there is a string and none is empty. -/
theorem chunked_response_decodes_iff (keepalive : Bool) (setters : List Setter) (ss : List Bytes) :
    (∃ ws body, sendAll (configured keepalive setters) ss = .ok ws ∧ writtenBytes ws =
        buildHtmlResponse { configured keepalive setters with isChunked := true } ++ body ∧
      decodeChunked body = some (ss.flatten, [])) ↔
    ss ≠ [] ∧ ∀ s ∈ ss, s ≠ [] := by
  cases ss with
  | nil =>
    rw [sendAll_nil]
    simp
  | cons s ss =>
    obtain ⟨ws, hws, hbytes⟩ := sendAll_configured keepalive setters s ss
    rw [← decodeChunked_chunks_iff]
    constructor
    · rintro ⟨ws', body, hws', hbytes', hdecode⟩
      obtain rfl : ws = ws' := Except.ok.inj (hws.symm.trans hws')
      rw [append_cancel_left (hbytes.symm.trans hbytes')]
      exact ⟨by simp, hdecode⟩
    · rintro ⟨-, hdecode⟩
      exact ⟨ws, _, hws, hbytes, hdecode⟩

/-- **An empty string ends the body.** -/
theorem empty_chunk_ends_body :
    ∃ ws body, sendAll (configured true []) [ascii "a", [], ascii "b"] = .ok ws ∧ writtenBytes ws =
        buildHtmlResponse { configured true [] with isChunked := true } ++ body ∧
      decodeChunked body = some (ascii "a", ascii "1\r\nb\r\n0\r\n\r\n") := by
  obtain ⟨ws, hws, hbytes⟩ := sendAll_configured true [] (ascii "a") [[], ascii "b"]
  exact ⟨ws, _, hws, hbytes, by decide +kernel⟩

end Megatron.Http
