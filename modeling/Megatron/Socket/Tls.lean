import Megatron.Socket.Errors

/-!
Input of an established TLS connection: the bytes are in the receive buffer of the kernel, then in
the SSL object, then in `inBuffer_` (`InOrder.step`, `tls_input_not_held_back_iff`).
-/

namespace Megatron.Socket

open Library List

structure TlsRecord where
  wire : ℕ
  plain : Bytes
  pos : 0 < wire

def wires (rs : List TlsRecord) : ℕ := (rs.map TlsRecord.wire).sum

def plains (rs : List TlsRecord) : Bytes := rs.flatMap TlsRecord.plain

/-- The records that lie within the first `n` bytes. -/
def completed : List TlsRecord → ℕ → List TlsRecord
  | [], _ => []
  | r :: rs, n => if r.wire ≤ n then r :: completed rs (n - r.wire) else []

variable {n : ℕ} (r : TlsRecord) (rs rs' : List TlsRecord)

@[simp] lemma wires_cons :
    wires (r :: rs) = r.wire + wires rs := rfl

@[simp] lemma wires_append : wires (rs ++ rs') = wires rs + wires rs' := by
  simp [wires]

@[simp] lemma plains_cons :
    plains (r :: rs) = r.plain ++ plains rs := rfl

@[simp] lemma plains_append : plains (rs ++ rs') = plains rs ++ plains rs' := by
  simp [plains]

lemma completed_append (done : List TlsRecord) {rest : List TlsRecord} {k : ℕ}
    (h : ∀ r ∈ rest.head?, k < r.wire) : completed (done ++ rest) (wires done + k) = done := by
  induction done with
  | nil =>
    cases rest with
    | nil => rfl
    | cons r rs =>
      have hr := h r rfl
      simp only [nil_append, completed]
      rw [if_neg (by simpa [wires] using hr)]
  | cons r done ih =>
    simp only [cons_append, completed, wires_cons]
    rw [if_pos (by omega), Nat.add_assoc, Nat.add_sub_cancel_left, ih]

/-! ### `SSL_read` -/

structure Ssl where
  /-- The number of bytes that have not yet arrived. -/
  inFlight : ℕ
  /-- The number of bytes in the kernel's buffer. -/
  kernel : ℕ
  started : ℕ
  rest : List TlsRecord
  pending : Bytes

def Ssl.fetch (l : Ssl) : List TlsRecord → ℕ → ℕ → Ssl
  | [], started, kernel => { l with kernel, started, rest := [], pending := [] }
  | r :: rs, started, kernel =>
    if started + kernel < r.wire then
      { l with kernel := 0, started := started + kernel, rest := r :: rs, pending := [] }
    else if r.plain = [] then l.fetch rs 0 (started + kernel - r.wire)
    else
      { l with kernel := started + kernel - r.wire, started := 0, rest := rs,
               pending := r.plain }

def Ssl.current (l : Ssl) : Ssl :=
  if l.pending = [] then l.fetch l.rest l.started l.kernel else l

/-- `SSL_read`; no bytes stand for -1. -/
def Ssl.read (l : Ssl) (n : ℕ) : Option Bytes × Ssl :=
  if l.current.pending = [] then (none, l.current)
  else (some (l.current.pending.take n), { l.current with pending := l.current.pending.drop n })

/-- The records `done` have been decrypted, and not the rest. -/
structure Ssl.Decrypted (records done : List TlsRecord) (l : Ssl) : Prop where
  split : records = done ++ l.rest
  bytes : wires done + l.started + l.kernel + l.inFlight = wires records
  short : ∀ r ∈ l.rest.head?, l.started < r.wire

lemma fetch_spec (l : Ssl) (rs : List TlsRecord) (started kernel : ℕ) : ∃ new, rs =
    new ++ (l.fetch rs started kernel).rest ∧ plains new = (l.fetch rs started kernel).pending ∧
    wires new + (l.fetch rs started kernel).started + (l.fetch rs started kernel).kernel =
    started + kernel ∧
    ∀ r ∈ (l.fetch rs started kernel).rest.head?, (l.fetch rs started kernel).started < r.wire := by
  induction rs generalizing started kernel with
  | nil => exact ⟨[], rfl, rfl, by simp [Ssl.fetch, wires], nofun⟩
  | cons r rs ih =>
    rw [Ssl.fetch]
    split_ifs with hlt hplain
    · refine ⟨[], rfl, rfl, by simp [wires], fun r' hr' => ?_⟩
      cases hr'
      exact hlt
    · obtain ⟨new, hsplit, hbytes, hwires, hshort'⟩ :=
        ih 0 (started + kernel - r.wire)
      refine ⟨r :: new, congrArg (r :: ·) hsplit, ?_, ?_, hshort'⟩
      · rw [plains_cons, hplain, nil_append, hbytes]
      · rw [wires_cons]
        omega
    · refine ⟨[r], rfl, append_nil _, ?_, fun r' _ => r'.pos⟩
      simp only [wires, map_cons, map_nil, sum_cons, sum_nil]
      omega

lemma fetch_inFlight (l : Ssl) (rs : List TlsRecord) (started kernel : ℕ) :
    (l.fetch rs started kernel).inFlight = l.inFlight := by
  induction rs generalizing started kernel with
  | nil => rfl
  | cons r rs ih =>
    rw [Ssl.fetch]
    split_ifs
    · rfl
    · exact ih _ _
    · rfl

lemma fetch_pending (l : Ssl) {rs : List TlsRecord} (h : ∀ r ∈ rs, r.plain.length ≤ n)
    (started kernel : ℕ) : (l.fetch rs started kernel).pending.length ≤ n := by
  induction rs generalizing started kernel with
  | nil => exact Nat.zero_le n
  | cons r rs ih =>
    rw [Ssl.fetch]
    split_ifs
    · exact Nat.zero_le n
    · exact ih (fun r' hr' => h r' (mem_cons_of_mem r hr')) _ _
    · exact h r mem_cons_self

lemma fetch_zero (l : Ssl) (rs : List TlsRecord) :
    l.fetch rs 0 0 = { l with kernel := 0, started := 0, rest := rs, pending := [] } := by
  cases rs with
  | nil => rfl
  | cons r rs =>
    rw [Ssl.fetch, if_pos (by simpa using r.pos)]

variable {l : Ssl} {records done : List TlsRecord}

lemma Ssl.Decrypted.current (h : l.Decrypted records done) : ∃ new,
    l.current.Decrypted records (done ++ new) ∧ l.pending ++ plains new = l.current.pending := by
  rw [Ssl.current]
  split_ifs with hpending
  · obtain ⟨new, hsplit, hplains, hwires, hshort⟩ := fetch_spec l l.rest l.started l.kernel
    refine ⟨new, ⟨?_, ?_, hshort⟩, ?_⟩
    · rw [append_assoc, ← hsplit]
      exact h.split
    · have hbytes := h.bytes
      rw [fetch_inFlight, wires_append]
      omega
    · rw [hpending, nil_append, hplains]
  · refine ⟨[], ?_, append_nil _⟩
    rwa [append_nil]

lemma Ssl.Decrypted.read (h : l.Decrypted records done) (n : ℕ) :
    ∃ new, (l.read n).2.Decrypted records (done ++ new) ∧
      l.pending ++ plains new = (l.read n).1.getD [] ++ (l.read n).2.pending := by
  obtain ⟨new, hcurrent, hbytes⟩ := h.current
  rw [Ssl.read]
  split_ifs with hpending
  · refine ⟨new, hcurrent, ?_⟩
    rw [hbytes]
    rfl
  · refine ⟨new, ⟨hcurrent.split, hcurrent.bytes, hcurrent.short⟩, ?_⟩
    rw [hbytes]
    exact (take_append_drop n _).symm

lemma read_pending (h : ∀ r ∈ l.rest, r.plain.length ≤ n) (hpending : l.pending = []) :
    (l.read n).2.pending = [] := by
  rw [Ssl.read]
  split_ifs with hnone
  · exact hnone
  · refine drop_eq_nil_of_le ?_
    rw [Ssl.current, if_pos hpending]
    exact fetch_pending l h _ _

/-! ### The socket with its SSL object -/

def readBufSize : ℕ := 64 * 128

structure TlsConn where
  sock : Machine
  ssl : Ssl
  announced : Bytes

inductive TlsAction where
  /-- Bytes reach the kernel's buffer. -/
  | arrive (n : ℕ)
  /-- The handler of `EPOLLIN`, with the `errno` it finds. -/
  | read (errno : ℤ)
  | sock (a : Action)

/-- `epoll` is level-triggered on the kernel's buffer. -/
def Ssl.allows (l : Ssl) : Action → Bool
  | .recv _ _ _ => false
  | .event _ readable _ => !readable || decide (0 < l.kernel)
  | _ => true

/-- The step passes a `StreamRead`. -/
def announces (m m' : Machine) : Bool :=
  (m'.delivered.drop m.delivered.length).any fun x => x.event == .streamRead

open TlsConn

namespace TlsConn

def start (m : Machine) (records : List TlsRecord) : TlsConn where
  sock := m
  ssl := { inFlight := wires records, kernel := 0, started := 0, rest := records, pending := [] }
  announced := m.esi.inBuffer

def pass (c : TlsConn) (a : Action) (ssl : Ssl) : Option TlsConn :=
  (c.sock.step a).map fun sock =>
    { sock, ssl, announced := if announces c.sock sock then sock.esi.inBuffer else c.announced }

/-- One step. The handler of `EPOLLIN` calls `SSL_read` once. -/
def step (c : TlsConn) : TlsAction → Option TlsConn
  | .arrive n =>
    if n ≤ c.ssl.inFlight then
      some { c with ssl := { c.ssl with
        inFlight := c.ssl.inFlight - n, kernel := c.ssl.kernel + n } }
    else none
  | .read errno =>
    if c.sock.esi.closed then c.pass (.recv .other none errno) c.ssl
    else
      c.pass (.recv .other (c.ssl.read readBufSize).1 errno) (c.ssl.read readBufSize).2
  | .sock a => if c.ssl.allows a then c.pass a c.ssl else none

/-- Only the network can go on. -/
structure Quiet (c : TlsConn) : Prop where
  kernel : c.ssl.kernel = 0
  opened : c.sock.esi.closed = false
  idle : c.sock.poller = .idle

structure AllDelivered (before : Bytes) (records : List TlsRecord) (c : TlsConn) : Prop where
  inBuffer : c.sock.esi.inBuffer =
    before ++ plains (completed records (wires records - c.ssl.inFlight))
  announced : c.announced = c.sock.esi.inBuffer

structure InOrder (before : Bytes) (records done : List TlsRecord) (c : TlsConn) : Prop where
  secure : c.sock.esi.secure = true
  sslConnected : c.sock.esi.sslConnected = true
  decrypted : c.ssl.Decrypted records done
  conserved : c.sock.esi.inBuffer ++ c.ssl.pending = before ++ plains done
  announced : c.announced = c.sock.esi.inBuffer

variable {c c' : TlsConn} {before : Bytes} {a : TlsAction}

variable {b : Action} {m : Machine} {new rs : List TlsRecord} {r : TlsRecord}

lemma announces_of_received {m' : Machine} (hclear : m.esi.Clear)
    (hs : m.step b = some m') (h : m.received b ≠ []) : announces m m' = true := by
  cases Machine.step_effect hs with
  | recvHandshake hp hsec hssl => exact absurd ((hclear hsec).symm.trans hssl) nofun
  | @recvNothing writable bytes hs errno hp hssl hnone =>
    refine absurd ?_ h
    rcases hnone with hclosed | rfl
    · cases bytes with
      | none => rfl
      | some bs => simp [Machine.received, hclosed]
    · rfl
  | recvEof => exact absurd (by simp [Machine.received]) h
  | recvData => simp [announces, Machine.deliver]
  | _ => exact absurd rfl h

lemma InOrder.pass (h : InOrder before records done c)
    {ssl : Ssl} (hdecrypted : ssl.Decrypted records (done ++ new))
    (hbytes : c.ssl.pending ++ plains new = c.sock.received b ++ ssl.pending)
    (hs : c.pass b ssl = some c') : InOrder before records (done ++ new) c' := by
  obtain ⟨sock, hstep, rfl⟩ := Option.map_eq_some_iff.mp hs
  have hclear : c.sock.esi.Clear := fun _ => h.sslConnected
  obtain ⟨hinput, hsecure, hssl⟩ := input_step hclear hstep
  refine ⟨hsecure.trans h.secure, hssl.trans h.sslConnected, hdecrypted, ?_, ?_⟩
  · rw [hinput, plains_append, append_assoc, ← hbytes, ← append_assoc, h.conserved, append_assoc]
  · dsimp only
    split_ifs with htold
    · rfl
    · have hnone : c.sock.received b = [] := by
        by_contra hne
        exact htold (announces_of_received hclear hstep hne)
      rw [hinput, hnone, append_nil]
      exact h.announced

lemma received_of_allows (h : l.allows b = true) : m.received b = [] := by
  cases b with
  | recv => cases h
  | _ => rfl

/-- **Every step keeps the order.** -/
theorem InOrder.step (h : InOrder before records done c) (hs : c.step a = some c') :
    ∃ new, InOrder before records (done ++ new) c' := by
  cases a with
  | arrive n =>
    simp only [step] at hs
    split_ifs at hs with hn
    cases hs
    refine ⟨[], ?_⟩
    rw [append_nil]
    have hbytes := h.decrypted.bytes
    exact ⟨h.secure, h.sslConnected, ⟨h.decrypted.split, by dsimp only; omega,
      h.decrypted.short⟩, h.conserved, h.announced⟩
  | read errno =>
    simp only [step] at hs
    split_ifs at hs with hclosed
    · refine ⟨[], h.pass (by rw [append_nil]; exact h.decrypted) ?_ hs⟩
      exact append_nil _
    · obtain ⟨new, hdecrypted, hbytes⟩ := h.decrypted.read readBufSize
      refine ⟨new, h.pass hdecrypted (hbytes.trans ?_) hs⟩
      congr 1
      cases (c.ssl.read readBufSize).1 with
      | none => rfl
      | some bs => simp [Machine.received, hclosed]
  | sock b =>
    simp only [step] at hs
    split_ifs at hs with hallows
    refine ⟨[], h.pass (by rw [append_nil]; exact h.decrypted) ?_ hs⟩
    rw [received_of_allows hallows]
    exact append_nil _

lemma pending_step (h : InOrder before records done c)
    (hshort : ∀ r ∈ records, r.plain.length ≤ readBufSize) (hpending : c.ssl.pending = [])
    (hs : c.step a = some c') : c'.ssl.pending = [] := by
  have hpass {b : Action} {ssl : Ssl} (hssl : ssl.pending = []) (hs : c.pass b ssl = some c') :
      c'.ssl.pending = [] := by
    obtain ⟨sock, -, rfl⟩ := Option.map_eq_some_iff.mp hs
    exact hssl
  cases a with
  | arrive n =>
    simp only [step] at hs
    split_ifs at hs with hn
    cases hs
    exact hpending
  | read errno =>
    simp only [step] at hs
    split_ifs at hs with hclosed
    · exact hpass hpending hs
    · refine hpass (read_pending (fun r hr => hshort r ?_) hpending) hs
      rw [h.decrypted.split]
      exact mem_append_right done hr
  | sock b =>
    simp only [step] at hs
    split_ifs at hs with hallows
    exact hpass hpending hs

lemma InOrder.allDelivered_iff (h : InOrder before records done c) (hquiet : c.Quiet) :
    c.AllDelivered before records ↔ c.ssl.pending = [] := by
  have hcompleted : completed records (wires records - c.ssl.inFlight) = done := by
    have hbytes := h.decrypted.bytes
    rw [hquiet.kernel] at hbytes
    have harrived : wires records - c.ssl.inFlight = wires done + c.ssl.started := by omega
    rw [harrived, h.decrypted.split]
    exact completed_append done h.decrypted.short
  have hconserved := h.conserved
  constructor
  · rintro ⟨hinBuffer, -⟩
    rw [hcompleted] at hinBuffer
    rw [← hinBuffer] at hconserved
    exact append_right_eq_self.mp hconserved
  · intro hpending
    refine ⟨?_, h.announced⟩
    rw [hcompleted, ← hconserved, hpending, append_nil]

structure Awaits (rs : List TlsRecord) (c : TlsConn) : Prop where
  secure : c.sock.esi.secure = true
  sslConnected : c.sock.esi.sslConnected = true
  opened : c.sock.esi.closed = false
  registered : c.sock.esi.registered = true
  idle : c.sock.poller = .idle
  ssl : c.ssl = { inFlight := wires rs, kernel := 0, started := 0, rest := rs, pending := [] }

def oneRecord (r : TlsRecord) : List TlsAction :=
  [.arrive r.wire, .sock (.event none true false), .read 0]

lemma read_record (r : TlsRecord) (rs : List TlsRecord) (k n : ℕ) :
    (Ssl.mk k r.wire 0 (r :: rs) []).read n =
      (if r.plain = [] then none else some (r.plain.take n),
        { inFlight := k, kernel := 0, started := 0, rest := rs, pending := r.plain.drop n }) := by
  have hcurrent : (Ssl.mk k r.wire 0 (r :: rs) []).current =
      { inFlight := k, kernel := 0, started := 0, rest := rs, pending := r.plain } := by
    rw [Ssl.current, if_pos rfl, Ssl.fetch, if_neg (by simp)]
    dsimp only
    rw [Nat.zero_add, Nat.sub_self]
    split_ifs with hplain
    · rw [fetch_zero, hplain]
    · rfl
  rw [Ssl.read, hcurrent]
  dsimp only
  split_ifs with hplain
  · rw [hplain, drop_nil]
  · rfl

lemma pass_eq (ssl : Ssl) (hs : c.sock.step b = some m) :
    c.pass b ssl = some
      { sock := m, ssl
        announced := if announces c.sock m then m.esi.inBuffer else c.announced } := by
  rw [pass, hs]
  rfl

lemma recv_open (hp : m.poller = .input false) (hsecure : m.esi.secure = true)
    (hssl : m.esi.sslConnected = true) (hopen : m.esi.closed = false) {bytes : Option Bytes}
    (hbytes : bytes ≠ some []) (errno : ℤ) : ∃ m', m.step (.recv .other bytes errno) = some m' ∧
    m'.poller = .idle ∧ m'.esi.registered = m.esi.registered ∧
    m'.esi.closed = false ∧ m'.esi.secure = true ∧ m'.esi.sslConnected = true := by
  have hstep : m.step (.recv .other bytes errno) = m.recv .other bytes errno := rfl
  rw [hstep, Machine.recv, hp]
  dsimp only
  rw [if_neg (by simp [hssl]), if_neg (by simp [hopen])]
  rcases bytes with _ | _ | ⟨b, bs⟩
  · exact ⟨_, rfl, rfl, rfl, hopen, hsecure, hssl⟩
  · exact absurd rfl hbytes
  · exact ⟨_, rfl, rfl, rfl, hopen, hsecure, hssl⟩

lemma Awaits.oneRecord (h : Awaits (r :: rs) c) :
    ∃ c', run step c (oneRecord r) = some c' ∧ c'.ssl.pending = r.plain.drop readBufSize ∧
    c'.ssl.inFlight = wires rs ∧ c'.Quiet ∧ (r.plain.drop readBufSize = [] → Awaits rs c') := by
  obtain ⟨sock, ssl, announced⟩ := c
  obtain ⟨hsecure, hssl, hopen, hregistered, hidle, rfl⟩ := h
  dsimp only at hsecure hssl hopen hregistered hidle
  have hevent : sock.step (.event none true false) =
      some { sock with poller := .input false } := by
    simp [Machine.step, Machine.event, hidle, hregistered, hopen, Poller.ready]
  have hbytes : (if r.plain = [] then none else some (r.plain.take readBufSize)) ≠ some [] := by
    split_ifs with hplain
    · rintro ⟨⟩
    · simpa [readBufSize] using hplain
  obtain ⟨sock', hrecv, hidle', hregistered', hopen', hsecure', hssl'⟩ :=
    recv_open (m := { sock with poller := .input false }) rfl hsecure hssl hopen hbytes 0
  have harrive : step ⟨sock, ⟨wires (r :: rs), 0, 0, r :: rs, []⟩, announced⟩
      (.arrive r.wire) = some ⟨sock, ⟨wires rs, r.wire, 0, r :: rs, []⟩, announced⟩ := by
    simp [step]
  obtain ⟨announced', hreport⟩ : ∃ announced',
      step ⟨sock, ⟨wires rs, r.wire, 0, r :: rs, []⟩, announced⟩
        (.sock (.event none true false)) =
      some ⟨{ sock with poller := .input false }, ⟨wires rs, r.wire, 0, r :: rs, []⟩,
        announced'⟩ := by
    rw [step, if_pos (by simpa [Ssl.allows] using r.pos)]
    exact ⟨_, pass_eq _ hevent⟩
  obtain ⟨announced'', hread⟩ : ∃ announced'',
      step ⟨{ sock with poller := .input false }, ⟨wires rs, r.wire, 0, r :: rs, []⟩,
        announced'⟩ (.read 0) =
      some ⟨sock', ⟨wires rs, 0, 0, rs, r.plain.drop readBufSize⟩, announced''⟩ := by
    rw [step, if_neg (by simp [hopen]), read_record]
    exact ⟨_, pass_eq _ hrecv⟩
  refine ⟨⟨sock', ⟨wires rs, 0, 0, rs, r.plain.drop readBufSize⟩, announced''⟩, ?_, rfl, rfl,
    ⟨rfl, hopen', hidle'⟩, fun hfits => ?_⟩
  · simp only [TlsConn.oneRecord, run_cons_eq_some]
    exact ⟨_, harrive, _, hreport, _, hread, rfl⟩
  · exact ⟨hsecure', hssl', hopen', hregistered'.trans hregistered, hidle', by rw [hfits]⟩

lemma Awaits.holds_back (h : Awaits rs c) (hr : r ∈ rs) (hlong : readBufSize < r.plain.length) :
    ∃ as c', run step c as = some c' ∧ c'.Quiet ∧ c'.ssl.pending ≠ [] := by
  induction rs generalizing c with
  | nil => cases hr
  | cons r' rs ih =>
    obtain ⟨c', hrun, hpending, -, hquiet, hnext⟩ := h.oneRecord
    by_cases hfits : r'.plain.drop readBufSize = []
    · -- this record is read at once, so it is a later one
      have hlater : r ∈ rs := by
        refine (mem_cons.mp hr).resolve_left fun heq => ?_
        rw [← heq, drop_eq_nil_iff] at hfits
        omega
      obtain ⟨as, c'', hrun', hquiet', hpending'⟩ := ih (hnext hfits) hlater
      exact ⟨_, c'', run_append_eq_some.mpr ⟨c', hrun, hrun'⟩, hquiet', hpending'⟩
    · exact ⟨_, c', hrun, hquiet, ne_of_eq_of_ne hpending hfits⟩

def Orderly (before : Bytes) (records : List TlsRecord) (c : TlsConn) : Prop :=
  ∃ done, InOrder before records done c ∧
    ((∀ r ∈ records, r.plain.length ≤ readBufSize) → c.ssl.pending = [])

section

variable {m : Machine} (hsecure : m.esi.secure = true) (hssl : m.esi.sslConnected = true)

include hsecure hssl

lemma inOrder_start (records : List TlsRecord) :
    InOrder m.esi.inBuffer records [] (start m records) :=
  ⟨hsecure, hssl, ⟨rfl, by simp [start, wires], fun r _ => r.pos⟩, rfl, rfl⟩

lemma orderly_run {as : List TlsAction} (hrun : run step (start m records) as = some c) :
    Orderly m.esi.inBuffer records c := by
  refine run_invariant' ?_ ?_ hrun
  · rintro c a c' ⟨done, h, hpending⟩ hs
    obtain ⟨new, h'⟩ := h.step hs
    exact ⟨done ++ new, h', fun hshort => pending_step h hshort (hpending hshort) hs⟩
  · exact ⟨[], inOrder_start hsecure hssl records, fun _ => rfl⟩

end

end TlsConn

/-- **TLS input is not held back** if no record is longer than `READBUFSIZE`. -/
theorem tls_input_not_held_back_iff {m : Machine} (hstart : Established m)
    (hsecure : m.esi.secure = true) (hssl : m.esi.sslConnected = true)
    (records : List TlsRecord) :
    (∀ as c, run TlsConn.step (.start m records) as = some c → c.Quiet →
        c.AllDelivered m.esi.inBuffer records) ↔
      ∀ r ∈ records, r.plain.length ≤ readBufSize := by
  constructor
  · intro hall r hr
    by_contra hlong
    have hawaits : TlsConn.Awaits records (.start m records) :=
      ⟨hsecure, hssl, hstart.opened, hstart.registered, hstart.poller, rfl⟩
    obtain ⟨as, c, hrun, hquiet, hpending⟩ := hawaits.holds_back hr (not_le.mp hlong)
    obtain ⟨done, hinOrder, -⟩ := TlsConn.orderly_run hsecure hssl hrun
    exact hpending ((hinOrder.allDelivered_iff hquiet).mp (hall as c hrun hquiet))
  · intro hshort as c hrun hquiet
    obtain ⟨done, hinOrder, hpending⟩ := TlsConn.orderly_run hsecure hssl hrun
    exact (hinOrder.allDelivered_iff hquiet).mpr (hpending hshort)

def someTls : Machine :=
  let m := Machine.accepted [.localService 7#32] true
  { m with esi := { m.esi with sslConnected := true } }

lemma established_someTls : Established someTls :=
  ⟨rfl, rfl, rfl, rfl, rfl, rfl, rfl⟩

/-- A record of `n` zeros. -/
def zeros (n : ℕ) : TlsRecord := ⟨n + 22, List.replicate n 0, by omega⟩

theorem tls_input_not_held_back_zeros :
    ∃ as c, run TlsConn.step (.start someTls [zeros readBufSize]) as = some c ∧ c.Quiet ∧
      c.ssl.inFlight = 0 ∧ c.AllDelivered [] [zeros readBufSize] := by
  have hawaits : TlsConn.Awaits [zeros readBufSize] (.start someTls _) :=
    ⟨rfl, rfl, rfl, rfl, rfl, rfl⟩
  obtain ⟨c, hrun, -, hinFlight, hquiet, -⟩ := hawaits.oneRecord
  have hfits : ∀ r ∈ [zeros readBufSize], r.plain.length ≤ readBufSize :=
    forall_mem_singleton.mpr length_replicate.le
  exact ⟨_, c, hrun, hquiet, hinFlight,
    (tls_input_not_held_back_iff established_someTls rfl rfl _).mpr hfits _ c hrun hquiet⟩

/-- **One byte is held back.** -/
theorem tls_byte_held_back :
    ∃ as c, run TlsConn.step (.start someTls [zeros (readBufSize + 1)]) as = some c ∧
      c.Quiet ∧ c.ssl.inFlight = 0 ∧ ¬ c.AllDelivered [] [zeros (readBufSize + 1)] := by
  have hawaits : TlsConn.Awaits [zeros (readBufSize + 1)] (.start someTls _) :=
    ⟨rfl, rfl, rfl, rfl, rfl, rfl⟩
  obtain ⟨c, hrun, hpending, hinFlight, hquiet, -⟩ := hawaits.oneRecord
  obtain ⟨done, hinOrder, -⟩ := TlsConn.orderly_run (m := someTls) rfl rfl hrun
  refine ⟨_, c, hrun, hquiet, hinFlight, fun hall => ?_⟩
  have hnone := (hinOrder.allDelivered_iff hquiet).mp hall
  rw [hpending, drop_eq_nil_iff] at hnone
  simp [zeros] at hnone

end Megatron.Socket
