import Megatron.Corelib.IoBuffer
import Megatron.Mysql.Source

/-!
Transactions (`st_DBH` and `st_TRANSACTION` of `corelib/DBH.cpp`) over `DBH_mysql::exec` of
`modules/mysql/mysqlService.cpp` and the pool of connections. The answers of the client library
are parameters of the statements, and what the server does with them is a `Dialect`.

* `transaction_atomic_iff`: a scope with an `st_DBH` is atomic and hands its connection back if and
  only if no statement fails, since the destructor commits in every case.
* `stTransaction_atomic`: a scope with an `st_TRANSACTION` is atomic, whatever fails.
-/

namespace Megatron.Mysql

variable {σ : Type}

/-- What `mysql_store_result` and `mysql_field_count` return. -/
inductive SetReply where
  | table (rows : List (List (Option Bytes)))
  | nothing (fieldCount : ℕ)
  deriving DecidableEq, Repr

inductive Results where
  /-- It returns -1. -/
  | last (set : SetReply)
  /-- It returns an error. -/
  | failed (set : SetReply)
  /-- It returns 0. -/
  | more (set : SetReply) (rest : Results)
  deriving DecidableEq, Repr

structure Reply where
  /-- The value of `mysql_real_query`. -/
  status : ℤ
  results : Results
  deriving DecidableEq, Repr

/-- The exceptions of `exec`. -/
inductive ExecError where
  /-- `exec: mysql_real_query failed on query`. -/
  | queryFailed
  /-- `exec failed: multiresults returned for query`. -/
  | multiresults
  deriving DecidableEq, Repr

def SetReply.read : SetReply → Option (List (List Bytes) × ℕ)
  | .table rows => some (rows.map fun row => row.map fun v => v.getD [], 1)
  | .nothing fieldCount => if fieldCount = 0 then some ([], 0) else none

def Results.read : Results → Option (List (List Bytes) × ℕ)
  | .last set => set.read
  | .failed set => set.read.bind fun _ => none
  | .more set rest => do
      let (values, n) ← set.read
      let (values', n') ← rest.read
      pure (values ++ values', n + n')

/-- `DBH_mysql::exec(const std::string&)`: whether the connection is lost, and the result. -/
def Reply.exec (r : Reply) (lost : Bool) : Bool × Except ExecError (List (List Bytes)) :=
  if r.status ≠ 0 then (true, .error .queryFailed)
  else
    match r.results.read with
    | none => (true, .error .queryFailed)
    | some (values, setsCnt) =>
      if 1 < setsCnt then (lost, .error .multiresults) else (lost, .ok values)

/-- `exec` returns. -/
def Reply.succeeds (r : Reply) : Bool := (r.exec false).2.toBool

open Reply

lemma Reply.exec_result (r : Reply) (lost : Bool) : (r.exec lost).2 = (r.exec false).2 := by
  rw [exec, exec]
  split_ifs
  · rfl
  · cases r.results.read with
    | none => rfl
    | some p =>
      obtain ⟨values, setsCnt⟩ := p
      simp only
      split_ifs <;> rfl

lemma Reply.lost_of_succeeds {r : Reply} (h : r.succeeds = true) (lost : Bool) :
    (r.exec lost).1 = lost := by
  rw [succeeds, ← exec_result r lost] at h
  rw [exec] at h ⊢
  split_ifs at h ⊢
  · cases h
  · cases hread : r.results.read with
    | none =>
      rw [hread] at h
      cases h
    | some p =>
      obtain ⟨values, setsCnt⟩ := p
      simp only
      split_ifs <;> rfl

lemma Reply.status_of_succeeds {r : Reply} (h : r.succeeds = true) : r.status = 0 := by
  by_contra hstatus
  rw [succeeds, exec, if_pos hstatus] at h
  cases h

structure Statement (σ : Type) where
  sql : σ
  reply : Reply
  deriving DecidableEq, Repr

/-! ### The server -/

/-- The statements that are committed, and those of the open transaction. -/
structure Server (σ : Type) where
  committed : List σ
  pending : Option (List σ)
  deriving DecidableEq, Repr

namespace Server

variable (s : Server σ)

/-- `BEGIN`; it commits a transaction that is still open. -/
def begin : Server σ := ⟨s.committed ++ s.pending.getD [], some []⟩

/-- `COMMIT`. -/
def commit : Server σ := ⟨s.committed ++ s.pending.getD [], none⟩

/-- `ROLLBACK`. -/
def rollback : Server σ := ⟨s.committed, none⟩

end Server

/-- What the server does with a statement. The statements that change data only are `revocable`;
others (`COMMIT`, `BEGIN`, `CREATE TABLE`) may end the transaction or do anything else. -/
structure Dialect (σ : Type) where
  execute : σ → Server σ → Server σ
  revocable : σ → Prop
  /-- Inside a transaction, changes are kept apart until it ends. -/
  execute_of_pending : ∀ x committed xs, revocable x →
    execute x ⟨committed, some xs⟩ = ⟨committed, some (xs ++ [x])⟩

/-- A connection: the server at its other end, and `bIsLost`. -/
structure Connection (σ : Type) where
  server : Server σ
  lost : Bool
  deriving DecidableEq, Repr

namespace Connection

def exec (c : Connection σ) (effect : Server σ → Server σ) (r : Reply) :
    Connection σ × Except ExecError Unit :=
  let lostResult := r.exec c.lost
  (⟨if r.status = 0 then effect c.server else c.server, lostResult.1⟩, lostResult.2.map fun _ => ())

/-- The statements of a scope, up to the first one that throws. -/
def execAll (D : Dialect σ) (c : Connection σ) :
    List (Statement σ) → Connection σ × Except ExecError Unit
  | [] => (c, .ok ())
  | x :: body =>
    match c.exec (D.execute x.sql) x.reply with
    | (c, .error e) => (c, .error e)
    | (c, .ok _) => c.execAll D body

end Connection

/-! ### Scopes -/

inductive Ending where
  /-- The constructor has thrown. -/
  | notBegun (e : ExecError)
  | left (result : Except ExecError Unit)
  | terminated
  deriving Repr

/-- The end of a scope with an `st_DBH`: its connection, the pool, and how it was left. -/
structure Scope (σ : Type) where
  connection : Connection σ
  pool : Option Source
  ending : Ending

/-- The member `transactionResult`, which is never changed. -/
def transactionResult : Bool := true

/-- A scope with an `st_DBH` whose caller has got the connection `h` from the pool. If the
constructor throws, no destructor runs and the handle is let go. -/
def stDBH (D : Dialect σ) (isTransaction : Bool) (pool : Source) (caller h : ℕ) (server : Server σ)
    (first last : Reply) (body : List (Statement σ)) : Scope σ :=
  let c : Connection σ := ⟨server, pool.lost h⟩
  match if isTransaction then c.exec Server.begin first else (c, .ok ()) with
  | (c, .error e) => ⟨c, pool.release caller h, .notBegun e⟩
  | (c, .ok _) =>
    let (c, result) := c.execAll D body
    let ended :=
      if isTransaction then
        if transactionResult then c.exec Server.commit last else c.exec Server.rollback last
      else (c, .ok ())
    match ended with
    | (c, .error _) => ⟨c, some pool, .terminated⟩
    | (c, .ok _) =>
      ⟨c, (pool.exec caller h c.lost).bind fun pool => pool.unget caller h, .left result⟩

/-- The member `exitState` of `st_TRANSACTION`. -/
inductive ExitState where
  | undef
  | commit
  | rollback
  deriving DecidableEq, Repr

/-- A scope with an `st_TRANSACTION`; `commit()` ends its body. -/
def stTransaction (D : Dialect σ) (c : Connection σ) (first last : Reply)
    (body : List (Statement σ)) : Connection σ × Ending :=
  match c.exec Server.begin first with
  | (c, .error e) => (c, .notBegun e)
  | (c, .ok _) =>
    let (c, result) := c.execAll D body
    let exitState := match result with
      | .ok _ => ExitState.commit
      | .error _ => ExitState.rollback
    let ended : Connection σ × Except ExecError Unit := match exitState with
      | .undef => (c, .ok ())
      | .commit => c.exec Server.commit last
      | .rollback => c.exec Server.rollback last
    match ended with
    | (c, .error _) => (c, .terminated)
    | (c, .ok _) => (c, .left result)

/-! ### What a body does -/

def executed : List (Statement σ) → List σ
  | [] => []
  | x :: body =>
    if x.reply.succeeds then x.sql :: executed body
    else if x.reply.status = 0 then [x.sql]
    else []

lemma exec_result (c : Connection σ) (effect : Server σ → Server σ) (r : Reply) :
    (∃ u, (c.exec effect r).2 = .ok u) ↔ r.succeeds = true := by
  rw [Connection.exec, Reply.succeeds]
  simp only [Reply.exec_result r c.lost]
  cases (r.exec false).2 <;> simp [Except.map, Except.toBool]

lemma exec_of_succeeds (c : Connection σ) (effect : Server σ → Server σ) {r : Reply}
    (h : r.succeeds = true) : c.exec effect r = (⟨effect c.server, c.lost⟩, .ok ()) := by
  obtain ⟨u, hu⟩ := (exec_result c effect r).mpr h
  refine Prod.ext ?_ hu
  rw [Connection.exec, if_pos (status_of_succeeds h), lost_of_succeeds h]

lemma exec_of_not_succeeds (c : Connection σ) (effect : Server σ → Server σ) {r : Reply}
    (h : r.succeeds = false) : ∃ e, c.exec effect r =
      (⟨if r.status = 0 then effect c.server else c.server, (r.exec c.lost).1⟩, .error e) := by
  cases hres : (c.exec effect r).2 with
  | ok u =>
    have hs := (exec_result c effect r).mp ⟨u, hres⟩
    rw [h] at hs
    cases hs
  | error e => exact ⟨e, Prod.ext rfl hres⟩

/-- **The body of a transaction**: what is pending after it, and whether the connection is lost. -/
lemma execAll_spec (D : Dialect σ) (committed xs : List σ) (lost : Bool) {body : List (Statement σ)}
    (hbody : ∀ x ∈ body, D.revocable x.sql) :
    ∃ lost' result, (Connection.mk ⟨committed, some xs⟩ lost).execAll D body =
        (⟨⟨committed, some (xs ++ executed body)⟩, lost'⟩, result) ∧
      (result = .ok () ↔ ∀ x ∈ body, x.reply.succeeds = true) ∧
      (result = .ok () → lost' = lost) ∧
      ((∃ x rest, body = x :: rest ∧ x.reply.status ≠ 0) → lost' = true) := by
  induction body generalizing xs lost with
  | nil => exact ⟨lost, .ok (), by simp [Connection.execAll, executed], by simp, by simp, by simp⟩
  | cons x body ih =>
    set c : Connection σ := ⟨⟨committed, some xs⟩, lost⟩ with hc
    obtain ⟨hrev, hbody⟩ := List.forall_mem_cons.mp hbody
    have hexecute : D.execute x.sql c.server = ⟨committed, some (xs ++ [x.sql])⟩ :=
      D.execute_of_pending _ _ _ hrev
    cases hx : x.reply.succeeds with
    | true =>
      have hexec := exec_of_succeeds c (D.execute x.sql) hx
      obtain ⟨lost', result, hall, hresult, hkept, -⟩ := ih (xs ++ [x.sql]) lost hbody
      refine ⟨lost', result, ?_, ?_, hkept, ?_⟩
      · rw [Connection.execAll, hexec, executed, if_pos hx, hexecute]
        simpa using hall
      · rw [hresult, List.forall_mem_cons, hx]
        simp
      · rintro ⟨y, rest, heq, hy⟩
        cases heq
        exact absurd (status_of_succeeds hx) hy
    | false =>
      obtain ⟨e, hexec⟩ := exec_of_not_succeeds c (D.execute x.sql) hx
      refine ⟨(x.reply.exec lost).1, .error e, ?_, by simp [hx], nofun, ?_⟩
      · simp only [Connection.execAll, hexec, executed, hx, hexecute]
        by_cases hstatus : x.reply.status = 0 <;> simp [hstatus, hc]
      · rintro ⟨y, rest, heq, hy⟩
        cases heq
        rw [exec, if_pos hy]

lemma executed_eq_nil_iff (body : List (Statement σ)) :
    executed body = [] ↔ body = [] ∨ ∃ x rest, body = x :: rest ∧ x.reply.status ≠ 0 := by
  cases body with
  | nil => simp [executed]
  | cons x rest =>
    rw [executed]
    cases hx : x.reply.succeeds with
    | true => simp [status_of_succeeds hx]
    | false => by_cases hstatus : x.reply.status = 0 <;> simp [hstatus]

lemma executed_of_succeeds {body : List (Statement σ)}
    (h : ∀ x ∈ body, x.reply.succeeds = true) : executed body = body.map Statement.sql := by
  induction body with
  | nil => rfl
  | cons x body ih =>
    obtain ⟨hx, hbody⟩ := List.forall_mem_cons.mp h
    rw [executed, if_pos hx, ih hbody, List.map_cons]

/-! ### Atomicity -/

/-- All statements of the scope are committed if none fails, and else none is. -/
structure Atomic (server : Server σ) (body : List (Statement σ)) (after : Server σ) : Prop where
  closed : after.pending = none
  all : (∀ x ∈ body, x.reply.succeeds = true) →
    after.committed = server.begin.committed ++ body.map Statement.sql
  none : (∃ x ∈ body, x.reply.succeeds = false) → after.committed = server.begin.committed

/-- The caller has given the connection away, and `container_MX` has it once more. -/
def HandedBack (pool : Source) (caller h : ℕ) (after : Option Source) : Prop :=
  ∃ s, after = some s ∧ s.held = pool.held.erase (caller, h) ∧ s.idle = pool.idle ++ [h]

section

variable {D : Dialect σ} {pool : Source} {caller h : ℕ} {first last : Reply}
  {body : List (Statement σ)}

lemma handedBack_iff (hheld : (caller, h) ∈ pool.held) (hvalid : pool.lost h = false)
    (lost : Bool) : HandedBack pool caller h
      ((pool.exec caller h lost).bind fun pool => pool.unget caller h) ↔ lost = false := by
  rw [Source.exec, if_pos hheld, Option.bind_some, Source.unget, if_pos hheld]
  cases lost <;> simp [HandedBack, hvalid]

lemma stDBH_spec (server : Server σ) (hheld : (caller, h) ∈ pool.held)
    (hvalid : pool.lost h = false) (hfirst : first.succeeds = true) (hlast : last.succeeds = true)
    (hbody : ∀ x ∈ body, D.revocable x.sql) :
    let scope := stDBH D true pool caller h server first last body
    scope.connection.server = ⟨server.begin.committed ++ executed body, none⟩ ∧
      ((∀ x ∈ body, x.reply.succeeds = true) → HandedBack pool caller h scope.pool) ∧
      ((∃ x rest, body = x :: rest ∧ x.reply.status ≠ 0) →
        ¬ HandedBack pool caller h scope.pool) := by
  obtain ⟨lost, result, hall, hresult, hkept, hlost⟩ :=
    execAll_spec D server.begin.committed [] (pool.lost h) hbody
  have hall' : (Connection.mk server.begin (pool.lost h)).execAll D body =
      (⟨⟨server.begin.committed, some (executed body)⟩, lost⟩, result) := hall
  simp only [stDBH, if_true, exec_of_succeeds _ _ hfirst, hall', transactionResult,
    exec_of_succeeds _ _ hlast, handedBack_iff hheld hvalid]
  refine ⟨rfl, fun hsucceeds => (hkept (hresult.mpr hsucceeds)).trans hvalid, fun hfails => ?_⟩
  rw [hlost hfails]
  exact Bool.true_eq_false_eq_False

/-- **Transactions of `st_DBH`** are atomic and hand their connection back if no statement fails,
and only then. -/
theorem transaction_atomic_iff (server : Server σ) (hheld : (caller, h) ∈ pool.held)
    (hvalid : pool.lost h = false) (hfirst : first.succeeds = true) (hlast : last.succeeds = true)
    (hbody : ∀ x ∈ body, D.revocable x.sql) :
    let scope := stDBH D true pool caller h server first last body
    Atomic server body scope.connection.server ∧ HandedBack pool caller h scope.pool ↔
      ∀ x ∈ body, x.reply.succeeds = true := by
  intro scope
  obtain ⟨hserver, hback, hnotBack⟩ := stDBH_spec server hheld hvalid hfirst hlast hbody
  constructor
  · rintro ⟨hatomic, hhanded⟩
    by_contra hnot
    push Not at hnot
    obtain ⟨x, hx, hxfails⟩ := hnot
    -- nothing is committed only if the first statement has lost the connection
    have hnone := hatomic.none ⟨x, hx, by simpa using hxfails⟩
    rw [hserver] at hnone
    rcases (executed_eq_nil_iff body).mp (List.append_right_eq_self.mp hnone) with rfl | hlost
    · cases hx
    · exact hnotBack hlost hhanded
  · intro hall
    refine ⟨⟨by rw [hserver], fun _ => ?_, fun ⟨x, hx, hxfails⟩ => ?_⟩, hback hall⟩
    · rw [hserver, executed_of_succeeds hall]
    · rw [hall x hx] at hxfails
      cases hxfails

end

/-- A reply without an error and without rows. -/
def okReply : Reply := ⟨0, .last (.nothing 0)⟩

def failedReply : Reply := ⟨1, .last (.nothing 0)⟩

/-- A server for which every number is an insertion. -/
def insertions : Dialect ℕ where
  execute x s := match s.pending with
    | some xs => { s with pending := some (xs ++ [x]) }
    | none => { s with committed := s.committed ++ [x] }
  revocable _ := True
  execute_of_pending _ _ _ _ := rfl

/-- The pool after its first `get`. -/
def oneConnection : Source := { Source.initial with held := [(0, 0)], created := 1 }

theorem transaction_atomic_twoStatements :
    let scope := stDBH insertions true oneConnection 0 0 ⟨[], none⟩ okReply okReply
      [⟨1, okReply⟩, ⟨2, okReply⟩]
    Atomic ⟨[], none⟩ [⟨1, okReply⟩, ⟨2, okReply⟩] scope.connection.server ∧
      HandedBack oneConnection 0 0 scope.pool :=
  (transaction_atomic_iff ⟨[], none⟩ (List.mem_singleton_self _) rfl rfl rfl
    fun _ _ => trivial).mpr (by decide)

/-- **A failed transaction is committed** up to the statement that fails, and its connection is not
handed back. -/
theorem failed_transaction_committed :
    let scope := stDBH insertions true oneConnection 0 0 ⟨[], none⟩ okReply okReply
      [⟨1, okReply⟩, ⟨2, failedReply⟩]
    scope.ending = .left (.error .queryFailed) ∧ scope.connection.server.committed = [1] ∧
      ¬ Atomic ⟨[], none⟩ [⟨1, okReply⟩, ⟨2, failedReply⟩] scope.connection.server ∧
      ¬ HandedBack oneConnection 0 0 scope.pool := by
  refine ⟨rfl, rfl, fun h => ?_, ?_⟩
  · have hcommitted : [1] = ([] : List ℕ) := h.none ⟨⟨2, failedReply⟩, by simp, rfl⟩
    cases hcommitted
  · rintro ⟨s, hs, -, hidle⟩
    cases hs
    cases hidle

/-- **Transactions of `st_TRANSACTION`** are atomic, whatever fails. -/
theorem stTransaction_atomic {D : Dialect σ} (c : Connection σ) {first last : Reply}
    (hfirst : first.succeeds = true) (hlast : last.succeeds = true) {body : List (Statement σ)}
    (hbody : ∀ x ∈ body, D.revocable x.sql) :
    Atomic c.server body (stTransaction D c first last body).1.server := by
  obtain ⟨lost, result, hall, hresult, -⟩ :=
    execAll_spec D c.server.begin.committed [] c.lost hbody
  have hall' : (Connection.mk c.server.begin c.lost).execAll D body =
      (⟨⟨c.server.begin.committed, some (executed body)⟩, lost⟩, result) := hall
  cases result with
  | ok u =>
    have hsucceeds := hresult.mp rfl
    simp only [stTransaction, exec_of_succeeds _ _ hfirst, hall', exec_of_succeeds _ _ hlast]
    refine ⟨rfl, fun _ => ?_, fun ⟨x, hx, hfails⟩ => ?_⟩
    · rw [← executed_of_succeeds hsucceeds]
      rfl
    · rw [hsucceeds x hx] at hfails
      cases hfails
  | error e =>
    simp only [stTransaction, exec_of_succeeds _ _ hfirst, hall', exec_of_succeeds _ _ hlast]
    refine ⟨rfl, fun hsucceeds => ?_, fun _ => rfl⟩
    cases hresult.mpr hsucceeds

theorem stTransaction_atomic_failedStatement :
    Atomic ⟨[], none⟩ [⟨1, okReply⟩, ⟨2, failedReply⟩]
      (stTransaction insertions ⟨⟨[], none⟩, false⟩ okReply okReply
        [⟨1, okReply⟩, ⟨2, failedReply⟩]).1.server :=
  stTransaction_atomic ⟨⟨[], none⟩, false⟩ rfl rfl fun _ _ => trivial

end Megatron.Mysql
