import Megatron.Corelib.Msockaddr
import Megatron.Library.Runs
import Megatron.Library.Table
import Mathlib.Tactic.Simps.Basic

/-!
The handlers of the RPC service (`modules/rpc/rpcService.cpp`) as they run in
many threads at once.
-/

namespace Megatron.Concurrent

open Library Function

/-- The address of `rpcEvent::SendPacket` or the socket of `rpcEvent::PassPacket`. -/
inductive Dest where
  | addr (addressTo : Msockaddr)
  | sock (socketIdTo : ℕ)
  deriving DecidableEq, Repr

/-- A packet, with the thread that has submitted it and its destination. -/
structure Packet where
  caller : ℕ
  dest : Dest
  buf : Bytes
  deriving DecidableEq, Repr

/-- The class `RPC::Session`, without its socket id. -/
structure Session where
  esi : Option ℕ
  outCache : List Packet
  deriving DecidableEq, Repr

inductive Op where
  /-- `on_SendPacket`: find the session in `sa2sess`. -/
  | sendLookup (a : Msockaddr) (p : Packet)
  | newSession (a : Msockaddr) (p : Packet)
  /-- `on_SendPacket`: insert the new session. -/
  | sendInsert (a : Msockaddr) (s : ℕ) (p : Packet)
  /-- `on_SendPacket`: send `oscarEvent::Connect`. -/
  | connect (a : Msockaddr) (s : ℕ) (p : Packet)
  /-- `on_PassPacket`: find the session in `sock2sess`. -/
  | passLookup (s : ℕ) (p : Packet)
  /-- `on_PassPacket`: append to `passCache`. -/
  | passPush (s : ℕ) (p : Packet)
  /-- `addSendPacket`: test `esi`. -/
  | test (s : ℕ) (p : Packet) (own : Bool)
  /-- `addSendPacket`: append to `outCache`. -/
  | push (s : ℕ) (p : Packet) (own : Bool)
  /-- Send `oscarEvent::SendPacket`. -/
  | write (s : ℕ) (p : Packet) (own : Bool)
  /-- `flushOutCache`: move `outCache`. -/
  | take (s : ℕ)
  /-- `on_Connected`: find the session in `sa2sess`. -/
  | connLookup (a : Msockaddr) (s : ℕ)
  /-- `on_Connected`: notify the subscribers. -/
  | connNotify (session s : ℕ)
  /-- `on_Connected`: set `esi`. -/
  | connSet (session s : ℕ)
  /-- `on_Accepted`: insert the new session into `sock2sess`. -/
  | acceptInsert (s : ℕ)
  /-- `on_Accepted`: move the entry of `passCache`. -/
  | drain (s : ℕ)
  /-- `on_Accepted`: notify the subscribers. -/
  | acceptNotify (s : ℕ)
  /-- `on_Disaccepted`: notify the subscribers. -/
  | disNotify (s : ℕ)
  /-- `on_Disaccepted`: erase the entry of `sock2sess`. -/
  | disErase (s : ℕ)

structure State where
  nextSocketId : ℕ
  /-- What a socket id has been drawn for. -/
  madeFor : ℕ → Option Dest
  sess : ℕ → Session
  /-- A map by equality: the `std::map` while `Msockaddr.OrderedIn` holds of what is looked up. -/
  sa2sess : Msockaddr → Option ℕ
  sock2sess : ℕ → Bool
  passCache : ℕ → List Packet
  connects : List (Msockaddr × ℕ)
  acceptedDue : ℕ → Bool
  disacceptedDue : ℕ → Bool
  /-- The sockets that `on_Disaccepted` has erased. -/
  disaccepted : ℕ → Bool
  /-- The packets written, each with its socket. -/
  log : List (ℕ × Packet)
  submitted : List Packet
  threads : ℕ → List Op

def State.initial : State where
  nextSocketId := 0
  madeFor _ := none
  sess _ := ⟨none, []⟩
  sa2sess _ := none
  sock2sess _ := false
  passCache _ := []
  connects := []
  acceptedDue _ := false
  disacceptedDue _ := false
  disaccepted _ := false
  log := []
  submitted := []
  threads _ := []

def exec (st : State) : Op → State
  | .newSession a _ =>
    { st with
      nextSocketId := st.nextSocketId + 1
      madeFor := update st.madeFor st.nextSocketId (some (.addr a)) }
  | .sendInsert a s _ => { st with sa2sess := insertNew st.sa2sess a s }
  | .connect a s _ => { st with connects := st.connects ++ [(a, s)] }
  | .passPush s p => { st with passCache := update st.passCache s (st.passCache s ++ [p]) }
  | .push s p _ =>
    let S := { st.sess s with outCache := (st.sess s).outCache ++ [p] }
    { st with sess := update st.sess s S }
  | .write s p _ => { st with log := st.log ++ ((st.sess s).esi.map fun esi => (esi, p)).toList }
  | .take s => { st with sess := update st.sess s { st.sess s with outCache := [] } }
  | .connSet session s =>
    { st with sess := update st.sess session { st.sess session with esi := some s } }
  | .acceptInsert s =>
    { st with
      sess := update st.sess s ⟨some s, []⟩
      sock2sess := update st.sock2sess s true }
  | .drain s => { st with passCache := update st.passCache s [] }
  | .disErase s =>
    { st with
      sock2sess := update st.sock2sess s false
      disaccepted := update st.disaccepted s true }
  | .sendLookup _ _ | .passLookup _ _ | .test _ _ _ | .connLookup _ _ | .connNotify _ _
  | .acceptNotify _ | .disNotify _ => st

def next (st : State) : Op → Option (List Op)
  | .sendLookup a p =>
    match st.sa2sess a with
    | some s => some [.test s p true]
    | none => some [.newSession a p]
  | .newSession a p => some [.sendInsert a st.nextSocketId p]
  | .sendInsert a s p => some [.connect a s p]
  | .connect _ s p => some [.test s p true]
  | .passLookup s p => if st.sock2sess s then some [.test s p true] else some [.passPush s p]
  | .test s p own =>
    match (st.sess s).esi with
    | none => some [.push s p own]
    | some _ => some [.take s, .write s p own]
  | .write s _ _ =>
    match (st.sess s).esi with
    | none => none
    | some _ => some []
  | .take s => some ((st.sess s).outCache.map fun p => .write s p false)
  | .connLookup a s =>
    match st.sa2sess a with
    | none => none
    | some session => some [.connNotify session s]
  | .connNotify session s => some [.connSet session s]
  | .connSet session _ => some [.take session]
  | .acceptInsert s => some [.drain s]
  | .drain s => some (((st.passCache s).map fun p => .test s p false) ++ [.acceptNotify s])
  | .disNotify s => some [.disErase s]
  | .passPush _ _ | .push _ _ _ | .acceptNotify _ | .disErase _ => some []

inductive Action where
  | sendPacket (t : ℕ) (addressTo : Msockaddr) (buf : Bytes)
  | passPacket (t : ℕ) (socketIdTo : ℕ) (buf : Bytes)
  | accept
  | accepted (t s : ℕ)
  | disaccepted (t s : ℕ)
  | connected (t : ℕ) (a : Msockaddr) (s : ℕ)
  | exec (t : ℕ)

@[simps] def State.setOps (st : State) (t : ℕ) (ops : List Op) : State :=
  { st with threads := update st.threads t ops }

def State.start (st : State) (t : ℕ) (op : Op) : Option State :=
  match st.threads t with
  | [] => some (st.setOps t [op])
  | _ => none

/-- One step; `none` if it is not possible. -/
def step (st : State) : Action → Option State
  | .sendPacket t a buf =>
    let p : Packet := ⟨t, .addr a, buf⟩
    { st with submitted := st.submitted ++ [p] }.start t (.sendLookup a p)
  | .passPacket t s buf =>
    let p : Packet := ⟨t, .sock s, buf⟩
    { st with submitted := st.submitted ++ [p] }.start t (.passLookup s p)
  | .accept =>
    let s := st.nextSocketId
    some { st with
      nextSocketId := s + 1
      madeFor := update st.madeFor s (some (.sock s))
      acceptedDue := update st.acceptedDue s true
      disacceptedDue := update st.disacceptedDue s true }
  | .accepted t s =>
    if st.acceptedDue s then
      { st with acceptedDue := update st.acceptedDue s false }.start t (.acceptInsert s)
    else none
  | .disaccepted t s =>
    if st.disacceptedDue s then
      { st with disacceptedDue := update st.disacceptedDue s false }.start t
        (.disNotify s)
    else none
  | .connected t a s =>
    if (a, s) ∈ st.connects then
      { st with connects := st.connects.erase (a, s) }.start t (.connLookup a s)
    else none
  | .exec t =>
    match st.threads t with
    | [] => none
    | op :: rest =>
      -- an exception ends the handler
      some ((exec st op).setOps t (((next st op).map fun new => new ++ rest).getD []))

def execs (t n : ℕ) : List Action := List.replicate n (.exec t)

/-! ### What a step does -/

inductive Next (st : State) : Op → List Op → Prop
  | sendFound : st.sa2sess a = some s → Next st (.sendLookup a p) [.test s p true]
  | sendNotFound : st.sa2sess a = none → Next st (.sendLookup a p) [.newSession a p]
  | newSession : Next st (.newSession a p) [.sendInsert a st.nextSocketId p]
  | sendInsert : Next st (.sendInsert a s p) [.connect a s p]
  | connect : Next st (.connect a s p) [.test s p true]
  | passFound : st.sock2sess s = true → Next st (.passLookup s p) [.test s p true]
  | passNotFound : st.sock2sess s = false → Next st (.passLookup s p) [.passPush s p]
  | testNone : (st.sess s).esi = none → Next st (.test s p own) [.push s p own]
  | testSome : (st.sess s).esi = some e → Next st (.test s p own) [.take s, .write s p own]
  | write : (st.sess s).esi = some e → Next st (.write s p own) []
  | take : Next st (.take s) ((st.sess s).outCache.map fun p => .write s p false)
  | connLookup : st.sa2sess a = some session → Next st (.connLookup a s) [.connNotify session s]
  | connNotify : Next st (.connNotify session s) [.connSet session s]
  | connSet : Next st (.connSet session s) [.take session]
  | acceptInsert : Next st (.acceptInsert s) [.drain s]
  | drain : Next st (.drain s)
      (((st.passCache s).map fun p => .test s p false) ++ [.acceptNotify s])
  | disNotify : Next st (.disNotify s) [.disErase s]
  | passPush : Next st (.passPush s p) []
  | push : Next st (.push s p own) []
  | acceptNotify : Next st (.acceptNotify s) []
  | disErase : Next st (.disErase s) []

section

variable {st st' : State} {t : ℕ} {op : Op} {new ops rest : List Op} {P : Op → Prop}

/-- **How a handler can go on.** -/
lemma next_cases (h : next st op = some new) : Next st op new := by
  cases op with
  | sendLookup a p =>
    rw [next] at h
    split at h
    · next s hs =>
        cases h
        exact .sendFound hs
    · next hnone =>
        cases h
        exact .sendNotFound hnone
  | newSession a p | sendInsert a s p | connect a s p | take s | connNotify session s
  | connSet session s | acceptInsert s | drain s | disNotify s | passPush s p | push s p own
  | acceptNotify s | disErase s =>
    cases h
    constructor
  | passLookup s p =>
    rw [next] at h
    split_ifs at h with hs
    · cases h
      exact .passFound hs
    · cases h
      exact .passNotFound (Bool.eq_false_of_not_eq_true hs)
  | test s p own =>
    rw [next] at h
    split at h
    · next hnone =>
        cases h
        exact .testNone hnone
    · next e he =>
        cases h
        exact .testSome he
  | write s p own =>
    rw [next] at h
    split at h
    · cases h
    · next e he =>
        cases h
        exact .write he
  | connLookup a s =>
    rw [next] at h
    split at h
    · cases h
    · next session hs =>
        cases h
        exact .connLookup hs

def State.HasOp (st : State) (P : Op → Prop) : Prop := ∃ t, ∃ op ∈ st.threads t, P op

def State.Idle (st : State) : Prop := ∀ t, st.threads t = []

lemma State.Idle.not_hasOp (h : st.Idle) : ¬ st.HasOp P := by
  rintro ⟨t, op, hop, -⟩
  simp [h t] at hop

lemma start_eq_some : st.start t op = some st' ↔ st.threads t = [] ∧ st' = st.setOps t [op] := by
  rw [State.start]
  cases st.threads t <;> simp [eq_comm]

lemma step_exec_eq_some : step st (.exec t) = some st' ↔ ∃ op rest, st.threads t = op :: rest ∧
      st' = (exec st op).setOps t (((next st op).map fun new => new ++ rest).getD []) := by
  rw [step]
  cases st.threads t <;> simp [eq_comm]

@[simp] lemma exec_threads (st : State) (op : Op) : (exec st op).threads = st.threads := by
  cases op <;> rfl

@[simp] lemma exec_submitted (st : State) (op : Op) : (exec st op).submitted = st.submitted := by
  cases op <;> rfl

lemma forall_ops_setOps (hold : ∀ t, ∀ op ∈ st.threads t, P op) (hnew : ∀ op ∈ ops, P op) :
    ∀ t', ∀ op ∈ (st.setOps t ops).threads t', P op :=
  (forall_update_iff st.threads fun _ ops => ∀ op ∈ ops, P op).mpr
    ⟨hnew, fun t' _ => hold t'⟩

lemma hasOp_setOps_of_mem (h : ∃ op ∈ ops, P op) : (st.setOps t ops).HasOp P := by
  obtain ⟨op, hop, hP⟩ := h
  exact ⟨t, op, by rwa [State.setOps_threads, update_self], hP⟩

lemma mem_threads_setOps {t' : ℕ} (h : op ∈ (st.setOps t ops).threads t') :
    (t' ≠ t ∧ op ∈ st.threads t') ∨ t' = t ∧ op ∈ ops := by
  rw [State.setOps_threads] at h
  by_cases ht : t' = t
  · subst ht
    rw [update_self] at h
    exact .inr ⟨rfl, h⟩
  · rw [update_of_ne ht] at h
    exact .inl ⟨ht, h⟩

lemma hasOp_exec (hth : st.threads t = op :: rest) (h : st.HasOp P) (hop : ¬ P op)
    (new : List Op) : ((exec st op).setOps t (new ++ rest)).HasOp P := by
  obtain ⟨t', op', hop', hP⟩ := h
  by_cases ht : t' = t
  · subst ht
    rw [hth] at hop'
    rcases List.mem_cons.mp hop' with rfl | hmem
    · exact absurd hP hop
    · exact hasOp_setOps_of_mem ⟨op', List.mem_append_right _ hmem, hP⟩
  · exact ⟨t', op', by rwa [State.setOps_threads, update_of_ne ht, exec_threads], hP⟩

lemma hasOp_start (hth : st.threads t = []) (h : st.HasOp P) : (st.setOps t ops).HasOp P := by
  obtain ⟨t', op', hop', hP⟩ := h
  have ht : t' ≠ t := by
    rintro rfl
    simp [hth] at hop'
  exact ⟨t', op', by rwa [State.setOps_threads, update_of_ne ht], hP⟩

end

end Megatron.Concurrent
