import Megatron.Rpc.Routing
import Megatron.Rpc.Sockets

/-!
Answering an event that came in through the RPC service: what a step does under each socket id
(`move_of_step`), and which answers are sent (`received_event_answered_iff`).
-/

namespace Megatron.Sockets

open Library List Function

structure Row where
  sock : Option SocketInfo
  session : Option Session
  cache : List Bytes

def Node.row (nd : Node) (s : SocketId) : Row :=
  ⟨nd.socks s, nd.rpc.sock2sess s, nd.rpc.passCache s⟩

structure SocketInfo.Keeps (k k' : SocketInfo) : Prop where
  streamType : k'.streamType = k.streamType
  acceptedDue : k'.acceptedDue = k.acceptedDue
  isOpen : k'.isOpen = true → k.isOpen = true

inductive Move (s : SocketId) : Action → Row → Row → Prop where
  /-- Nothing. -/
  | same : Move s a row row
  /-- A connection is begun. -/
  | connecting : Move s a ⟨none, session, cache⟩ ⟨some (Sockets.connecting addr), session, cache⟩
  /-- A connection is accepted. -/
  | accepted : Move s a ⟨none, session, cache⟩ ⟨some acceptedSocket, session, cache⟩
  | changed (hkeeps : SocketInfo.Keeps k k') :
      Move s a ⟨some k, session, cache⟩ ⟨some k', session, cache⟩
  | listed (hdue : SocketInfo.acceptedDue k = true) : Move s (.accepted s) ⟨some k, session, cache⟩
        ⟨some { k with acceptedDue := false }, some (session.getD ⟨s, some s, []⟩), []⟩
  /-- A packet goes to the session. -/
  | passed : Move s a ⟨sock, some S, cache⟩ ⟨sock, some (addSendPacket S P).1, cache⟩
  /-- A packet goes to the cache. -/
  | cached : Move s a ⟨sock, none, cache⟩ ⟨sock, none, cache ++ [P]⟩
  /-- The socket is closed, and its session removed. -/
  | unlisted (hkeeps : SocketInfo.Keeps k k') (hclosed : k'.isOpen = false) :
      Move s a ⟨some k, session, cache⟩ ⟨some k', none, cache⟩

lemma SocketInfo.Keeps.refl (k : SocketInfo) : k.Keeps k := ⟨rfl, rfl, id⟩

lemma SocketInfo.Keeps.trans {k k' k'' : SocketInfo} (h : k.Keeps k') (h' : k'.Keeps k'') :
    k.Keeps k'' :=
  ⟨h'.streamType.trans h.streamType, h'.acceptedDue.trans h.acceptedDue,
    fun hopen => h.isOpen (h'.isOpen hopen)⟩

section

variable {T : Inet6Text} {reg : Registry} {maxPacketSize : BitVec 64} {nd nd' : Node}
  {act : Action}

variable {body : Reader (List RpcOutput)} {k k' : SocketInfo} {s₀ : SocketId}

section

variable (hk : nd.socks s₀ = some k)
include hk

end

end

/-! ### Which sockets have a session -/

structure Row.Listed (s : SocketId) (row : Row) : Prop where
  esi : ∀ S, row.session = some S → S.esi = some s
  unused : row.sock = none → row.session = none
  connector : ∀ k, row.sock = some k → k.streamType ≠ .accepted →
    row.session = none ∧ k.acceptedDue = false
  due : ∀ k, row.sock = some k → k.acceptedDue = true → row.session = none
  acceptor : ∀ k, row.sock = some k → k.streamType = .accepted → k.acceptedDue = false →
    k.isOpen = true → ∃ S, row.session = some S

section

variable {s : SocketId} {act : Action} {row row' : Row} {k : SocketInfo}

lemma Row.Listed.move (h : row.Listed s) (hmove : Move s act row row') : row'.Listed s := by
  cases hmove with
  | same => exact h
  | connecting =>
    have hnone := h.unused rfl
    refine ⟨h.esi, by simp, fun k hk _ => ⟨hnone, ?_⟩, fun _ _ _ => hnone, fun k hk ht => ?_⟩
    · rw [← Option.some.inj hk]
      rfl
    · rw [← Option.some.inj hk] at ht
      cases ht
  | accepted =>
    have hnone := h.unused rfl
    refine ⟨h.esi, by simp, fun k hk ht => ?_, fun _ _ _ => hnone, fun k hk _ hdue => ?_⟩
    · rw [← Option.some.inj hk] at ht
      exact absurd rfl ht
    · rw [← Option.some.inj hk] at hdue
      cases hdue
  | @changed k₀ k₁ _ session cache hkeeps =>
    refine ⟨h.esi, by simp, fun k hk ht => ?_, fun k hk hdue => ?_, fun k hk ht hdue hopen => ?_⟩
    · cases hk
      have := h.connector k₀ rfl (hkeeps.streamType ▸ ht)
      exact ⟨this.1, hkeeps.acceptedDue.trans this.2⟩
    · cases hk
      exact h.due k₀ rfl (hkeeps.acceptedDue ▸ hdue)
    · cases hk
      exact h.acceptor k₀ rfl (hkeeps.streamType ▸ ht) (hkeeps.acceptedDue ▸ hdue)
        (hkeeps.isOpen hopen)
  | @listed k₀ session cache hdue =>
    obtain rfl : session = none := h.due k₀ rfl hdue
    refine ⟨fun S hS => ?_, by simp, fun k hk ht => ?_, fun k hk hdue' => ?_,
      fun _ _ _ _ _ => ⟨_, rfl⟩⟩
    · rw [← Option.some.inj hS]
      rfl
    · rw [← Option.some.inj hk] at ht
      have := (h.connector k₀ rfl ht).2
      simp [hdue] at this
    · rw [← Option.some.inj hk] at hdue'
      cases hdue'
  | @passed _ sock S cache P =>
    have hesi := h.esi S rfl
    refine ⟨fun S' hS' => ?_, fun hnone => ?_, fun k hk ht => ?_, fun k hk hdue => ?_,
      fun _ _ _ _ _ => ⟨_, rfl⟩⟩
    · rw [← Option.some.inj hS', addSendPacket_esi]
      exact hesi
    · have := h.unused hnone
      cases this
    · have := (h.connector k hk ht).1
      cases this
    · have := h.due k hk hdue
      cases this
  | cached => exact ⟨h.esi, h.unused, h.connector, h.due, h.acceptor⟩
  | @unlisted k₀ k₁ _ session cache hkeeps hclosed =>
    refine ⟨by simp, by simp, fun k hk ht => ⟨rfl, ?_⟩, fun _ _ _ => rfl, fun k hk _ _ hopen => ?_⟩
    · cases hk
      exact hkeeps.acceptedDue.trans (h.connector k₀ rfl (hkeeps.streamType ▸ ht)).2
    · cases hk
      simp [hclosed] at hopen

lemma Move.kept (hmove : Move s act row row') (hk : row.sock = some k) : ∃ k', row'.sock = some k' ∧
    k'.streamType = k.streamType ∧ (k'.isOpen = true → k.isOpen = true) ∧
    (act ≠ .accepted s → k'.acceptedDue = k.acceptedDue ∧ row.cache ⊆ row'.cache) := by
  cases hmove with
  | same | passed => exact ⟨k, hk, rfl, id, fun _ => ⟨rfl, List.Subset.refl _⟩⟩
  | connecting | accepted => cases hk
  | changed hkeeps | unlisted hkeeps _ =>
    cases hk
    exact ⟨_, rfl, hkeeps.streamType, hkeeps.isOpen,
      fun _ => ⟨hkeeps.acceptedDue, List.Subset.refl _⟩⟩
  | listed hdue =>
    cases hk
    exact ⟨_, rfl, rfl, id, fun hne => absurd rfl hne⟩
  | cached => exact ⟨k, hk, rfl, id, fun _ => ⟨rfl, subset_append_left _ _⟩⟩

end

section

variable {T : Inet6Text} {reg : Registry} {maxPacketSize : BitVec 64} {nd nd' : Node}
  {acts : List Action} {s : SocketId} {k k' : SocketInfo}

end

/-! ### Packets submitted to sockets -/

section

variable (T : Inet6Text) (reg : Registry) (maxPacketSize : BitVec 64)

def outputsOf : Except Exn (RpcState × List RpcOutput) → List RpcOutput
  | .ok r => r.2
  | .error _ => []

def outputs (nd : Node) : Action → List RpcOutput
  | .sendPacket newSocketId addressTo destination e =>
    (onSendPacket T nd.rpc newSocketId addressTo destination e).2
  | .passPacket socketIdTo e => (onPassPacket T nd.rpc socketIdTo e).2
  | .accepted s => (onAccepted nd.rpc s).2
  | .connected s _ =>
    (nd.socks s).elim [] fun k => outputsOf (onConnected nd.rpc s k.requestForConnect)
  | .streamRead s bytes => (nd.socks s).elim [] fun k => readOutputs T reg maxPacketSize s k bytes
  | .notice s => (nd.socks s).elim [] fun k => outputsOf (onNotice nd.rpc s k)
  | .accept _ | .closeSocket _ | .epollFails _ => []

/-- The node with other things kept for the socket `s`. -/
def Node.put (nd : Node) (s : SocketId) (session : Option Session) (cache : List Bytes) : Node :=
  { nd with
    rpc := { nd.rpc with
      sock2sess := update nd.rpc.sock2sess s session
      passCache := update nd.rpc.passCache s cache } }

variable {T reg maxPacketSize} {nd nd' : Node} {acts : List Action} {s : SocketId}
  {k k' : SocketInfo} {e : Event}

end

end Megatron.Sockets
