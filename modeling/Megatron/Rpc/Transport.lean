import Megatron.Oscar.Service
import Megatron.Rpc.Service
import Megatron.Socket.Output

/-!
RPC packets on their way to another node, through the packet layer and the sockets of both ends:
they arrive in order, each once (`Link.exists_arrived`, `events_arrive`).
-/

namespace Megatron.Transport

open Library List Socket

variable {α : Type} {packet : α → Bytes} {maxPacketSize : BitVec 64}

/-- The packets of `sent` are written to a socket, which comes from `start` to `socket`, and its
peer reads `reads`. TCP loses, adds and reorders nothing. -/
structure Link (packet : α → Bytes) (maxPacketSize : BitVec 64) (sent : List α) (start : Machine)
    (actions : List Action) (socket : Machine) (reads : List Bytes) : Prop where
  fits : ∀ x ∈ sent, (packet x).length ≤ maxPacketSize.toNat
  starts : Starts start
  run : run Machine.step start actions = some socket
  written : Forall₂ (fun x w => sendPacketPlain sbSinglePacket (packet x) = .ok w) sent
    (actions.flatMap Action.strings)
  tcp : reads.flatten <+: socket.kernel

/-- The output buffer is empty, and the peer has read everything. -/
def Complete (socket : Machine) (reads : List Bytes) : Prop :=
  socket.esi.container = [] ∧ reads.flatten = socket.kernel

section

variable {sent : List α} {start socket : Machine} {actions : List Action} {reads : List Bytes}

lemma Link.stream (l : Link packet maxPacketSize sent start actions socket reads) :
    socket.kernel ++ socket.esi.container = (sent.map packet).flatMap packetFrame := by
  have hframes := frames_eq_map (forall₂_map_left_iff.mpr l.written)
  rw [conserved_run l.starts l.run, hframes, flatMap_def]

/-- **Packets arrive in order**, each of them once. -/
lemma Link.exists_arrived (l : Link packet maxPacketSize sent start actions socket reads)
    (streamType : StreamType) : ∃ arrived, arrived <+: sent ∧
    (reads.foldl (deliver maxPacketSize streamType) freshStream).passed =
      arrived.map (packetEvent streamType ∘ packet) ∧ (Complete socket reads → arrived = sent) := by
  have hfits : ∀ p ∈ sent.map packet, p.length ≤ maxPacketSize.toNat := forall_mem_map.mpr l.fits
  have hin : reads.flatten <+: (sent.map packet).flatMap packetFrame :=
    l.stream ▸ l.tcp.trans (prefix_append _ _)
  have hrec := feed_spec (oscar_frames maxPacketSize) hfits reads hin
  obtain ⟨next, hnext, -⟩ := hrec.waiting
  have hpassed := foldl_deliver maxPacketSize streamType reads Framing.start
  generalize reads.foldl (oscarFraming maxPacketSize).feed Framing.start = d at hrec hnext hpassed
  have htake : (sent.take d.items.length).map packet = d.items := by
    rw [map_take, hnext, take_left]
  refine ⟨sent.take d.items.length, List.take_prefix _ _, ?_, fun ⟨hempty, hread⟩ => ?_⟩
  · rw [← map_map, htake]
    exact congrArg StreamState.passed hpassed
  · have hall : reads.flatten = (sent.map packet).flatMap packetFrame := by
      rw [← l.stream, hempty, append_nil, hread]
    have hitems := hrec.items
    rw [hall, completed_flatMap] at hitems
    rw [hitems, length_map, take_length]

end

section

variable (T : Inet6Text) (reg : Registry)

/-- An event that `on_SendPacket` sends to a service of the peer. -/
abbrev Request := { q : ServiceId × Event // q.2.Sendable reg }

/-- An event that `on_PassPacket` passes back to a service, the last hop of its route. -/
abbrev Answer := { q : ServiceId × Event //
  (Event.mk (q.2.route.pushBack (.localService q.1)) q.2.body).Sendable reg }

def Request.bytes (q : Request reg) : Bytes := sentPacket T q.1.1 q.1.2

def Answer.bytes (q : Answer reg) : Bytes :=
  passedPacket T ⟨q.1.2.route.pushBack (.localService q.1.1), q.1.2.body⟩

/-- The handlers of the RPC service. -/
def onPacket (esi : SocketId) (requestForConnect : Option Msockaddr) : PacketEvent → List RpcOutput
  | .onAcceptor buf => onPacketOnAcceptor T reg esi buf
  | .onConnector buf => onPacketOnConnector T reg esi requestForConnect buf

/-- **Events cross a connection in both directions**, in order and each of them once, wherever the
writes and the reads cut the bytes. -/
theorem events_arrive (esi : SocketId) (addr : Msockaddr) {requests : List (Request reg)}
    {answers : List (Answer reg)} {start start' socket socket' : Machine}
    {actions actions' : List Action} {reads reads' : List Bytes}
    (l : Link (Request.bytes T reg) maxPacketSize requests start actions socket reads)
    (l' : Link (Answer.bytes T reg) maxPacketSize answers start' actions' socket' reads') :
    (∃ arrived, arrived <+: requests ∧ (Complete socket reads → arrived = requests) ∧
      (reads.foldl (deliver maxPacketSize .accepted) freshStream).passed.flatMap
          (onPacket T reg esi none) = arrived.map fun q => .incomingOnAcceptor q.1.1 esi
        ⟨(q.1.2.route.pushBack (.remoteAddr esi)).pushBack (.localService q.1.1), q.1.2.body⟩) ∧
    ∃ arrived, arrived <+: answers ∧ (Complete socket' reads' → arrived = answers) ∧
      (reads'.foldl (deliver maxPacketSize .connected) freshStream).passed.flatMap
          (onPacket T reg esi (some addr)) = arrived.map fun q =>
        .incomingOnConnector q.1.1 esi addr q.1.2 := by
  constructor
  · obtain ⟨arrived, hprefix, hpassed, hall⟩ := l.exists_arrived .accepted
    refine ⟨arrived, hprefix, hall, ?_⟩
    rw [hpassed, flatMap_map, map_eq_flatMap]
    exact flatMap_congr fun q _ => onPacketOnAcceptor_send q.2
  · obtain ⟨arrived, hprefix, hpassed, hall⟩ := l'.exists_arrived .connected
    refine ⟨arrived, hprefix, hall, ?_⟩
    rw [hpassed, flatMap_map, map_eq_flatMap]
    exact flatMap_congr fun q _ => onPacketOnConnector_pass q.2

end

lemma sendable_hop {body : EventBody} (hw : body.WellFormed) (he : body.entries < 2 ^ 32) :
    (Event.mk [.localService 5#32] body).Sendable fullRegistry where
  running := rfl
  wellFormed := ⟨⟨by simp [Route.isListener], by simp⟩, hw⟩
  registered := EventClass.mem_all _
  entries := he

/-- The connector writes its request and sends it in two parts. -/
def requestRun : List Action :=
  [.connect .inProgress, .event none false true, .writable .other,
    .append [1, 10, 115, 6, 129, 153, 250, 218, 80, 1, 1, 5], .testSize, .report, .startWrite,
    .event none false true, .writable .other, .send 5 0, .testSent, .notify, .close,
    .event none false true, .writable .other, .send 7 0]

def answerRun : List Action :=
  [.append [1, 15, 112, 129, 255, 255, 255, 255, 254, 128, 239, 149, 69, 1, 1, 5, 0], .startWrite,
    .event none false true, .writable .other, .send 17 0]

theorem events_arrive_requestAndAnswer :
    ([[1, 10, 115], [6, 129, 153, 250, 218, 80, 1, 1, 5]].foldl (deliver 100#64 .accepted)
        freshStream).passed.flatMap (onPacket hexText fullRegistry 3#64 none) =
      [.incomingOnAcceptor 6#32 3#64
        ⟨[.localService 5#32, .remoteAddr 3#64, .localService 6#32], .getBindPortsREQ⟩] ∧
    ([[1, 15], [112, 129, 255, 255, 255, 255, 254, 128, 239, 149, 69, 1, 1, 5, 0]].foldl
        (deliver 100#64 .connected) freshStream).passed.flatMap
          (onPacket hexText fullRegistry 3#64 (some (.inet 80#16 1#32))) =
      [.incomingOnConnector 5#32 3#64 (.inet 80#16 1#32) ⟨[], .getBindPortsRSP []⟩] := by
  have hreq : (Event.mk [.localService 5#32] .getBindPortsREQ).Sendable fullRegistry :=
    sendable_hop trivial (by norm_num [EventBody.entries])
  have hans : (Event.mk [.localService 5#32] (.getBindPortsRSP [])).Sendable fullRegistry :=
    sendable_hop ⟨.nil, by simp⟩ (by norm_num [EventBody.entries])
  have hframe : packetFrame (sentPacket hexText 6#32 ⟨[.localService 5#32], .getBindPortsREQ⟩) =
      [1, 10, 115, 6, 129, 153, 250, 218, 80, 1, 1, 5] := by decide +kernel
  have hfit : (sentPacket hexText 6#32 ⟨[.localService 5#32], .getBindPortsREQ⟩).length ≤
      (100#64).toNat := by decide +kernel
  have hframe' : packetFrame (passedPacket hexText
        ⟨[.localService 5#32], .getBindPortsRSP []⟩) =
      [1, 15, 112, 129, 255, 255, 255, 255, 254, 128, 239, 149, 69, 1, 1, 5, 0] := by
    decide +kernel
  have hfit' : (passedPacket hexText ⟨[.localService 5#32], .getBindPortsRSP []⟩).length ≤
      (100#64).toNat := by decide +kernel
  have l : Link (Request.bytes hexText fullRegistry) 100#64 [⟨(6#32, ⟨_, _⟩), hreq⟩] someSocket
      requestRun _ [[1, 10, 115], [6, 129, 153, 250, 218, 80, 1, 1, 5]] :=
    ⟨forall_mem_singleton.mpr hfit, starts_someSocket, rfl,
      .cons ((sendPacketPlain_eq _).trans (congrArg _ hframe)) .nil, prefix_rfl⟩
  have l' : Link (Answer.bytes hexText fullRegistry) 100#64 [⟨(5#32, ⟨[], _⟩), hans⟩]
      (.accepted [.localService 7#32] false) answerRun _
      [[1, 15], [112, 129, 255, 255, 255, 255, 254, 128, 239, 149, 69, 1, 1, 5, 0]] :=
    ⟨forall_mem_singleton.mpr hfit', .accept _ _, rfl,
      .cons ((sendPacketPlain_eq _).trans (congrArg _ hframe')) .nil, prefix_rfl⟩
  obtain ⟨⟨arrived, -, hall, h⟩, arrived', -, hall', h'⟩ :=
    events_arrive hexText fullRegistry 3#64 (.inet 80#16 1#32) l l'
  rw [hall ⟨rfl, rfl⟩] at h
  rw [hall' ⟨rfl, rfl⟩] at h'
  exact ⟨h, h'⟩

end Megatron.Transport
