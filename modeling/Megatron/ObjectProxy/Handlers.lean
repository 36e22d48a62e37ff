import Megatron.Corelib.SockaddrText
import Megatron.ObjectProxy.Service

/-!
How objects send events (`corelib/objectHandler.cpp`, `threaded_sendEvent_iff`).
-/

namespace Megatron.ObjectProxy

open Library
open Library.Http (ascii)

variable {β : Type}

inductive SentCall (β : Type) where
  | sendEvent (svs : ServiceId) (e : Message β)
  | sendEventTo (addr : MsockaddrIn) (svs : ServiceId) (e : Message β)
  | logErr (ex : Exn)

/-- The cache of addresses, and the calls so far. -/
structure World (β : Type) where
  ai : AddrInfos
  calls : List (SentCall β)

def World.record (w : World β) (c : SentCall β) : World β := { w with calls := w.calls ++ [c] }

abbrev Sending (β : Type) := Prog (World β) Exn

def Message.pushHop (e : Message β) (svs : ServiceId) : Message β :=
  { e with route := e.route.pushBack (.localService svs) }

/-- `sendObjectRequest(dst, e)` of the proxy. -/
def sendObjectRequest (proxy dst : ServiceId) (e : Message β) : Sending β Unit :=
  Prog.modify (·.record (.sendEvent dst (e.pushHop proxy)))

/-- `sendObjectRequest(addr, dst, e)` of the proxy. -/
def sendObjectRequestTo (proxy : ServiceId) (addr : MsockaddrIn) (dst : ServiceId)
    (e : Message β) : Sending β Unit :=
  Prog.modify (·.record (.sendEventTo addr dst (e.pushHop proxy)))

/-- A new `msockaddr_in`, of the family `AF_INET`. -/
def newAddr : MsockaddrIn := MsockaddrIn.store ⟨Vector.replicate 112 0#8⟩ 0 (bytes16 2#16)

/-- `sa.init(dstHost)`. -/
def initAddr (L : InetText) (R : Resolver) (dstHost : Bytes) : Sending β MsockaddrIn := fun w =>
  match newAddr.init L R dstHost w.ai with
  | .done a ai => .done a { w with ai := ai }
  | .thrown ex ai => .thrown ex { w with ai := ai }
  | .undefined => .undefined

/-- The `catch` clauses. -/
def logged : Library.Outcome (World β) Exn Unit → Library.Outcome (World β) Exn Unit
  | .thrown ex w => .done () (w.record (.logErr ex))
  | o => o

section

variable (proxy : ServiceId) (dstHost : Bytes) (dstService : ServiceId) (e : Message β)

/-- `ObjectHandlerPolled::sendEvent` with a host. -/
def Polled.sendEvent (L : InetText) (R : Resolver) : Sending β Unit := fun w =>
  if dstHost = ascii "local" then logged (sendObjectRequest proxy dstService e w)
  else logged ((initAddr L R dstHost >>= fun sa => sendObjectRequestTo proxy sa dstService e) w)

/-- `ObjectHandlerThreaded::sendEvent`; the overload with a `std::string` is called again. -/
def Threaded.sendEvent : ℕ → World β → Option (Library.Outcome (World β) Exn Unit)
  | 0, _ => none
  | n + 1, w =>
    if dstHost = ascii "local" then some (logged (sendObjectRequest proxy dstService e w))
    else (Threaded.sendEvent n w).map logged

variable {dstHost}

lemma Threaded.sendEvent_eq_none (h : dstHost ≠ ascii "local") (n : ℕ) (w : World β) :
    Threaded.sendEvent proxy dstHost dstService e n w = none := by
  induction n with
  | zero => rfl
  | succ n ih => rw [Threaded.sendEvent, if_neg h, ih, Option.map_none]

/-- **Hosts.** The threaded handler has the effect of the polled one if the host is `local`. -/
theorem threaded_sendEvent_iff (L : InetText) (R : Resolver) (proxy : ServiceId) (dstHost : Bytes)
    (dstService : ServiceId) (e : Message β) (w : World β) :
    (∃ n, Threaded.sendEvent proxy dstHost dstService e n w =
      some (Polled.sendEvent proxy dstHost dstService e L R w)) ↔ dstHost = ascii "local" := by
  refine ⟨fun ⟨n, hn⟩ => ?_, fun h => ⟨1, ?_⟩⟩
  · by_contra h
    rw [Threaded.sendEvent_eq_none proxy dstService e h] at hn
    cases hn
  · rw [Threaded.sendEvent, Polled.sendEvent, if_pos h, if_pos h]

/-- An address is never reached. -/
theorem threaded_sendEvent_address : ¬ ∃ n o, Threaded.sendEvent 0#32 (ascii "10.0.0.1:80") 1#32
    (⟨[], ()⟩ : Message Unit) n ⟨fun _ => none, []⟩ = some o := by
  rintro ⟨n, o, hn⟩
  rw [Threaded.sendEvent_eq_none _ _ _ (by decide +kernel)] at hn
  cases hn

end

end Megatron.ObjectProxy
