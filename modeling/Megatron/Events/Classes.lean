import Megatron.Corelib.Msockaddr
import Megatron.Corelib.Route

/-!
The packable event classes of the framework: their ids, their members, and the
bodies of their `pack` and `unpack` methods. An id is the hash of the literal name of the class.
-/

namespace Megatron

open Library

inductive EventClass where
  | ping | pong | toplinkDeliverREQ | toplinkDeliverRSP | subscribeNotifications
  | updateConfigREQ | updateConfigRSP
  | registerMyRefferrerNodeREQ | registerCloudRoot | getReferrersREQ | getReferrersRSP
  | getCloudRootsREQ | getCloudRootsRSP
  | logMessage
  | unsubscribe | subscribe | sendMessage | notifySubscriber
  | getBindPortsREQ | getBindPortsRSP
  | jsonREQ | jsonRSP
  | errorRSP
  | testREQ | testRSP
  | addTaskREQ | addTaskRSP
  deriving DecidableEq, Repr

/-- The hash `ghash` (FNV-1a, 32 bits). -/
def ghash (str : String) : BitVec 32 :=
  str.toList.foldl (fun hash c => (hash ^^^ BitVec.ofNat 32 c.toNat) * 16777619#32)
    2166136261#32

namespace EventClass

def literal : EventClass → String
  | .ping => "@g_DFSReferrer_Ping"
  | .pong => "@g_DFSReferrer_Pong"
  | .toplinkDeliverREQ => "@g_DFSReferrer_ToplinkDeliverREQ"
  | .toplinkDeliverRSP => "@g_DFSReferrer_ToplinkDeliverRSP"
  | .subscribeNotifications => "@g_DFSReferrer_SubscribeNotifications"
  | .updateConfigREQ => "@g_DFSReferrerUpdateConfigREQ"
  | .updateConfigRSP => "@g_DFSReferrerUpdateConfigRSP"
  | .registerMyRefferrerNodeREQ => "@g_DFSCaps_RegisterMyRefferrerNodeREQ"
  | .registerCloudRoot => "@g_DFSCaps_RegisterCloudRoot"
  | .getReferrersREQ => "@g_DFSCaps_GetReferrersREQ"
  | .getReferrersRSP => "@g_DFSCaps_GetReferrersRSP"
  | .getCloudRootsREQ => "@g_DFSCaps_GetCloudRootsREQ"
  | .getCloudRootsRSP => "@g_DFSCaps_GetCloudRootsRSP"
  | .logMessage => "@g_loggerLogMessage"
  | .unsubscribe => "@g_errorDispatcherUnsubscribe"
  | .subscribe => "@g_errorDispatcherSubscribe"
  | .sendMessage => "@g_errorDispatcherSendMessage"
  | .notifySubscriber => "@g_errorDispatcherNotifySubscriber"
  | .getBindPortsREQ => "@g_GetBindPortsREQ"
  | .getBindPortsRSP => "@g_GetBindPortsRSP"
  | .jsonREQ => "@g_JsonREQ"
  | .jsonRSP => "@g_JsonRSP"
  | .errorRSP => "@g_ErrorRSP"
  | .testREQ => "@g_testREQ"
  | .testRSP => "@g_testRSP"
  | .addTaskREQ => "@g_pt_AddTaskREQ"
  | .addTaskRSP => "@g_pt_AddTaskRSP"

/-- The `EVENT_id` of a class. -/
def eventId (c : EventClass) : BitVec 32 := ghash c.literal

def all : List EventClass :=
  [.ping, .pong, .toplinkDeliverREQ, .toplinkDeliverRSP, .subscribeNotifications,
    .updateConfigREQ, .updateConfigRSP, .registerMyRefferrerNodeREQ, .registerCloudRoot,
    .getReferrersREQ, .getReferrersRSP, .getCloudRootsREQ, .getCloudRootsRSP, .logMessage,
    .unsubscribe, .subscribe, .sendMessage, .notifySubscriber, .getBindPortsREQ,
    .getBindPortsRSP, .jsonREQ, .jsonRSP, .errorRSP, .testREQ, .testRSP, .addTaskREQ, .addTaskRSP]

lemma mem_all (c : EventClass) : c ∈ all := by
  cases c <;> decide

lemma eventId_injective : Function.Injective eventId := by
  have hnodup : (all.map eventId).Nodup := by decide +kernel
  intro c c' h
  exact List.inj_on_of_nodup_map hnodup (mem_all c) (mem_all c') h

example : errorRSP.eventId = 0x846c69fa#32 := by decide

end EventClass

/-! ### Members -/

inductive EventBody where
  | ping (pingType : BitVec 32) (globalCookieOfSender : Bytes) (externalListenPort : BitVec 16)
      (internalListenAddr : List Msockaddr) (pingTime : BitVec 64)
      (connectionSequenceId clientType : BitVec 32)
  | pong (pingType : BitVec 32) (visibleNameOfPinger : Msockaddr)
      (globalCookieOfResponder : Bytes) (nodeLevelInHierarhy : BitVec 32)
      (pingTime : BitVec 64) (connectionSequenceId : BitVec 32)
  | toplinkDeliverREQ (destinationService : BitVec 32) (eventData : Bytes) (uuid : List Bytes)
  | toplinkDeliverRSP (eventData : Bytes)
  | subscribeNotifications
  | updateConfigREQ (bod : Bytes)
  | updateConfigRSP (bod : Bytes)
  | registerMyRefferrerNodeREQ (externalListenAddr : List Msockaddr) (uplink : Msockaddr)
      (downlinkCount : BitVec 32)
  | registerCloudRoot (externalListenAddr : List Msockaddr) (uplink : Msockaddr)
  | getReferrersREQ (externalListenAddr : List Msockaddr)
  | getReferrersRSP (referrerAddresses : List Msockaddr)
  | getCloudRootsREQ (externalListenAddr : List Msockaddr)
  | getCloudRootsRSP (referrerAddresses : List Msockaddr)
  | logMessage (opcode msg : Bytes)
  | unsubscribe
  | subscribe
  | sendMessage (opcode msg : Bytes)
  | notifySubscriber (opcode msg : Bytes)
  | getBindPortsREQ
  | getBindPortsRSP (listenAddrs : List Msockaddr)
  | jsonREQ (action json binData : Bytes)
  | jsonRSP (errcode : BitVec 32) (action json binData : Bytes)
  | errorRSP (errcode : BitVec 32) (errText : Bytes)
  | testREQ (session seq : BitVec 32) (buf md5 : Bytes)
  | testRSP (session seq : BitVec 32) (buf md5 : Bytes)
  | addTaskREQ (session : BitVec 32) (sampleString : Bytes) (count : BitVec 32)
  | addTaskRSP (session : BitVec 32) (sampleString : Bytes) (count : BitVec 32)
  deriving DecidableEq, Repr

def EventBody.cls : EventBody → EventClass
  | .ping .. => .ping
  | .pong .. => .pong
  | .toplinkDeliverREQ .. => .toplinkDeliverREQ
  | .toplinkDeliverRSP .. => .toplinkDeliverRSP
  | .subscribeNotifications => .subscribeNotifications
  | .updateConfigREQ .. => .updateConfigREQ
  | .updateConfigRSP .. => .updateConfigRSP
  | .registerMyRefferrerNodeREQ .. => .registerMyRefferrerNodeREQ
  | .registerCloudRoot .. => .registerCloudRoot
  | .getReferrersREQ .. => .getReferrersREQ
  | .getReferrersRSP .. => .getReferrersRSP
  | .getCloudRootsREQ .. => .getCloudRootsREQ
  | .getCloudRootsRSP .. => .getCloudRootsRSP
  | .logMessage .. => .logMessage
  | .unsubscribe => .unsubscribe
  | .subscribe => .subscribe
  | .sendMessage .. => .sendMessage
  | .notifySubscriber .. => .notifySubscriber
  | .getBindPortsREQ => .getBindPortsREQ
  | .getBindPortsRSP .. => .getBindPortsRSP
  | .jsonREQ .. => .jsonREQ
  | .jsonRSP .. => .jsonRSP
  | .errorRSP .. => .errorRSP
  | .testREQ .. => .testREQ
  | .testRSP .. => .testRSP
  | .addTaskREQ .. => .addTaskREQ
  | .addTaskRSP .. => .addTaskRSP

/-! ### Packing and unpacking -/

def getContainer : Reader Bytes := do
  let s ← getRef id
  pure s.container

lemma getContainer_decodes {c : Bytes} (h : c.length < 2 ^ 64) (addr : ℕ) :
    getContainer.Decodes (putRef (some ⟨addr, c⟩)) c := by
  intro p
  exact Reader.Yields.map (getRef_yields id (s := ⟨addr, c⟩) h p) fun _ hs => hs.1

/-- The operator `<<` for `std::set<std::string>`. -/
def putStringSet (s : List Bytes) : Bytes := putSeq putPSTR s

/-- The operator `<` of `std::string`. -/
def stringLt : Bytes → Bytes → Bool := lexLt (Streamable.intLt false)

/-- The operator `>>` for `std::set<std::string>`. -/
def getStringSet : Reader (List Bytes) := do
  let l ← getSeq getPSTR
  pure (l.foldl (fun s x => insertBy stringLt id x s) [])

def IsStringSet (s : List Bytes) : Prop := Increasing stringLt id s ∧ ∀ c ∈ s, c.length < 2 ^ 64

lemma getStringSet_decodes {s : List Bytes} (hs : IsStringSet s) (hlen : s.length < 2 ^ 32) :
    getStringSet.Decodes (putStringSet s) s := by
  have h := Reader.Decodes.map (fun l => l.foldl (fun s x => insertBy stringLt id x s) [])
    (getSeq_decodes hlen fun c hc => getPSTR_decodes (hs.2 c hc))
  have hlt : StrictTotal stringLt := lexLt_strictTotal (Streamable.intLt_strictTotal 8 false)
  have hins : s.foldl (fun s x => insertBy stringLt id x s) [] = s :=
    foldl_insertBy_of_increasing s [] (hs.1.imp fun hab => ⟨hab, hlt.asymm hab⟩)
  rwa [hins] at h

lemma getStringSet_ensures : getStringSet.Ensures fun s => s.length < 2 ^ 32 := by
  refine Reader.Ensures.bind (getSeq_ensures _) fun l hl => Reader.Ensures.pure ?_
  have hins : (l.foldl (fun s x => insertBy stringLt id x s) []).length ≤ 0 + l.length :=
    length_foldl_insertBy_le l []
  omega

section

variable (T : Inet6Text)

/-- The method `pack` of each class. -/
def EventBody.pack : EventBody → Bytes
  | .ping pingType globalCookieOfSender externalListenPort internalListenAddr pingTime
      connectionSequenceId clientType =>
      [putInt true pingType, putPSTR globalCookieOfSender, putInt false externalListenPort,
        putAddrSet T internalListenAddr, putInt true pingTime, putInt true connectionSequenceId,
        putInt true clientType].flatten
  | .pong pingType visibleNameOfPinger globalCookieOfResponder nodeLevelInHierarhy pingTime
      connectionSequenceId =>
      [putInt true pingType, packAddr T visibleNameOfPinger, putPSTR globalCookieOfResponder,
        putInt true nodeLevelInHierarhy, putInt true pingTime,
        putInt true connectionSequenceId].flatten
  | .toplinkDeliverREQ destinationService eventData uuid =>
    [putInt true destinationService, putRef (some ⟨0, eventData⟩), putStringSet uuid].flatten
  | .toplinkDeliverRSP eventData => [putRef (some ⟨0, eventData⟩)].flatten
  | .subscribeNotifications => []
  | .updateConfigREQ bod => [putPSTR bod].flatten
  | .updateConfigRSP bod => [putPSTR bod].flatten
  | .registerMyRefferrerNodeREQ externalListenAddr uplink downlinkCount =>
    [putAddrSet T externalListenAddr, packAddr T uplink, putInt true downlinkCount].flatten
  | .registerCloudRoot externalListenAddr uplink =>
    [putAddrSet T externalListenAddr, packAddr T uplink].flatten
  | .getReferrersREQ externalListenAddr => [putAddrSet T externalListenAddr].flatten
  | .getReferrersRSP referrerAddresses => [putSeq (packAddr T) referrerAddresses].flatten
  | .getCloudRootsREQ externalListenAddr => [putAddrSet T externalListenAddr].flatten
  | .getCloudRootsRSP referrerAddresses => [putSeq (packAddr T) referrerAddresses].flatten
  | .logMessage opcode msg => [putPSTR opcode, putPSTR msg].flatten
  | .unsubscribe => []
  | .subscribe => []
  | .sendMessage opcode msg => [putPSTR opcode, putPSTR msg].flatten
  | .notifySubscriber opcode msg => [putPSTR opcode, putPSTR msg].flatten
  | .getBindPortsREQ => []
  | .getBindPortsRSP listenAddrs => [putAddrSet T listenAddrs].flatten
  | .jsonREQ action json binData => [putPSTR action, putPSTR json, putPSTR binData].flatten
  | .jsonRSP errcode action json binData =>
    [putInt true errcode, putPSTR action, putPSTR json, putPSTR binData].flatten
  | .errorRSP errcode errText => [putInt true errcode, putPSTR errText].flatten
  | .testREQ session seq buf md5 =>
    [putInt true session, putInt true seq, putPSTR buf, putPSTR md5].flatten
  | .testRSP session seq buf md5 =>
    [putInt true session, putInt true seq, putPSTR buf, putPSTR md5].flatten
  | .addTaskREQ session sampleString count =>
    [putInt true session, putPSTR sampleString, putInt true count].flatten
  | .addTaskRSP session sampleString count =>
    [putInt true session, putPSTR sampleString, putInt true count].flatten

/-- The method `unpack` of each class. -/
def unpackBody : EventClass → Reader EventBody
  | .ping => do
      let pingType ← getInt 32
      let globalCookieOfSender ← getPSTR
      let externalListenPort ← getInt 16
      let internalListenAddr ← getAddrSet T
      let pingTime ← getInt 64
      let connectionSequenceId ← getInt 32
      let clientType ← getInt 32
      pure (.ping pingType globalCookieOfSender externalListenPort internalListenAddr pingTime
        connectionSequenceId clientType)
  | .pong => do
      let pingType ← getInt 32
      let visibleNameOfPinger ← unpackAddr T
      let globalCookieOfResponder ← getPSTR
      let nodeLevelInHierarhy ← getInt 32
      let pingTime ← getInt 64
      let connectionSequenceId ← getInt 32
      pure (.pong pingType visibleNameOfPinger globalCookieOfResponder nodeLevelInHierarhy
        pingTime connectionSequenceId)
  | .toplinkDeliverREQ => do
      let destinationService ← getInt 32
      let eventData ← getContainer
      let uuid ← getStringSet
      pure (.toplinkDeliverREQ destinationService eventData uuid)
  | .toplinkDeliverRSP => do
      let eventData ← getContainer
      pure (.toplinkDeliverRSP eventData)
  | .subscribeNotifications => pure .subscribeNotifications
  | .updateConfigREQ => do
      let bod ← getPSTR
      pure (.updateConfigREQ bod)
  | .updateConfigRSP => do
      let bod ← getPSTR
      pure (.updateConfigRSP bod)
  | .registerMyRefferrerNodeREQ => do
      let externalListenAddr ← getAddrSet T
      let uplink ← unpackAddr T
      let downlinkCount ← getInt 32
      pure (.registerMyRefferrerNodeREQ externalListenAddr uplink downlinkCount)
  | .registerCloudRoot => do
      let externalListenAddr ← getAddrSet T
      let uplink ← unpackAddr T
      pure (.registerCloudRoot externalListenAddr uplink)
  | .getReferrersREQ => do
      let externalListenAddr ← getAddrSet T
      pure (.getReferrersREQ externalListenAddr)
  | .getReferrersRSP => do
      let referrerAddresses ← getSeq (unpackAddr T)
      pure (.getReferrersRSP referrerAddresses)
  | .getCloudRootsREQ => do
      let externalListenAddr ← getAddrSet T
      pure (.getCloudRootsREQ externalListenAddr)
  | .getCloudRootsRSP => do
      let referrerAddresses ← getSeq (unpackAddr T)
      pure (.getCloudRootsRSP referrerAddresses)
  | .logMessage => do
      let opcode ← getPSTR
      let msg ← getPSTR
      pure (.logMessage opcode msg)
  | .unsubscribe => pure .unsubscribe
  | .subscribe => pure .subscribe
  | .sendMessage => do
      let opcode ← getPSTR
      let msg ← getPSTR
      pure (.sendMessage opcode msg)
  | .notifySubscriber => do
      let opcode ← getPSTR
      let msg ← getPSTR
      pure (.notifySubscriber opcode msg)
  | .getBindPortsREQ => pure .getBindPortsREQ
  | .getBindPortsRSP => do
      let listenAddrs ← getAddrSet T
      pure (.getBindPortsRSP listenAddrs)
  | .jsonREQ => do
      let action ← getPSTR
      let json ← getPSTR
      let binData ← getPSTR
      pure (.jsonREQ action json binData)
  | .jsonRSP => do
      let errcode ← getInt 32
      let action ← getPSTR
      let json ← getPSTR
      let binData ← getPSTR
      pure (.jsonRSP errcode action json binData)
  | .errorRSP => do
      let errcode ← getInt 32
      let errText ← getPSTR
      pure (.errorRSP errcode errText)
  | .testREQ => do
      let session ← getInt 32
      let seq ← getInt 32
      let buf ← getPSTR
      let md5 ← getPSTR
      pure (.testREQ session seq buf md5)
  | .testRSP => do
      let session ← getInt 32
      let seq ← getInt 32
      let buf ← getPSTR
      let md5 ← getPSTR
      pure (.testRSP session seq buf md5)
  | .addTaskREQ => do
      let session ← getInt 32
      let sampleString ← getPSTR
      let count ← getInt 32
      pure (.addTaskREQ session sampleString count)
  | .addTaskRSP => do
      let session ← getInt 32
      let sampleString ← getPSTR
      let count ← getInt 32
      pure (.addTaskRSP session sampleString count)

def EventBody.WellFormed : EventBody → Prop
  | .ping _ globalCookieOfSender _ internalListenAddr _ _ _ =>
    globalCookieOfSender.length < 2 ^ 64 ∧ IsAddrSet internalListenAddr
  | .pong _ visibleNameOfPinger globalCookieOfResponder _ _ _ =>
    visibleNameOfPinger.isInet = true ∧ globalCookieOfResponder.length < 2 ^ 64
  | .toplinkDeliverREQ _ eventData uuid => eventData.length < 2 ^ 64 ∧ IsStringSet uuid
  | .toplinkDeliverRSP eventData => eventData.length < 2 ^ 64
  | .updateConfigREQ bod => bod.length < 2 ^ 64
  | .updateConfigRSP bod => bod.length < 2 ^ 64
  | .registerMyRefferrerNodeREQ externalListenAddr uplink _ =>
    IsAddrSet externalListenAddr ∧ uplink.isInet = true
  | .registerCloudRoot externalListenAddr uplink =>
    IsAddrSet externalListenAddr ∧ uplink.isInet = true
  | .getReferrersREQ externalListenAddr => IsAddrSet externalListenAddr
  | .getReferrersRSP referrerAddresses => ∀ a ∈ referrerAddresses, a.isInet = true
  | .getCloudRootsREQ externalListenAddr => IsAddrSet externalListenAddr
  | .getCloudRootsRSP referrerAddresses => ∀ a ∈ referrerAddresses, a.isInet = true
  | .logMessage opcode msg => opcode.length < 2 ^ 64 ∧ msg.length < 2 ^ 64
  | .sendMessage opcode msg => opcode.length < 2 ^ 64 ∧ msg.length < 2 ^ 64
  | .notifySubscriber opcode msg => opcode.length < 2 ^ 64 ∧ msg.length < 2 ^ 64
  | .getBindPortsRSP listenAddrs => IsAddrSet listenAddrs
  | .jsonREQ action json binData =>
    action.length < 2 ^ 64 ∧ json.length < 2 ^ 64 ∧ binData.length < 2 ^ 64
  | .jsonRSP _ action json binData =>
    action.length < 2 ^ 64 ∧ json.length < 2 ^ 64 ∧ binData.length < 2 ^ 64
  | .errorRSP _ errText => errText.length < 2 ^ 64
  | .testREQ _ _ buf md5 => buf.length < 2 ^ 64 ∧ md5.length < 2 ^ 64
  | .testRSP _ _ buf md5 => buf.length < 2 ^ 64 ∧ md5.length < 2 ^ 64
  | .addTaskREQ _ sampleString _ => sampleString.length < 2 ^ 64
  | .addTaskRSP _ sampleString _ => sampleString.length < 2 ^ 64
  | .subscribeNotifications => True
  | .unsubscribe => True
  | .subscribe => True
  | .getBindPortsREQ => True

def EventBody.entries : EventBody → ℕ
  | .ping _ _ _ internalListenAddr _ _ _ => internalListenAddr.length
  | .toplinkDeliverREQ _ _ uuid => uuid.length
  | .registerMyRefferrerNodeREQ externalListenAddr _ _ => externalListenAddr.length
  | .registerCloudRoot externalListenAddr _ => externalListenAddr.length
  | .getReferrersREQ externalListenAddr => externalListenAddr.length
  | .getReferrersRSP referrerAddresses => referrerAddresses.length
  | .getCloudRootsREQ externalListenAddr => externalListenAddr.length
  | .getCloudRootsRSP referrerAddresses => referrerAddresses.length
  | .getBindPortsRSP listenAddrs => listenAddrs.length
  | _ => 0

private lemma int16_decodes (v : BitVec 16) : (getInt 16).Decodes (putInt false v) v :=
  getInt_decodes (by norm_num) false v

private lemma int32_decodes (v : BitVec 32) : (getInt 32).Decodes (putInt true v) v :=
  getInt_decodes (by norm_num) true v

private lemma int64_decodes (v : BitVec 64) : (getInt 64).Decodes (putInt true v) v :=
  getInt_decodes (le_refl 64) true v

private lemma addrVector_decodes {l : List Msockaddr} (h : ∀ a ∈ l, a.isInet = true)
    (hlen : l.length < 2 ^ 32) : (getSeq (unpackAddr T)).Decodes (putSeq (packAddr T) l) l :=
  getSeq_decodes hlen fun a ha => unpackAddr_decodes T (h a ha)

open Reader.Decodes in
lemma unpackBody_decodes {body : EventBody} (hw : body.WellFormed)
    (hn : body.entries < 2 ^ 32) : (unpackBody T body.cls).Decodes (body.pack T) body := by
  cases body with
  | ping pingType cookie port addrs time seqId clientType =>
    exact field (int32_decodes pingType) <| field (getPSTR_decodes hw.1) <|
      field (int16_decodes port) <| field (getAddrSet_decodes T hw.2 hn) <|
      field (int64_decodes time) <| field (int32_decodes seqId) <|
      field (int32_decodes clientType) <| pure _
  | pong pingType name cookie level time seqId =>
    exact field (int32_decodes pingType) <| field (unpackAddr_decodes T hw.1) <|
      field (getPSTR_decodes hw.2) <| field (int32_decodes level) <|
      field (int64_decodes time) <| field (int32_decodes seqId) <| pure _
  | toplinkDeliverREQ dst eventData uuid =>
    exact field (int32_decodes dst) <| field (getContainer_decodes hw.1 0) <|
      field (getStringSet_decodes hw.2 hn) <| pure _
  | toplinkDeliverRSP eventData => exact field (getContainer_decodes hw 0) <| pure _
  | subscribeNotifications | unsubscribe | subscribe | getBindPortsREQ => exact pure _
  | updateConfigREQ bod | updateConfigRSP bod => exact field (getPSTR_decodes hw) <| pure _
  | registerMyRefferrerNodeREQ addrs uplink count =>
    exact field (getAddrSet_decodes T hw.1 hn) <| field (unpackAddr_decodes T hw.2) <|
      field (int32_decodes count) <| pure _
  | registerCloudRoot addrs uplink =>
    exact field (getAddrSet_decodes T hw.1 hn) <| field (unpackAddr_decodes T hw.2) <| pure _
  | getReferrersREQ addrs | getCloudRootsREQ addrs | getBindPortsRSP addrs =>
    exact field (getAddrSet_decodes T hw hn) <| pure _
  | getReferrersRSP addrs | getCloudRootsRSP addrs =>
    exact field (addrVector_decodes T hw hn) <| pure _
  | logMessage opcode msg | sendMessage opcode msg | notifySubscriber opcode msg =>
    exact field (getPSTR_decodes hw.1) <| field (getPSTR_decodes hw.2) <| pure _
  | jsonREQ action json binData =>
    exact field (getPSTR_decodes hw.1) <| field (getPSTR_decodes hw.2.1) <|
      field (getPSTR_decodes hw.2.2) <| pure _
  | jsonRSP errcode action json binData =>
    exact field (int32_decodes errcode) <| field (getPSTR_decodes hw.1) <|
      field (getPSTR_decodes hw.2.1) <| field (getPSTR_decodes hw.2.2) <| pure _
  | errorRSP errcode errText =>
    exact field (int32_decodes errcode) <| field (getPSTR_decodes hw) <| pure _
  | testREQ session seq buf md5 | testRSP session seq buf md5 =>
    exact field (int32_decodes session) <| field (int32_decodes seq) <|
      field (getPSTR_decodes hw.1) <| field (getPSTR_decodes hw.2) <| pure _
  | addTaskREQ session sampleString count | addTaskRSP session sampleString count =>
    exact field (int32_decodes session) <| field (getPSTR_decodes hw) <|
      field (int32_decodes count) <| pure _

open Reader.Ensures in
lemma unpackBody_ensures (c : EventClass) :
    (unpackBody T c).Ensures fun body => body.entries < 2 ^ 32 := by
  have hpos : 0 < 2 ^ 32 := Nat.two_pow_pos 32
  have haddrs := getAddrSet_ensures T
  have hvector := getSeq_ensures (unpackAddr T)
  cases c with
  | ping =>
    exact skip fun _ => skip fun _ => skip fun _ => bind haddrs fun _ hl =>
      skip fun _ => skip fun _ => skip fun _ => pure hl
  | toplinkDeliverREQ =>
    exact skip fun _ => skip fun _ => bind getStringSet_ensures fun _ hl => pure hl
  | registerMyRefferrerNodeREQ => exact bind haddrs fun _ hl => skip fun _ => skip fun _ => pure hl
  | registerCloudRoot => exact bind haddrs fun _ hl => skip fun _ => pure hl
  | getReferrersREQ | getCloudRootsREQ | getBindPortsRSP => exact bind haddrs fun _ hl => pure hl
  | getReferrersRSP | getCloudRootsRSP => exact bind hvector fun _ hl => pure hl
  | pong =>
    exact skip fun _ => skip fun _ => skip fun _ => skip fun _ => skip fun _ => skip fun _ =>
      pure hpos
  | jsonREQ | addTaskREQ | addTaskRSP => exact skip fun _ => skip fun _ => skip fun _ => pure hpos
  | jsonRSP | testREQ | testRSP =>
    exact skip fun _ => skip fun _ => skip fun _ => skip fun _ => pure hpos
  | logMessage | sendMessage | notifySubscriber | errorRSP =>
    exact skip fun _ => skip fun _ => pure hpos
  | toplinkDeliverRSP | updateConfigREQ | updateConfigRSP => exact skip fun _ => pure hpos
  | subscribeNotifications | unsubscribe | subscribe | getBindPortsREQ => exact pure hpos

end

end Megatron
