import Mathlib.Data.List.ReduceOption
import PlatformRelayer.Bridges.WriteAcks
import PlatformRelayer.Proof.RouterLogs

/-!
# What decides the status of a write ack

The status of a packet is to be that of its own first write ack (`expected`),
whatever else is in the tx. The Cosmos client looks for the packet and then
parses, so it returns the status of the first event that it takes for the
packet's (`CosmosBridgeClient.readWriteAck_eq`); it takes the wrong one only for
sequence numbers from 2⁶³ on, which `int` makes negative. The EVM client
parses first and does not look at the address of a log: it stops at the first
log that cannot be parsed or has the packet, of any contract
(`EVMBridgeClient.readWriteAck_eq`).
-/

namespace PlatformRelayer

open Prog Db

/-- What a write ack holds. -/
inductive AckContent where
  | decoded (acks : List (List UInt8))
  | undecodable
  | missing
deriving DecidableEq

/-- The status of a write ack, with what `errors.Is` finds in the error. -/
def AckContent.status : AckContent → Ibcv2WriteAckStatus × Option (List Sentinel)
  | .decoded acks => (if acks = [errorAcknowledgement] then .error else .success, none)
  | .undecodable => (.unknown, some [.errWriteAckDecoding])
  | .missing => (.unknown, none)

/-- What is to be returned for a packet with these write acks. -/
def expected (own : List AckContent) : Ibcv2WriteAckStatus × Option (List Sentinel) :=
  own.head?.elim (.unknown, some [.errWriteAckNotFoundForPacket]) AckContent.status

/-- What was returned: the status and the class of the error. -/
def outcome (r : AckResult) : Ibcv2WriteAckStatus × Option (List Sentinel) :=
  (r.1, r.2.map (·.wraps))

theorem AckContent.status_ne (c : AckContent) :
    c.status ≠ (.unknown, some [.errWriteAckNotFoundForPacket]) := by
  cases c <;> simp [AckContent.status]

theorem expected_eq_iff (own own' : List AckContent) :
    expected own = expected own' ↔
      own.head?.map AckContent.status = own'.head?.map AckContent.status := by
  unfold expected
  cases own.head? with
  | none =>
    cases own'.head? with
    | none => simp
    | some c => simpa using (c.status_ne).symm
  | some c =>
    cases own'.head? with
    | none => simpa using c.status_ne
    | some c' => simp

theorem appAckStatus_eq (acks : List (List UInt8)) :
    appAckStatus acks = if acks = [errorAcknowledgement] then .error else .success := by
  unfold appAckStatus
  cases acks with
  | nil => rfl
  | cons ack acks => cases acks <;> simp

/-! ## EVM -/

namespace EVMBridgeClient

variable {router : WriteAckBinding} {packet : PacketID}

/-- A log that the scan does not pass: one that cannot be parsed, or the
acknowledgements of the packet. -/
def stop? (router : WriteAckBinding) (packet : PacketID)
    (log : EvmLog) : Option (Except String (List (List UInt8))) :=
  if log.topics.head? = some router.writeAcknowledgementID then
    match router.parseWriteAcknowledgement log with
    | .error err => some (.error err)
    | .ok writeAck => if writeAck.packet = packet then some (.ok writeAck.acknowledgements)
      else none
  else none

/-- The first such log, of any contract. -/
def firstStop? (router : WriteAckBinding) (packet : PacketID) (logs : List (Option EvmLog)) :
    Option (Except String (List (List UInt8))) :=
  logs.reduceOption.findSome? (stop? router packet)

/-- The acknowledgements of the packet in a log. -/
def acks? (router : WriteAckBinding) (packet : PacketID)
    (log : EvmLog) : Option (List (List UInt8)) :=
  (stop? router packet log).bind Except.toOption

/-- The packet's own write acks: those of the logs of the router at `address`. -/
def ownAcks (router : WriteAckBinding) (address : List UInt8) (packet : PacketID)
    (logs : List (Option EvmLog)) : List (List (List UInt8)) :=
  (logs.reduceOption.filter (·.address = address)).filterMap (acks? router packet)

/-- What the scan returns at the first stop. -/
def stopOutcome : Option (Except String (List (List UInt8))) →
    Ibcv2WriteAckStatus × Option (List Sentinel)
  | none => (.unknown, some [.errWriteAckNotFoundForPacket])
  | some (.error _) => (.unknown, some [])
  | some (.ok acks) => (AckContent.decoded acks).status

theorem readWriteAck_eq (logs : List (Option EvmLog)) :
    outcome (readWriteAck router packet logs) = stopOutcome (firstStop? router packet logs) := by
  induction logs with
  | nil => rfl
  | cons l logs ih =>
    cases l with
    | none => exact ih
    | some log =>
      rw [readWriteAck, firstStop?, List.reduceOption_cons_of_some, List.findSome?_cons]
      by_cases ht : log.topics.head? = some router.writeAcknowledgementID
      · rw [if_neg (not_not.mpr ht), stop?, if_pos ht]
        cases hp : router.parseWriteAcknowledgement log with
        | error err => rfl
        | ok writeAck =>
          have hpacket : (writeAck.packet.sequence = packet.sequence ∧
              writeAck.packet.sourceClientID = packet.sourceClientID ∧
              writeAck.packet.destClientID = packet.destClientID) ↔ writeAck.packet = packet := by
            cases writeAck.packet
            cases packet
            simp
          simp only [hpacket]
          split
          · simp only [outcome, appAckStatus_eq]
            rfl
          · exact ih
      · rw [if_pos ht, stop?, if_neg ht]
        exact ih

/-- The first log at which a scan stops, if there is one, is parsed, and it
holds an error just if the packet's own first write ack does. -/
def StopsAtOwn (router : WriteAckBinding) (address : List UInt8) (packet : PacketID)
    (logs : List (Option EvmLog)) : Prop :=
  ∀ stop, firstStop? router packet logs = some stop → ∃ acks own, stop = .ok acks ∧
    (ownAcks router address packet logs).head? = some own ∧
    (acks = [errorAcknowledgement] ↔ own = [errorAcknowledgement])

theorem ownAcks_eq_nil (address : List UInt8) {logs : List (Option EvmLog)}
    (h : firstStop? router packet logs = none) : ownAcks router address packet logs = [] := by
  rw [ownAcks, List.filterMap_eq_nil_iff]
  intro log hlog
  have hstop : stop? router packet log = none :=
    List.findSome?_eq_none_iff.mp h log (List.mem_of_mem_filter hlog)
  rw [acks?, hstop]
  rfl

theorem status_acks_eq_iff (acks own : List (List UInt8)) :
    (AckContent.decoded acks).status = (AckContent.decoded own).status ↔
      (acks = [errorAcknowledgement] ↔ own = [errorAcknowledgement]) := by
  unfold AckContent.status
  by_cases ha : acks = [errorAcknowledgement] <;> by_cases ho :
    own = [errorAcknowledgement] <;> simp [ha, ho]

theorem outcome_eq_expected_iff (address : List UInt8) (logs : List (Option EvmLog)) :
    outcome (readWriteAck router packet logs) = expected
      ((ownAcks router address packet logs).map .decoded) ↔
      StopsAtOwn router address packet logs := by
  rw [readWriteAck_eq, StopsAtOwn, expected, List.head?_map]
  cases hfirst : firstStop? router packet logs with
  | none => simp [ownAcks_eq_nil address hfirst, stopOutcome]
  | some stop =>
    cases stop with
    | error err =>
      cases (ownAcks router address packet logs).head? with
      | none => simp [stopOutcome]
      | some own => simp [stopOutcome, AckContent.status]
    | ok acks =>
      cases (ownAcks router address packet logs).head? with
      | none => simpa [stopOutcome] using AckContent.status_ne _
      | some own => simpa [stopOutcome] using status_acks_eq_iff acks own

end EVMBridgeClient

/-! ## Cosmos -/

theorem wraps_decodeBytes {bytes : List UInt8} {err : Err}
    (h : decodeBytes bytes = .error err) : err.wraps = [] := by
  fun_induction decodeBytes bytes with
  | case1 => cases h
  | case2 => cases h; rfl
  | case3 => cases h; rfl
  | case4 => cases h; rfl
  | case5 => cases h; rfl
  | case6 _ _ _ _ _ _ _ _ hrest ih =>
    cases h
    exact ih hrest
  | case7 => cases h

/-- Among the attributes of the event are the packet's, with its sequence number
as `text`. -/
def AbciEvent.Names (e : AbciEvent) (text : String) (packet : PacketID) : Prop :=
  (attributeKeyPacketSequence, text) ∈ e.attributes ∧
    (attributeKeyPacketSourceClient, packet.sourceClientID) ∈ e.attributes ∧
    (attributeKeyPacketDestClient, packet.destClientID) ∈ e.attributes

instance (e : AbciEvent) (text : String) (packet : PacketID) : Decidable (e.Names text packet) :=
  inferInstanceAs (Decidable (_ ∧ _ ∧ _))

namespace CosmosBridgeClient

variable {unmarshal : List UInt8 → Except String (List (List UInt8))} {packet : PacketID}

/-- What the acknowledgement attribute of an event holds. -/
def content (unmarshal : List UInt8 → Except String (List (List UInt8)))
    (attributes : List (String × String)) : AckContent :=
  (attributes.lookup attributeKeyEncodedAck).elim .missing fun text =>
    ((hexDecodeString text).toOption.bind fun bytes => (unmarshal bytes).toOption).elim
      .undecodable .decoded

/-- The write acks with the packet's clients and a text of the sequence number. -/
def acksNamed (unmarshal : List UInt8 → Except String (List (List UInt8))) (text : String)
    (packet : PacketID) (events : List AbciEvent) : List AckContent :=
  (events.filter fun e => e.type = eventTypeWriteAck ∧ e.Names text packet).map
    (content unmarshal ·.attributes)

/-- The packet's own write acks: an event has the sequence number in decimal
digits. -/
def ownAcks (unmarshal : List UInt8 → Except String (List (List UInt8))) (packet : PacketID)
    (events : List AbciEvent) : List AckContent :=
  acksNamed unmarshal (toString packet.sequence.toNat) packet events

theorem outcome_parseWriteAckStatusForPacket (attributes : List (String × String)) :
    outcome (parseWriteAckStatusForPacket unmarshal attributes) =
      (content unmarshal attributes).status := by
  induction attributes with
  | nil => rfl
  | cons attr attributes ih =>
    obtain ⟨key, value⟩ := attr
    rw [parseWriteAckStatusForPacket, content, List.lookup_cons]
    by_cases hkey : key = attributeKeyEncodedAck
    · rw [if_neg (not_not.mpr hkey), beq_iff_eq.mpr hkey.symm]
      cases hd : hexDecodeString value with
      | error err => simp [outcome, errorf₂, wraps_decodeBytes hd, Sentinel.err, hd,
        AckContent.status, Except.toOption]
      | ok bytes =>
        cases hu : unmarshal bytes with
        | error err => simp [outcome, errorf₂, newErr, Sentinel.err, hd, hu, AckContent.status,
          Except.toOption]
        | ok acks => simp [outcome, appAckStatus_eq, hd, hu, AckContent.status, Except.toOption]
    · rw [if_pos hkey, beq_eq_false_iff_ne.mpr (Ne.symm hkey)]
      exact ih

/-- What the loop over the attributes has seen. -/
theorem foldl_matchAttribute (attributes : List (String × String)) (m : Matches) :
    attributes.foldl (matchAttribute packet) m =
      ⟨m.sequence || (attributeKeyPacketSequence, itoa packet.sequence.toInt64) ∈ attributes,
       m.sourceClient || (attributeKeyPacketSourceClient, packet.sourceClientID) ∈ attributes,
       m.destClient || (attributeKeyPacketDestClient, packet.destClientID) ∈ attributes⟩ := by
  induction attributes generalizing m with
  | nil => simp
  | cons attr attributes ih =>
    obtain ⟨key, value⟩ := attr
    rw [List.foldl_cons, ih]
    simp only [List.mem_cons, Prod.mk.injEq]
    -- an attribute has one key, and the three that count are different
    have hkeys : attributeKeyPacketSequence ≠ attributeKeyPacketSourceClient ∧
        attributeKeyPacketSequence ≠ attributeKeyPacketDestClient ∧
        attributeKeyPacketSourceClient ≠ attributeKeyPacketDestClient := by decide
    unfold matchAttribute
    by_cases hseq : key = attributeKeyPacketSequence
    · by_cases hv : value = itoa packet.sequence.toInt64 <;>
        simp [hseq, hv, hkeys.1.symm, hkeys.2.1.symm, eq_comm]
    by_cases hsource : key = attributeKeyPacketSourceClient
    · by_cases hv : value = packet.sourceClientID <;> simp [hsource, hv, hkeys, hkeys.1.symm,
        hkeys.2.2.symm, eq_comm]
    by_cases hdest : key = attributeKeyPacketDestClient
    · by_cases hv : value = packet.destClientID <;> simp [hdest, hv, hkeys, hkeys.2.1.symm,
        hkeys.2.2.symm, eq_comm]
    simp [hseq, hsource, hdest, Ne.symm hseq, Ne.symm hsource, Ne.symm hdest]

theorem readWriteAck_eq (events : List AbciEvent) :
    outcome (readWriteAck unmarshal packet events) =
      expected (acksNamed unmarshal (itoa packet.sequence.toInt64) packet events) := by
  induction events with
  | nil => rfl
  | cons e events ih =>
    rw [readWriteAck, acksNamed, List.filter_cons]
    by_cases ht : e.type = eventTypeWriteAck
    · simp only [foldl_matchAttribute, Bool.false_or, ht, ne_eq, not_true_eq_false, if_false,
        true_and]
      by_cases hn : e.Names (itoa packet.sequence.toInt64) packet
      · rw [if_pos (by simpa [AbciEvent.Names, and_assoc] using hn), if_pos (by simpa using hn),
          outcome_parseWriteAckStatusForPacket]
        rfl
      · rw [if_neg (by simpa [AbciEvent.Names, and_assoc] using hn), if_neg (by simpa using hn)]
        exact ih
    · rw [if_pos ht, if_neg (by simp [ht])]
      exact ih

theorem itoa_of_lt {n : UInt64} (h : n.toNat < 2 ^ 63) : itoa n.toInt64 = toString n.toNat := by
  rw [itoa, toInt_toInt64 h]
  rfl

/-- The sequence number is an `int64`, or the first event under the text that the
client looks for has the same status as the packet's own first, if any. -/
def LooksForOwn (unmarshal : List UInt8 → Except String (List (List UInt8))) (packet : PacketID)
    (events : List AbciEvent) : Prop :=
  packet.sequence.toNat < 2 ^ 63 ∨
    (acksNamed unmarshal (itoa packet.sequence.toInt64) packet events).head?.map AckContent.status =
      (ownAcks unmarshal packet events).head?.map AckContent.status

theorem outcome_eq_expected_iff (events : List AbciEvent) :
    outcome (readWriteAck unmarshal packet events) = expected (ownAcks unmarshal packet events) ↔
      LooksForOwn unmarshal packet events := by
  rw [readWriteAck_eq, expected_eq_iff, LooksForOwn]
  refine ⟨.inr, fun h => h.elim (fun hlt => ?_) id⟩
  rw [itoa_of_lt hlt]
  rfl

end CosmosBridgeClient

/-! ## Both clients -/

/-- For every packet, every tx that the node has and a router at any address:
the status and the class of the error are those of the packet's own write acks
just if the scan of the EVM client stops at one of these, and the Cosmos client
looks for them. -/
theorem write_ack_status_iff (node : (c : NodeCall) → c.Ans) (packet : PacketID) :
    (∀ (router : WriteAckBinding) (address : List UInt8) (hash : String) (receipt : Receipt),
      node (.transactionReceipt (hexToHash hash)) = .ok receipt →
        (outcome ((EVMBridgeClient.packetWriteAckStatus router hash packet).eval node) =
            expected ((EVMBridgeClient.ownAcks router address packet receipt.logs).map .decoded) ↔
          EVMBridgeClient.StopsAtOwn router address packet receipt.logs)) ∧
    ∀ (unmarshal : List UInt8 → Except String (List (List UInt8))) (hash : String)
      (hashBytes : List UInt8)
      (result : ResultTx), hexDecodeString hash = .ok hashBytes →
      node (.tx hashBytes) = .ok result →
        (outcome ((CosmosBridgeClient.packetWriteAckStatus unmarshal hash packet).eval node) =
            expected (CosmosBridgeClient.ownAcks unmarshal packet result.events) ↔
          CosmosBridgeClient.LooksForOwn unmarshal packet result.events) := by
  constructor
  · intro router address hash receipt hnode
    rw [EVMBridgeClient.packetWriteAckStatus, eval_bind, eval_perform, hnode, eval_ret]
    exact EVMBridgeClient.outcome_eq_expected_iff address receipt.logs
  · intro unmarshal hash hashBytes result hhash hnode
    rw [CosmosBridgeClient.packetWriteAckStatus, hhash]
    dsimp only
    rw [eval_bind, eval_perform, hnode, eval_ret]
    exact CosmosBridgeClient.outcome_eq_expected_iff result.events

/-! ## Some txs -/

/-- A router with the event id `2`. The data of a log has the number of a packet and
whether its write ack is an error, or it cannot be parsed. -/
def someAckBinding : WriteAckBinding where
  writeAcknowledgementID := [2]
  parseWriteAcknowledgement log :=
    match log.data with
    | [n, b] => .ok ⟨⟨n.toUInt64, "client-1", "client-0"⟩,
      [if b = 0 then [1] else errorAcknowledgement]⟩
    | _ => .error "abi: attempting to unmarshal an empty string while arguments are expected"

def writeAckLog (address data : List UInt8) : EvmLog := ⟨address, [[2]], data⟩

def writeAckEvent (packet : PacketID) (encodedAck : String) : AbciEvent where
  type := eventTypeWriteAck
  attributes := [(attributeKeyPacketSequence, toString packet.sequence.toNat),
    (attributeKeyPacketSourceClient, packet.sourceClientID),
    (attributeKeyPacketDestClient, packet.destClientID),
    (attributeKeyEncodedAck, encodedAck)]

/-- A node with a tx that has these logs, or these events. -/
def ackNode (logs : List EvmLog) (events : List AbciEvent) : (c : NodeCall) → c.Ans
  | .transactionReceipt _ => .ok ⟨7, logs.map some⟩
  | .headerByNumber _ => .error (newErr "")
  | .tx _ => .ok ⟨7, events⟩
  | .header _ => .error (newErr "")

def packetFive : PacketID := ⟨5, "client-1", "client-0"⟩

def packetSix : PacketID := ⟨6, "client-1", "client-0"⟩

/-- The error acknowledgement in hex. -/
def encodedError : String := "4774d4a575993f963b1c06573736617a457abef8589178db8d10c94b4ab511ab"

/-- Txs with the write acks of two packets, of which the first is an error and of the
other packet. -/
theorem write_ack_status_own :
    outcome ((EVMBridgeClient.packetWriteAckStatus someAckBinding "ab" packetFive).eval
      (ackNode [writeAckLog routerAddress [6, 1], writeAckLog routerAddress [5, 0]] [])) =
        expected [.decoded [[1]]] ∧
    outcome ((CosmosBridgeClient.packetWriteAckStatus
        (fun bytes => .ok [bytes]) "ab" packetFive).eval
      (ackNode [] [writeAckEvent packetSix encodedError, writeAckEvent packetFive "01"])) =
        expected [.decoded [[1]]] := by
  let logs := [writeAckLog routerAddress [6, 1], writeAckLog routerAddress [5, 0]]
  let events := [writeAckEvent packetSix encodedError, writeAckEvent packetFive "01"]
  constructor
  · refine ((write_ack_status_iff (ackNode logs []) packetFive).1 someAckBinding routerAddress
      "ab" ⟨7, logs.map some⟩ rfl).mpr ?_
    intro stop hstop
    cases hstop
    exact ⟨_, _, rfl, rfl, Iff.rfl⟩
  · have hown : CosmosBridgeClient.ownAcks (fun bytes => .ok [bytes]) packetFive
        events = [.decoded [[1]]] := by
      decide +kernel
    rw [← hown]
    exact ((write_ack_status_iff (ackNode [] events) packetFive).2 (fun bytes => .ok [bytes]) "ab"
      [0xab] ⟨7, events⟩ (by decide +kernel) rfl).mpr (.inl (by decide))

/-- Three txs with the same log of the router. Before it, another contract has
emitted nothing, a log of the same packet, or a log that cannot be parsed. And
a tx with the write ack of a packet whose number is no `int64`. -/
theorem write_ack_status_depends :
    (EVMBridgeClient.ownAcks someAckBinding routerAddress packetFive
      [some (writeAckLog routerAddress [5, 0])] = [[[1]]] ∧
      EVMBridgeClient.ownAcks someAckBinding routerAddress packetFive
        [some (writeAckLog [0xbb] [5, 1]), some (writeAckLog routerAddress [5, 0])] = [[[1]]] ∧
      EVMBridgeClient.ownAcks someAckBinding routerAddress packetFive
        [some (writeAckLog [0xbb] []), some (writeAckLog routerAddress [5, 0])] = [[[1]]]) ∧
    outcome ((EVMBridgeClient.packetWriteAckStatus someAckBinding "ab" packetFive).eval
      (ackNode [writeAckLog routerAddress [5, 0]] [])) = (.success, none) ∧
    outcome ((EVMBridgeClient.packetWriteAckStatus someAckBinding "ab" packetFive).eval
      (ackNode [writeAckLog [0xbb] [5, 1], writeAckLog routerAddress [5, 0]] [])) = (.error, none) ∧
    outcome ((EVMBridgeClient.packetWriteAckStatus someAckBinding "ab" packetFive).eval
      (ackNode [writeAckLog [0xbb] [], writeAckLog routerAddress [5, 0]] [])) =
      (.unknown, some []) ∧
    outcome ((CosmosBridgeClient.packetWriteAckStatus
        (fun bytes => .ok [bytes]) "ab" ⟨2 ^ 63, "client-1", "client-0"⟩).eval
      (ackNode [] [writeAckEvent ⟨2 ^ 63, "client-1", "client-0"⟩ "01"])) =
        (.unknown, some [.errWriteAckNotFoundForPacket]) := by
  decide +kernel

end PlatformRelayer
