import PlatformRelayer.Proof.Packets

/-!
# Instants in the database

A time that goes to a column is made in the local zone of the server
(`time.Unix`, `time.Now`), in UTC (`DeliverTx`), or in the zone that a Cosmos node
sent. The programs of `Ibcv2` know of a time only its instant, as on a server
in UTC. On another one, what the next run loads is that instant if the zone has
no offset there, and only then (`instants_survive_iff`).
-/

namespace PlatformRelayer

open Db (insertedRow SetClause Ibcv2Transfer)

/-! ## Timeouts -/

/-- The timeout in a packet's event, in seconds. The last attribute counts. -/
def timeoutOf : List (String × String) → Option Int64
  | [] => none
  | attr :: attributes => (timeoutOf attributes).or
      (if attr.1 = attributeKeyPacketTimeoutTimestamp then atoi attr.2 else none)

namespace CosmosBridgeClient

variable {loc : Zone} {p q : PacketInfo}

theorem timeoutTimestamp_readAttribute {attr : String × String}
    (h : readAttribute loc p attr = .ok q) :
    q.timeoutTimestamp =
      ((if attr.1 = attributeKeyPacketTimeoutTimestamp then atoi attr.2 else none).map
      (timeUnix loc)).getD p.timeoutTimestamp := by
  by_cases ht : attr.1 = attributeKeyPacketTimeoutTimestamp
  · rw [readAttribute, if_neg (by rw [ht]; decide), if_neg (by rw [ht]; decide),
      if_neg (by rw [ht]; decide), if_pos ht] at h
    rw [if_pos ht]
    split at h
    · cases h
    · rename_i sec hsec
      cases h
      rw [hsec]
      rfl
  · rw [if_neg ht]
    rcases readAttribute_ok h with ⟨-, _, -, rfl⟩ | ⟨-, rfl⟩ | ⟨-, rfl⟩ | ⟨ht', -⟩ | rfl
    case inr.inr.inr.inl => exact absurd ht' ht
    all_goals rfl

theorem timeoutTimestamp_foldlM {attributes : List (String × String)}
    (h : attributes.foldlM (readAttribute loc) p = .ok q) :
    q.timeoutTimestamp = ((timeoutOf attributes).map (timeUnix loc)).getD p.timeoutTimestamp := by
  induction attributes generalizing p with
  | nil =>
    cases h
    rfl
  | cons attr attributes ih =>
    rw [List.foldlM_cons] at h
    cases hr : readAttribute loc p attr with
    | error err => rw [hr] at h; cases h
    | ok p' =>
      rw [hr] at h
      rw [ih h, timeoutOf, timeoutTimestamp_readAttribute hr]
      cases timeoutOf attributes <;> rfl

/-- A packet times out when its event says, in the zone of the server. -/
theorem timeoutTimestamp_readPacket {attributes : List (String × String)}
    (h : readPacket loc attributes = .ok p) :
    p.timeoutTimestamp = ((timeoutOf attributes).map (timeUnix loc)).getD .zero :=
  timeoutTimestamp_foldlM h

end CosmosBridgeClient

/-! ## Columns -/

section Columns

variable (t : GoTime) (r : Ibcv2Transfer)

theorem packetTimeoutTimestamp_insert_eq_iff (p : PacketInfo) (req : RelayRequest) (dest : String) :
    (newIBCV2Transfer (insertedRow (p.insert req dest))).packetTimeoutTimestamp =
      p.timeoutTimestamp.instant ↔ p.timeoutTimestamp.offset = 0 :=
  stored_eq_instant_iff p.timeoutTimestamp

theorem txTime_update_eq_iff (k : TxKind) (hash relayer : Option String) :
    ((newIBCV2Transfer ((SetClause.tx k hash (some t.stored) relayer).apply r)).tx k).time = some
      t.instant ↔ t.offset = 0 := by
  rw [← stored_eq_instant_iff t]
  cases k with
  | recv => exact Option.some_inj
  | ack => exact Option.some_inj
  | timeout => exact Option.some_inj

theorem sourceTxFinalizedTime_update_eq_iff :
    (newIBCV2Transfer
      ((SetClause.sourceTxFinalizedTime (some t.stored)).apply r)).sourceTxFinalizedTime =
      some t.instant ↔ t.offset = 0 :=
  Option.some_inj.trans (stored_eq_instant_iff t)

theorem writeAckTxFinalizedTime_update_eq_iff :
    (newIBCV2Transfer
      ((SetClause.writeAckTxFinalizedTime (some t.stored)).apply r)).writeAckTxFinalizedTime =
      some t.instant ↔ t.offset = 0 :=
  Option.some_inj.trans (stored_eq_instant_iff t)

end Columns

/-- The times that are recorded, on a server in any zone, and what the next run
loads. A packet's timeout (on Cosmos and on EVM), the time of a tx that was
found on EVM and the times of the finality stages are the instants they were if
the zone of the server has no offset there, and only then; the time of a tx that
was found on Cosmos, if the node's has none; that of a delivered tx always. -/
theorem instants_survive_iff (loc : Zone) (req : RelayRequest) (dest : String) (r : Ibcv2Transfer)
    (k : TxKind) (hash relayer : Option String) :
    (∀ attributes p, CosmosBridgeClient.readPacket loc attributes = .ok p →
      ((newIBCV2Transfer (insertedRow (p.insert req dest))).packetTimeoutTimestamp =
      p.timeoutTimestamp.instant ↔
        ∀ sec, timeoutOf attributes = some sec → loc (sec.toInt * second) = 0)) ∧
    (∀ sent : SendPacket,
      ((newIBCV2Transfer (insertedRow
          ((EVMBridgeClient.readPacket loc sent).insert req dest))).packetTimeoutTimestamp =
          sent.timeoutTimestamp.toInt64.toInt * second ↔
        loc (sent.timeoutTimestamp.toInt64.toInt * second) = 0)) ∧
    (∀ header : GoTime,
      (((newIBCV2Transfer
      ((SetClause.tx k hash (some (CosmosBridgeClient.findTxTimestamp header).stored) relayer).apply
          r)).tx k).time = some header.instant ↔ header.offset = 0)) ∧
    (∀ header : UInt64,
      (((newIBCV2Transfer
      ((SetClause.tx k hash (some (EVMBridgeClient.findTxTimestamp loc header).stored)
      relayer).apply
          r)).tx k).time = some (header.toInt64.toInt * second) ↔
          loc (header.toInt64.toInt * second) = 0)) ∧
    (∀ now,
      ((newIBCV2Transfer ((SetClause.tx k hash
          (some (deliverTxTimestamp loc now).stored) relayer).apply r)).tx k).time = some now) ∧
    ∀ now,
      ((newIBCV2Transfer ((SetClause.sourceTxFinalizedTime (some (timeNow loc now).stored)).apply
          r)).sourceTxFinalizedTime = some now ↔ loc now = 0) ∧
      ((newIBCV2Transfer ((SetClause.writeAckTxFinalizedTime (some (timeNow loc now).stored)).apply
          r)).writeAckTxFinalizedTime = some now ↔ loc now = 0) := by
  refine ⟨fun attributes p hp => ?_, fun sent => ?_, fun header => ?_, fun header => ?_, fun now =>
    ?_, fun now => ⟨?_, ?_⟩⟩
  · rw [packetTimeoutTimestamp_insert_eq_iff, CosmosBridgeClient.timeoutTimestamp_readPacket hp]
    cases timeoutOf attributes with
    | none => simp [GoTime.zero]
    | some sec => simp [timeUnix]
  · exact packetTimeoutTimestamp_insert_eq_iff (EVMBridgeClient.readPacket loc sent) req dest
  · exact txTime_update_eq_iff header r k hash relayer
  · exact txTime_update_eq_iff (EVMBridgeClient.findTxTimestamp loc header) r k hash relayer
  · exact (txTime_update_eq_iff (deliverTxTimestamp loc now) r k hash relayer).mpr rfl
  · exact sourceTxFinalizedTime_update_eq_iff (timeNow loc now) r
  · exact writeAckTxFinalizedTime_update_eq_iff (timeNow loc now) r

/-- A server in UTC, and a packet that times out after 100 seconds. -/
theorem instants_survive_utc :
    (newIBCV2Transfer
      (insertedRow (({ timeoutTimestamp := timeUnix (fun _ => 0) 100 } : PacketInfo).insert
      ⟨"ab", "1"⟩ "2"))).packetTimeoutTimestamp = 100 * second :=
  ((instants_survive_iff (fun _ => 0) ⟨"ab", "1"⟩ "2"
    (insertedRow (({} : PacketInfo).insert ⟨"ab", "1"⟩ "2")) .recv none none).1
      [(attributeKeyPacketTimeoutTimestamp, "100")] _ (by decide +kernel)).mpr fun _ _ => rfl

/-- Five hours west of Greenwich, a packet that times out at noon is timed out at
eleven. -/
theorem instant_lost :
    (newIBCV2Transfer (insertedRow ((EVMBridgeClient.readPacket (fun _ => -5 * 60 * minute)
      ⟨1, "client-0", "client-1", 12 * 3600⟩).insert ⟨"ab", "1"⟩ "2"))).packetTimeoutTimestamp =
      7 * 60 * minute ∧
    7 * 60 * minute < 11 * 60 * minute ∧ 11 * 60 * minute < 12 * 3600 * second := by
  decide +kernel

end PlatformRelayer
