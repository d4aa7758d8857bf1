import Mathlib.Data.List.ReduceOption
import PlatformRelayer.Proof.Relay

/-!
# The contract that a packet comes from

`SendPacketsFromTx` of the EVM client takes a log by its first topic and does
not look at its address. Where it succeeds it returns a packet for each log with
the topic of `SendPacket` (`readPackets_eq`), so these are the packets of the
router just if no other contract emitted such a log (`packets_from_router_iff`).
-/

namespace PlatformRelayer

open Prog

/-- A filter before `filterMap` is not seen just if it keeps whatever `f` has a
value for. Otherwise values are missing, so the lists differ in length. -/
theorem filterMap_filter_eq_iff {α β : Type} (f : α → Option β) (p : α → Bool) (l : List α) :
    l.filterMap f = (l.filter p).filterMap f ↔ ∀ a ∈ l, (f a).isSome = true → p a = true := by
  induction l with
  | nil => simp
  | cons a l ih =>
    rw [List.forall_mem_cons, ← ih]
    cases hf : f a with
    | none =>
      rw [List.filterMap_cons_none hf, List.filter_cons]
      split
      · rw [List.filterMap_cons_none hf]
        simp
      · simp
    | some b =>
      rw [List.filterMap_cons_some hf, List.filter_cons]
      split
      · rename_i hp
        rw [List.filterMap_cons_some hf]
        simp [hp]
      · rename_i hp
        have hlen : ((l.filter p).filterMap f).length ≤ (l.filterMap f).length :=
          (List.filter_sublist.filterMap f).length_le
        refine iff_of_false (fun heq => ?_) fun h => hp (h.1 rfl)
        have hcons := congrArg List.length heq
        rw [List.length_cons] at hcons
        omega

namespace EVMBridgeClient

variable {env : Env} {loc : Zone} {router : Ics26Router} {chainID txHash : String}

/-- The log has the topic of `SendPacket`. -/
def IsSendPacket (router : Ics26Router) (log : EvmLog) : Prop :=
  log.topics.head? = some router.sendPacketID

instance (router : Ics26Router) (log : EvmLog) : Decidable (IsSendPacket router log) :=
  inferInstanceAs (Decidable (_ = _))

/-- The packet of a `SendPacket` log. -/
def packet? (loc : Zone) (router : Ics26Router) (log : EvmLog) : Option PacketInfo :=
  if IsSendPacket router log then (router.parseSendPacket log).toOption.map (readPacket loc)
    else none

/-- The packets of the `SendPacket` logs that the contract at `address` emitted,
in the order of the logs. -/
def packetsFrom (loc : Zone) (router : Ics26Router) (address : List UInt8)
    (logs : List (Option EvmLog)) : List PacketInfo :=
  (logs.reduceOption.filter (·.address = address)).filterMap (packet? loc router)

/-- Where the loop succeeds, each `SendPacket` log has given its packet. -/
theorem readPackets_eq {logs : List (Option EvmLog)} {packets : List PacketInfo}
    (h : readPackets loc router chainID txHash logs = .ok packets) :
    packets = logs.reduceOption.filterMap (packet? loc router) ∧
      ∀ log ∈ logs.reduceOption, IsSendPacket router log →
      (packet? loc router log).isSome = true := by
  induction logs generalizing packets with
  | nil =>
    cases h
    exact ⟨rfl, by simp⟩
  | cons l logs ih =>
    cases l with
    | none => exact ih h
    | some log =>
      rw [readPackets] at h
      rw [List.reduceOption_cons_of_some, List.forall_mem_cons]
      split at h
      · rename_i ht
        replace ht : ¬IsSendPacket router log := ht
        obtain ⟨hpackets, hparse⟩ := ih h
        have hlog : packet? loc router log = none := if_neg ht
        rw [List.filterMap_cons_none hlog]
        exact ⟨hpackets, fun hs => absurd hs ht, hparse⟩
      · rename_i ht
        have ht : IsSendPacket router log := not_not.mp ht
        split at h
        · cases h
        · rename_i sendPacket hp
          have hlog : packet? loc router log = some (readPacket loc sendPacket) := by
            rw [packet?, if_pos ht, hp]
            rfl
          cases hr : readPackets loc router chainID txHash logs with
          | error err =>
            rw [hr] at h
            cases h
          | ok rest =>
            rw [hr] at h
            cases h
            obtain ⟨rfl, hparse⟩ := ih hr
            rw [List.filterMap_cons_some hlog, hlog]
            exact ⟨rfl, fun _ => rfl, hparse⟩

/-- Every `SendPacket` log of a tx was emitted by the contract at `address`. -/
def EmittedBy (router : Ics26Router) (address : List UInt8) (logs : List (Option EvmLog)) : Prop :=
  ∀ log, some log ∈ logs → IsSendPacket router log → log.address = address

/-- Whatever is filled in afterwards. -/
theorem map_readPackets_eq_iff {logs : List (Option EvmLog)} {packets : List PacketInfo}
    (address : List UInt8) (g : PacketInfo → PacketInfo)
    (h : readPackets loc router chainID txHash logs = .ok packets) :
    packets.map g = (packetsFrom loc router address logs).map g ↔
      EmittedBy router address logs := by
  obtain ⟨rfl, hparse⟩ := readPackets_eq h
  rw [packetsFrom, List.map_filterMap, List.map_filterMap, filterMap_filter_eq_iff]
  simp only [List.reduceOption_mem_iff, Option.isSome_map, decide_eq_true_eq]
  refine forall_congr' fun log => imp_congr_right fun hlog => ⟨fun h hs => ?_, fun h hs => ?_⟩
  · exact h (hparse log (List.reduceOption_mem_iff.mpr hlog) hs)
  · refine h (by_contra fun hn => ?_)
    rw [packet?, if_neg hn] at hs
    cases hs

/-- The time of a block, as a packet has it. -/
def blockTime (env : Env) (loc : Zone) (chainID : String) (number : Nat) : GoTime :=
  timeUnix loc ((env.headerTimes chainID number).getD 0).toInt64

/-- The packets with the time of the block that the tx is in. -/
def packetsOfTx (env : Env) (loc : Zone) (router : Ics26Router) (address : List UInt8)
    (chainID : String) (receipt : Receipt) : List PacketInfo :=
  (packetsFrom loc router address receipt.logs).map fun packet =>
    { packet with timestamp := blockTime env loc chainID receipt.blockNumber }

/-- What is returned, and that nothing is inserted on the way. -/
theorem sendPacketsFromTx_wp {receipt : Receipt}
    (hreceipt : env.receipts chainID (hexToHash txHash) = some receipt) (s : Store) :
    wp (api env) (fun c _ => ∀ p, c ≠ .insertIBCV2Transfer p)
      (sendPacketsFromTx loc router chainID txHash)
      (fun o _ => ∀ packets, o = .ok packets → ∃ read,
      readPackets loc router chainID txHash receipt.logs = .ok read ∧
        packets = read.map fun packet =>
          { packet with timestamp := blockTime env loc chainID receipt.blockNumber }) s := by
  rw [sendPacketsFromTx]
  refine wp_try ⟨by simp, fun a ha => ?_⟩
  refine ⟨by simp, fun r hr => ?_⟩
  subst hr
  obtain rfl : r = receipt := Option.some.inj (Eq.trans (Eq.symm ha) hreceipt)
  split
  · simp
  rename_i read hread
  split
  · rename_i hempty
    rw [wp_ret]
    rintro packets ⟨⟩
    exact ⟨read, hread, by rw [List.isEmpty_iff.mp hempty]; rfl⟩
  refine wp_try ⟨by simp, fun a ha => ?_⟩
  refine ⟨by simp, fun time ht => ?_⟩
  subst ht
  have htime : env.headerTimes chainID r.blockNumber = some time := ha
  rw [wp_ret]
  rintro packets ⟨⟩
  exact ⟨read, hread, by rw [blockTime, htime]; rfl⟩

end EVMBridgeClient

/-! ## Rows -/

section Rows

variable {env : Env} {config : ConfigReader} {loc : Zone} {req : RelayRequest}

/-- A transfer that the call inserts is for one of the packets. -/
def ApiCall.InsertsOneOf (packets : List PacketInfo) (req : RelayRequest) (c : ApiCall) : Prop :=
  ∀ p, c = .insertIBCV2Transfer p → ∃ packet ∈ packets, ∃ destChainID,
    p = packet.insert req destChainID

theorem ApiCall.insertsOneOf_of_ne {packets : List PacketInfo} {c : ApiCall}
    (h : ∀ p, c ≠ .insertIBCV2Transfer p) : c.InsertsOneOf packets req :=
  fun p hp => absurd hp (h p)

theorem insertPackets_wp {packets all : List PacketInfo} (h : ∀ p ∈ packets, p ∈ all) (s : Store) :
    wp (api env) (fun c _ => c.InsertsOneOf all req) (insertPackets config req packets)
      (fun _ _ => True) s := by
  induction packets generalizing s with
  | nil => trivial
  | cons p packets ih =>
    obtain ⟨hp, hrest⟩ := List.forall_mem_cons.mp h
    rw [insertPackets]
    split
    · exact ih hrest s
    · rename_i dest hdest
      refine wp_bind.mpr ⟨?_, fun a _ => ?_⟩
      · rintro _ ⟨⟩
        exact ⟨p, hp, dest, rfl⟩
      · rw [wp_ret]
        cases a with
        | error err =>
          dsimp only
          split
          · exact ih hrest _
          · trivial
        | ok _ => exact ih hrest _

/-- `Relay` inserts a transfer only for a packet that `SendPacketsFromTx` has
returned. -/
theorem relay_wp (config : ConfigReader) (req : RelayRequest) {packets : List PacketInfo}
    {router : Ics26Router} (hclient : env.clients req.chainID = some (.evm router))
    (h : ∀ s, wp (api env) (fun c _ => ∀ p, c ≠ .insertIBCV2Transfer p)
      (EVMBridgeClient.sendPacketsFromTx loc router req.chainID req.txHash)
      (fun o _ => ∀ out, o = .ok out → out = packets) s) (s : Store) :
    wp (api env) (fun c _ => c.InsertsOneOf packets req) (relay config loc req)
      (fun _ _ => True) s := by
  have hother {c : ApiCall} (hc : ∀ p, c ≠ .insertIBCV2Transfer p) : c.InsertsOneOf packets req :=
    ApiCall.insertsOneOf_of_ne hc
  rw [relay]
  split
  · trivial
  refine wp_bind.mpr ⟨hother (by simp), fun a _ => ?_⟩
  rw [wp_ret]
  cases a with
  | error err =>
    dsimp only
    split <;> trivial
  | ok _ =>
  refine wp_try ⟨hother (by simp), fun a ha => ⟨by simp, fun client hc => ?_⟩⟩
  subst hc
  obtain rfl : client = .evm router := Option.some.inj (Eq.trans (Eq.symm ha) hclient)
  refine wp_try (wp_try ⟨hother (by simp), fun a _ => ⟨by simp, fun sender _ => ?_⟩⟩)
  split
  · exact of_error trivial
  refine of_ok (wp_try (((h _).mono (fun _ _ hc => hother hc) fun o s ho => ?_)))
  refine ⟨by simp, fun out hout => ?_⟩
  rw [ho out hout]
  exact insertPackets_wp (fun _ hp => hp) s

end Rows

/-- In every run that succeeds, for a router at any address: the packets are
those of the router's logs, with the time of their block, just if all
`SendPacket` logs of the tx are its own. Then no run of `Relay` inserts a
transfer for another packet. -/
theorem packets_from_router_iff {env : Env} {loc : Zone} {router : Ics26Router}
    {chainID txHash : String}
    {receipt : Receipt} (address : List UInt8)
    (hreceipt : env.receipts chainID (hexToHash txHash) = some receipt) :
    (∀ s packets s', Steps (api env) (EVMBridgeClient.sendPacketsFromTx loc router chainID txHash) s
        (.ret (.ok packets)) s' →
      (packets = EVMBridgeClient.packetsOfTx env loc router address chainID receipt ↔
        EVMBridgeClient.EmittedBy router address receipt.logs)) ∧
    (EVMBridgeClient.EmittedBy router address receipt.logs →
      env.clients chainID = some (.evm router) →
      ∀ config s x s' p, Steps (api env) (relay config loc ⟨txHash, chainID⟩) s x s' →
        x.next? = some (.insertIBCV2Transfer p) →
          ∃ packet ∈ EVMBridgeClient.packetsOfTx env loc router address chainID receipt,
          ∃ destChainID,
            p = packet.insert ⟨txHash, chainID⟩ destChainID) := by
  constructor
  · intro s packets s' hrun
    obtain ⟨read, hread, rfl⟩ :=
      (EVMBridgeClient.sendPacketsFromTx_wp hreceipt s).returned hrun packets rfl
    exact EVMBridgeClient.map_readPackets_eq_iff address _ hread
  · intro hemitted hclient config s x s' p hrun hnext
    have hpackets (s : Store) : wp (api env) (fun c _ => ∀ p, c ≠ .insertIBCV2Transfer p)
        (EVMBridgeClient.sendPacketsFromTx loc router chainID txHash)
        (fun o _ => ∀ out, o = .ok out →
          out = EVMBridgeClient.packetsOfTx env loc router address chainID receipt) s := by
      refine (EVMBridgeClient.sendPacketsFromTx_wp hreceipt s).post fun o _ ho out hout => ?_
      obtain ⟨read, hread, rfl⟩ := ho out hout
      exact (EVMBridgeClient.map_readPackets_eq_iff address _ hread).mpr hemitted
    exact (relay_wp config ⟨txHash, chainID⟩ hclient hpackets s).next hrun hnext p rfl

/-! ## A tx -/

/-- A router with the event id `1`. -/
def someRouter : Ics26Router where
  sendPacketID := [1]
  parseSendPacket log := .ok ⟨log.data.length.toUInt64, "client-0", "client-1", 100⟩

def routerAddress : List UInt8 := [0xaa]

/-- A log of packet 5 that the contract at `address` emitted. -/
def sendPacketLog (address : List UInt8) : EvmLog := ⟨address, [[1]], [0, 0, 0, 0, 0]⟩

/-- An EVM chain with a tx in which the contract at `address` emitted the log. -/
def evmEnv (address : List UInt8) : Env where
  clients _ := some (.evm someRouter)
  txs _ _ := none
  headers _ _ := none
  signers _ _ := some "0x01"
  receipts _ _ := some ⟨7, [some (sendPacketLog address)]⟩
  headerTimes _ _ := some 50

theorem packets_from_router_own : ∃ packets s, packets ≠ [] ∧
    Steps (api (evmEnv routerAddress))
      (EVMBridgeClient.sendPacketsFromTx (fun _ => 0) someRouter "1" "ab") emptyStore
      (.ret (.ok packets)) s ∧
    packets = EVMBridgeClient.packetsOfTx (evmEnv routerAddress) (fun _ => 0) someRouter
      routerAddress "1" ⟨7, [some (sendPacketLog routerAddress)]⟩ := by
  have hrun := (evmEnv routerAddress).steps_run
    (EVMBridgeClient.sendPacketsFromTx (fun _ => 0) someRouter "1" "ab") emptyStore (by rfl)
  refine ⟨_, _, ?_, hrun, ((packets_from_router_iff routerAddress rfl).1 _ _ _ hrun).mpr ?_⟩
  · decide +kernel
  · intro log hlog _
    rw [Option.some.inj (List.mem_singleton.mp hlog)]
    rfl

/-- A contract that is not the router has packet 5 returned and its row
occupied. -/
theorem foreign_packet : ∃ packets s s',
    Steps (api (evmEnv [0xbb])) (EVMBridgeClient.sendPacketsFromTx (fun _ => 0) someRouter "1" "ab")
      emptyStore (.ret (.ok packets)) s ∧
    packets ≠ EVMBridgeClient.packetsOfTx (evmEnv [0xbb]) (fun _ => 0) someRouter routerAddress "1"
      ⟨7, [some (sendPacketLog [0xbb])]⟩ ∧
    Steps (api (evmEnv [0xbb])) (relay someConfig (fun _ => 0) ⟨"ab", "1"⟩) emptyStore
      (.ret (.ok ())) s' ∧
    (s'.transfers.row? (packetKey "1" 5 "client-0")).isSome = true := by
  have hrun := (evmEnv [0xbb]).steps_run
    (EVMBridgeClient.sendPacketsFromTx (fun _ => 0) someRouter "1" "ab") emptyStore (by rfl)
  have hrelay := (evmEnv [0xbb]).steps_run (a := .ok ()) (relay someConfig (fun _ => 0) ⟨"ab", "1"⟩)
    emptyStore (by decide +kernel)
  exact ⟨_, _, _, hrun, by decide +kernel, hrelay, by decide +kernel⟩

end PlatformRelayer
