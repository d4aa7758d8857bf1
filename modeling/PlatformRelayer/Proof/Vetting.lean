import PlatformRelayer.Ibcv2.PipelineOpts
import PlatformRelayer.Proof.Gas
import PlatformRelayer.Proof.RouterLogs

/-!
# Where a row comes from

A `Relay` request inserts a packet only after its tx was recorded as submitted,
its sender was found not to be sanctioned, if the chain is an EVM one, and the node
of its chain reported the packet in the tx (`relay_vets`). None of this can be undone
by others, so a handler needs to know nothing but its own answers: `learning` is the
semantics in which a submission that was recorded is all that is kept.
-/

namespace PlatformRelayer

open Db Prog

/-! ## What is read -/

/-- A packet that is read is the one of an event. -/
theorem CosmosBridgeClient.event_of_mem_readPackets {loc : Zone} {events : List AbciEvent}
    {packets : List PacketInfo}
    {p : PacketInfo} (h : readPackets loc events = .ok packets) (hp : p ∈ packets) :
    ∃ e ∈ events, e.type = eventTypeSendPacket ∧ readPacket loc e.attributes = .ok p := by
  induction events generalizing packets with
  | nil =>
    cases h
    cases hp
  | cons e events ih =>
    have hlater {packets : List PacketInfo} (h : readPackets loc events = .ok packets)
        (hp : p ∈ packets) : ∃ e' ∈ e :: events, e'.type = eventTypeSendPacket ∧
        readPacket loc e'.attributes = .ok p := by
      obtain ⟨e', he', hsend⟩ := ih h hp
      exact ⟨e', List.mem_cons_of_mem _ he', hsend⟩
    rw [readPackets] at h
    split at h
    · exact hlater h hp
    rename_i ht
    split at h
    · cases h
    rename_i q hq
    split at h
    · exact hlater h hp
    cases hr : readPackets loc events with
    | error err => rw [hr] at h; cases h
    | ok rest =>
      rw [hr] at h
      cases h
      rcases List.mem_cons.mp hp with rfl | hp
      · exact ⟨e, List.mem_cons_self, by simpa using ht, hq⟩
      · exact hlater hr hp

/-- The same of a log. -/
theorem EVMBridgeClient.log_of_mem_readPackets {loc : Zone} {router : Ics26Router}
    {chainID txHash : String}
    {logs : List (Option EvmLog)} {packets : List PacketInfo} {p : PacketInfo}
    (h : readPackets loc router chainID txHash logs = .ok packets) (hp : p ∈ packets) :
    ∃ log sendPacket, some log ∈ logs ∧ log.topics.head? = some router.sendPacketID ∧
      router.parseSendPacket log = .ok sendPacket ∧ p = readPacket loc sendPacket := by
  obtain ⟨rfl, -⟩ := readPackets_eq h
  obtain ⟨log, hlog, hread⟩ := List.mem_filterMap.mp hp
  rw [packet?] at hread
  split at hread
  · rename_i htopic
    cases hparse : router.parseSendPacket log with
    | error err => rw [hparse] at hread; cases hread
    | ok sendPacket =>
      rw [hparse] at hread
      exact ⟨log, sendPacket, List.reduceOption_mem_iff.mp hlog, htopic, hparse,
        (Option.some.inj hread).symm⟩
  · cases hread

/-- The node of a chain reports that a tx sent a packet, at the time of the block
that the tx is in. -/
inductive Env.Reports (env : Env) (loc : Zone) (chainID txHash : String) : PacketInfo → Prop where
  | cosmos {hash result event packet time} : env.clients chainID = some .cosmos →
    hexDecodeString txHash = .ok hash →
    env.txs chainID hash = some result → event ∈ result.events → event.type = eventTypeSendPacket →
    CosmosBridgeClient.readPacket loc event.attributes = .ok packet →
    env.headers chainID result.height = some time →
    Reports env loc chainID txHash { packet with timestamp := time }
  | evm {router receipt log sendPacket time} : env.clients chainID = some (.evm router) →
    env.receipts chainID (hexToHash txHash) = some receipt → some log ∈ receipt.logs →
    log.topics.head? = some router.sendPacketID → router.parseSendPacket log = .ok sendPacket →
    env.headerTimes chainID receipt.blockNumber = some time →
    Reports env loc chainID txHash
      { EVMBridgeClient.readPacket loc sendPacket with timestamp := timeUnix loc time.toInt64 }

/-- On an EVM chain, the sender of a tx is not sanctioned. -/
def Env.Cleared (env : Env) (chainID txHash : String) : Prop :=
  ∀ router, env.clients chainID = some (.evm router) →
    ∃ sender, env.signers chainID (hexToHash txHash) = some sender ∧
    ofacAddresses.contains sender.toLower = false

/-- A packet that may be relayed: of a tx that was submitted and whose sender, on an
EVM chain, is not sanctioned, sent from a client that tracks the packet's destination,
as the source chain reports it. -/
structure Vetted (env : Env) (config : ConfigReader) (loc : Zone)
    (submissions : List RelaySubmission) (p : Packet) : Prop where
  submitted : ⟨p.sourceChainID, p.sourceTxHash⟩ ∈ submissions
  cleared : env.Cleared p.sourceChainID p.sourceTxHash
  tracked : config.getClientCounterpartyChainID p.sourceChainID p.sourceClientID = .ok
    p.destinationChainID
  sent : ∃ info, env.Reports loc p.sourceChainID p.sourceTxHash info ∧
    p.sourceClientID = info.sourceClient ∧
    p.destinationClientID = info.destinationClient ∧ p.sequenceNumber = info.sequence.toUInt32 ∧
    p.timeoutTimestamp = info.timeoutTimestamp.stored

theorem Vetted.mono {env : Env} {config : ConfigReader} {loc : Zone}
    {known known' : List RelaySubmission} {p : Packet}
    (h : Vetted env config loc known p) (hsub : known ⊆ known') : Vetted env config loc known' p :=
  ⟨hsub h.submitted, h.cleared, h.tracked, h.sent⟩

/-! ## What a handler inserts -/

/-- The submission that is recorded with the answer. -/
def ApiCall.submits : (c : ApiCall) → c.Ans → List RelaySubmission
  | .insertRelaySubmission chainID hash, .ok _ => [⟨chainID, hash⟩]
  | _, _ => []

/-- The calls of a handler as it sees them, with the submissions that were
recorded. -/
def learning (env : Env) : Sem ApiCall ApiCall.Ans (List RelaySubmission) where
  adm c ans _ := ∃ s, env.Answers c ans s
  next c ans known := c.submits ans ++ known

/-- A row that is inserted is one of a packet that may be relayed. -/
def ApiCall.Vets (env : Env) (config : ConfigReader) (loc : Zone) (c : ApiCall)
    (known : List RelaySubmission) : Prop :=
  ∀ p, c = .insertIBCV2Transfer p → Vetted env config loc known (insertedRow p).packet

section Handler

variable {env : Env} {config : ConfigReader} {loc : Zone} {req : RelayRequest}
  {known : List RelaySubmission}

theorem sendPacketsFromTx_reports {client : BridgeClient} {chainID txHash : String}
    (hclient : env.clients chainID = some client) :
    wp (learning env) (ApiCall.Vets env config loc) (client.sendPacketsFromTx loc chainID txHash)
      (fun o known' => known' = known ∧ ∀ packets, o = .ok packets → ∀ p ∈ packets,
      env.Reports loc chainID txHash p) known := by
  cases client with
  | cosmos =>
    rw [BridgeClient.sendPacketsFromTx, CosmosBridgeClient.sendPacketsFromTx]
    split
    · exact ⟨rfl, by simp⟩
    rename_i hash hhash
    refine wp_try ⟨by simp [ApiCall.Vets], fun ans ha => ⟨fun _ _ => ⟨rfl, by simp⟩, ?_⟩⟩
    rintro result rfl
    have hresult : env.txs chainID hash = some result := ha.choose_spec
    split
    · exact ⟨rfl, by simp⟩
    rename_i packets hread
    split
    · exact ⟨rfl, by simp⟩
    refine wp_try ⟨by simp [ApiCall.Vets], fun ans ha => ⟨fun _ _ => ⟨rfl, by simp⟩, ?_⟩⟩
    rintro header rfl
    have htime : env.headers chainID result.height = header := ha.choose_spec
    cases header with
    | none => exact ⟨rfl, by simp⟩
    | some time =>
      refine ⟨rfl, ?_⟩
      rintro _ ⟨⟩ p hp
      obtain ⟨packet, hpacket, rfl⟩ := List.mem_map.mp hp
      obtain ⟨event, hevent, htype, hattributes⟩ :=
        CosmosBridgeClient.event_of_mem_readPackets hread hpacket
      exact .cosmos hclient hhash hresult hevent htype hattributes htime
  | evm router =>
    rw [BridgeClient.sendPacketsFromTx, EVMBridgeClient.sendPacketsFromTx]
    refine wp_try ⟨by simp [ApiCall.Vets], fun ans ha => ⟨fun _ _ => ⟨rfl, by simp⟩, ?_⟩⟩
    rintro receipt rfl
    have hreceipt : env.receipts chainID (hexToHash txHash) = some receipt := ha.choose_spec
    split
    · exact ⟨rfl, by simp⟩
    rename_i packets hread
    split
    · exact ⟨rfl, by simp⟩
    refine wp_try ⟨by simp [ApiCall.Vets], fun ans ha => ⟨fun _ _ => ⟨rfl, by simp⟩, ?_⟩⟩
    rintro time rfl
    have htime : env.headerTimes chainID receipt.blockNumber = some time := ha.choose_spec
    refine ⟨rfl, ?_⟩
    rintro _ ⟨⟩ p hp
    obtain ⟨packet, hpacket, rfl⟩ := List.mem_map.mp hp
    obtain ⟨log, sendPacket, hlog, htopic, hparse, rfl⟩ :=
      EVMBridgeClient.log_of_mem_readPackets hread hpacket
    exact .evm hclient hreceipt hlog htopic hparse htime

theorem checkSender_clears {client : BridgeClient}
    (hclient : env.clients req.chainID = some client) :
    wp (learning env) (ApiCall.Vets env config loc) (checkSender client req)
      (fun o known' => known' = known ∧ ∀ u, o = .ok u → env.Cleared req.chainID req.txHash)
      known := by
  cases client with
  | cosmos =>
    refine ⟨rfl, fun _ _ router hrouter => ?_⟩
    cases hclient.symm.trans hrouter
  | evm router =>
    refine wp_try ⟨by simp [ApiCall.Vets], fun ans ha => ⟨fun _ _ => ⟨rfl, by simp⟩, ?_⟩⟩
    rintro sender rfl
    have hsender : env.signers req.chainID (hexToHash req.txHash) = some sender := ha.choose_spec
    split
    · exact ⟨rfl, by simp⟩
    · rename_i hlisted
      exact ⟨rfl, fun _ _ _ _ => ⟨sender, hsender, Bool.eq_false_iff.mpr hlisted⟩⟩

/-- The row of a packet that was reported. -/
theorem vetted_insert {info : PacketInfo} {destChainID : String}
    (hsub : ⟨req.chainID, req.txHash⟩ ∈ known)
    (hclear : env.Cleared req.chainID req.txHash)
    (hreport : env.Reports loc req.chainID req.txHash info)
    (htrack : config.getClientCounterpartyChainID req.chainID info.sourceClient = .ok destChainID) :
    Vetted env config loc known (insertedRow (info.insert req destChainID)).packet :=
  ⟨hsub, hclear, htrack, info, hreport, rfl, rfl, rfl, rfl⟩

theorem insertPackets_vets (hsub : ⟨req.chainID, req.txHash⟩ ∈ known)
    (hclear : env.Cleared req.chainID req.txHash)
    {packets : List PacketInfo}
    (hreport : ∀ p ∈ packets, env.Reports loc req.chainID req.txHash p) :
    wp (learning env) (ApiCall.Vets env config loc) (insertPackets config req packets)
      (fun _ _ => True) known := by
  induction packets with
  | nil => trivial
  | cons info packets ih =>
    have ih := ih fun p hp => hreport p (List.mem_cons_of_mem _ hp)
    rw [insertPackets]
    split
    · exact ih
    · rename_i destChainID htrack
      refine ⟨?_, fun ans _ => ?_⟩
      · rintro p ⟨⟩
        exact vetted_insert hsub hclear (hreport info List.mem_cons_self) htrack
      · cases ans with
        | ok _ => exact ih
        | error err =>
          change wp _ _ (if err.isDuplicateKey then _ else _) _ _
          split
          · exact ih
          · trivial

theorem relay_vets (config : ConfigReader) (loc : Zone) (req : RelayRequest)
    (known : List RelaySubmission) :
    wp (learning env) (ApiCall.Vets env config loc) (relay config loc req)
      (fun _ _ => True) known := by
  rw [relay]
  split
  · trivial
  refine ⟨by simp [ApiCall.Vets], fun ans _ => ?_⟩
  cases ans with
  | error err =>
    change wp _ _ (if err.isDuplicateKey then _ else _) _ _
    split <;> trivial
  | ok u =>
    have hsub : ⟨req.chainID, req.txHash⟩ ∈
        (learning env).next (.insertRelaySubmission req.chainID req.txHash) (.ok u) known :=
      List.mem_cons_self
    refine wp_try ⟨by simp [ApiCall.Vets], fun ans ha => ⟨fun _ _ => trivial, ?_⟩⟩
    rintro client rfl
    have hclient : env.clients req.chainID = some client := ha.choose_spec
    refine wp_try ((checkSender_clears hclient).post ?_)
    rintro o _ ⟨rfl, hclear⟩
    refine ⟨fun _ _ => trivial, fun u hu => ?_⟩
    refine wp_try ((sendPacketsFromTx_reports hclient).post ?_)
    rintro o' _ ⟨rfl, hreport⟩
    exact ⟨fun _ _ => trivial, fun packets hp =>
      insertPackets_vets hsub (hclear u hu) (hreport packets hp)⟩

end Handler

end PlatformRelayer
