import PlatformRelayer.RelayerApi.Service

/-!
# The packets that `SendPacketsFromTx` returns

`SendsPacket` says that an event or a log is that of a packet, with its
sequence number as the chain shows it: in decimal digits on Cosmos, as a
`uint64` on EVM. Every such packet is among the packets that are read, with
that number (`CosmosBridgeClient.mem_readPackets`,
`EVMBridgeClient.mem_readPackets`). On Cosmos this is because reading fails as a
whole for a number that is not an `int64`.
-/

namespace PlatformRelayer

open Prog

/-! ## Numbers -/

theorem parseDigits_toDigits (n : Nat) : parseDigits (Nat.toDigits 10 n) = some n := by
  have hd : (Nat.toDigits 10 n).all Char.isDigit = true :=
    List.all_eq_true.mpr fun c hc => Nat.isDigit_of_mem_toDigits (by decide) (by decide) hc
  have hne : (Nat.toDigits 10 n).isEmpty = false := by simp
  rw [parseDigits, hd, hne]
  exact congrArg some Nat.ofDigitChars_ten_toDigits

theorem toList_toString (n : Nat) : (toString n).toList = Nat.toDigits 10 n := by
  rw [Nat.toString_eq_ofList_toDigits, String.toList_ofList]

theorem toString_inj {n m : Nat} (h : toString n = toString m) : n = m := by
  have hd := congrArg (fun s : String => parseDigits s.toList) h
  simp only [toList_toString, parseDigits_toDigits] at hd
  exact Option.some.inj hd

/-- `Atoi` of a number in decimal digits. -/
theorem atoi_toString (n : Nat) : atoi (toString n) = if n < 2 ^ 63 then some (.ofInt n)
    else none := by
  have hsign (c : Char) (hc : c.isDigit = false) (cs : List Char) :
      Nat.toDigits 10 n ≠ c :: cs := by
    intro h
    have := Nat.isDigit_of_mem_toDigits (b := 10) (n := n) (by decide) (by decide)
      (h ▸ List.mem_cons_self)
    simp [hc] at this
  rw [atoi, toList_toString]
  split
  · exact absurd ‹_› (hsign '-' rfl _)
  · exact absurd ‹_› (hsign '+' rfl _)
  · rw [parseDigits_toDigits]
    rfl

theorem toUInt64_ofInt (n : UInt64) : (Int64.ofInt n.toNat).toUInt64 = n := by
  refine UInt64.toBitVec_inj.mp ?_
  change BitVec.ofInt 64 n.toNat = n.toBitVec
  rw [BitVec.ofInt_natCast]
  exact (BitVec.ofNat_toNat 64 n.toBitVec).trans (BitVec.setWidth_eq _)

/-- `int64(n)` below 2⁶³. -/
theorem toInt_toInt64 {n : UInt64} (h : n.toNat < 2 ^ 63) : n.toInt64.toInt = n.toNat := by
  show n.toBitVec.toInt = n.toBitVec.toNat
  apply BitVec.toInt_eq_toNat_of_lt
  change 2 * n.toNat < 2 ^ 64
  omega

/-! ## Cosmos -/

/-- The event has an attribute with this key, and no other value for it. -/
def AbciEvent.Has (e : AbciEvent) (key value : String) : Prop :=
  (key, value) ∈ e.attributes ∧ ∀ v, (key, v) ∈ e.attributes → v = value

/-- The event of a packet that was sent from a client with a sequence number. -/
structure AbciEvent.SendsPacket (e : AbciEvent) (sequence : UInt64) (client : String) : Prop where
  type : e.type = eventTypeSendPacket
  sequence : e.Has attributeKeyPacketSequence (toString sequence.toNat)
  sourceClient : e.Has attributeKeyPacketSourceClient client ∧ client ≠ ""
  destClient : ∃ dest, e.Has attributeKeyPacketDestClient dest ∧ dest ≠ ""

namespace CosmosBridgeClient

variable {loc : Zone} {γ : Type}

/-- A field of the packet that one key sets. -/
theorem foldlM_field (get : PacketInfo → γ) {key value : String} {x : γ}
    (hset : ∀ p q, readAttribute loc p (key, value) = .ok q → get q = x)
    (hkeep : ∀ p q attr, attr.1 ≠ key → readAttribute loc p attr = .ok q → get q = get p)
    {attributes : List (String × String)} (hunique : ∀ v, (key, v) ∈ attributes → v = value)
    {p q : PacketInfo} (h : attributes.foldlM (readAttribute loc) p = .ok q)
    (hp : (key, value) ∈ attributes ∨ get p = x) : get q = x := by
  induction attributes generalizing p with
  | nil =>
    cases h
    exact hp.resolve_left List.not_mem_nil
  | cons attr attributes ih =>
    rw [List.foldlM_cons] at h
    cases hr : readAttribute loc p attr with
    | error err => rw [hr] at h; cases h
    | ok p' =>
    rw [hr] at h
    refine ih (fun v hv => hunique v (List.mem_cons_of_mem _ hv)) h ?_
    by_cases hk : attr.1 = key
    · have hv : attr = (key, value) := by
        have := hunique attr.2 (hk ▸ List.mem_cons_self)
        exact Prod.ext hk this
      exact .inr (hset p p' (hv ▸ hr))
    · refine hp.imp (fun hm => ?_) fun hx => (hkeep p p' attr hk hr).trans hx
      exact (List.mem_cons.mp hm).resolve_left fun e => hk (e ▸ rfl)

/-- What an attribute sets. -/
theorem readAttribute_ok {p q : PacketInfo} {attr : String × String}
    (h : readAttribute loc p attr = .ok q) :
    (attr.1 = attributeKeyPacketSequence ∧ ∃ n, atoi attr.2 = some n ∧
      q = { p with sequence := n.toUInt64 }) ∨
    (attr.1 = attributeKeyPacketSourceClient ∧ q = { p with sourceClient := attr.2 }) ∨
    (attr.1 = attributeKeyPacketDestClient ∧ q = { p with destinationClient := attr.2 }) ∨
    (attr.1 = attributeKeyPacketTimeoutTimestamp ∧
      ∃ n, atoi attr.2 = some n ∧ q = { p with timeoutTimestamp := timeUnix loc n }) ∨
    q = p := by
  rw [readAttribute] at h
  split at h
  · rename_i hk
    split at h
    · cases h
    · cases h
      exact .inl ⟨hk, _, ‹_›, rfl⟩
  split at h
  · cases h
    exact .inr (.inl ⟨‹_›, rfl⟩)
  split at h
  · cases h
    exact .inr (.inr (.inl ⟨‹_›, rfl⟩))
  split at h
  · rename_i hk
    split at h
    · cases h
    · cases h
      exact .inr (.inr (.inr (.inl ⟨hk, _, ‹_›, rfl⟩)))
  · cases h
    exact .inr (.inr (.inr (.inr rfl)))

theorem readAttribute_sequence {p q : PacketInfo} {n : UInt64}
    (h : readAttribute loc p (attributeKeyPacketSequence, toString n.toNat) = .ok q) :
    q.sequence = n := by
  rw [readAttribute, if_pos rfl, atoi_toString] at h
  by_cases hn : n.toNat < 2 ^ 63
  · rw [if_pos hn] at h
    cases h
    exact toUInt64_ofInt n
  · rw [if_neg hn] at h
    cases h

theorem readAttribute_sourceClient (p : PacketInfo) (client : String) :
    readAttribute loc p (attributeKeyPacketSourceClient, client) = .ok
      { p with sourceClient := client } := by
  rw [readAttribute, if_neg (by simp [attributeKeyPacketSourceClient, attributeKeyPacketSequence]),
    if_pos rfl]

theorem readAttribute_destClient (p : PacketInfo) (client : String) :
    readAttribute loc p (attributeKeyPacketDestClient, client) = .ok
      { p with destinationClient := client } := by
  rw [readAttribute, if_neg (by simp [attributeKeyPacketDestClient, attributeKeyPacketSequence]),
    if_neg (by simp [attributeKeyPacketDestClient, attributeKeyPacketSourceClient]), if_pos rfl]

variable {e : AbciEvent} {p : PacketInfo}

theorem sequence_readPacket {n : UInt64} (he : e.Has attributeKeyPacketSequence (toString n.toNat))
    (h : readPacket loc e.attributes = .ok p) : p.sequence = n := by
  refine foldlM_field (·.sequence) (fun _ _ => readAttribute_sequence) (fun p q attr hk hq => ?_)
    he.2 h (.inl he.1)
  rcases readAttribute_ok hq with ⟨hk', -⟩ | ⟨-, rfl⟩ | ⟨-, rfl⟩ | ⟨-, _, -, rfl⟩ | rfl
  · exact absurd hk' hk
  all_goals rfl

theorem sourceClient_readPacket {client : String} (he : e.Has attributeKeyPacketSourceClient client)
    (h : readPacket loc e.attributes = .ok p) : p.sourceClient = client := by
  refine foldlM_field (·.sourceClient) (fun p q hq => ?_) (fun p q attr hk hq => ?_) he.2 h
    (.inl he.1)
  · rw [readAttribute_sourceClient] at hq
    exact congrArg (·.sourceClient) (Except.ok.inj hq).symm
  · rcases readAttribute_ok hq with ⟨-, _, -, rfl⟩ | ⟨hk', -⟩ | ⟨-, rfl⟩ | ⟨-, _, -, rfl⟩ | rfl
    · rfl
    · exact absurd hk' hk
    all_goals rfl

theorem destinationClient_readPacket {client : String}
    (he : e.Has attributeKeyPacketDestClient client)
    (h : readPacket loc e.attributes = .ok p) : p.destinationClient = client := by
  refine foldlM_field (·.destinationClient) (fun p q hq => ?_) (fun p q attr hk hq => ?_) he.2 h
    (.inl he.1)
  · rw [readAttribute_destClient] at hq
    exact congrArg (·.destinationClient) (Except.ok.inj hq).symm
  · rcases readAttribute_ok hq with ⟨-, _, -, rfl⟩ | ⟨-, rfl⟩ | ⟨hk', -⟩ | ⟨-, _, -, rfl⟩ | rfl
    · rfl
    · rfl
    · exact absurd hk' hk
    all_goals rfl

theorem mem_readPackets {events : List AbciEvent} {packets : List PacketInfo}
    (h : readPackets loc events = .ok packets) (he : e ∈ events) {n : UInt64} {client : String}
    (hs : e.SendsPacket n client) : ∃ p ∈ packets, p.sequence = n ∧ p.sourceClient = client := by
  induction events generalizing packets with
  | nil => cases he
  | cons event events ih =>
    rw [readPackets] at h
    split at h
    · rename_i ht
      rcases List.mem_cons.mp he with rfl | he
      · exact absurd hs.type ht
      · exact ih h he
    split at h
    · cases h
    rename_i p hp
    rcases List.mem_cons.mp he with rfl | he
    · obtain ⟨dest, hdest, hne⟩ := hs.destClient
      have hsource : p.sourceClient ≠ "" := by
        rw [sourceClient_readPacket hs.sourceClient.1 hp]
        exact hs.sourceClient.2
      have hd : p.destinationClient ≠ "" := by
        rw [destinationClient_readPacket hdest hp]
        exact hne
      rw [if_neg (by simp [hsource, hd])] at h
      cases hr : readPackets loc events with
      | error err => rw [hr] at h; cases h
      | ok rest =>
        rw [hr] at h
        cases h
        exact ⟨p, List.mem_cons_self, sequence_readPacket hs.sequence hp,
          sourceClient_readPacket hs.sourceClient.1 hp⟩
    · split at h
      · exact ih h he
      cases hr : readPackets loc events with
      | error err => rw [hr] at h; cases h
      | ok rest =>
        rw [hr] at h
        cases h
        obtain ⟨q, hq, hqs⟩ := ih hr he
        exact ⟨q, List.mem_cons_of_mem _ hq, hqs⟩

end CosmosBridgeClient

/-! ## EVM -/

/-- The log of a packet that was sent from a client with a sequence number. -/
def EvmLog.SendsPacket (log : EvmLog) (router : Ics26Router) (sequence : UInt64)
    (client : String) : Prop :=
  log.topics.head? = some router.sendPacketID ∧
    ∃ p, router.parseSendPacket log = .ok p ∧ p.sequence = sequence ∧ p.sourceClient = client

theorem EVMBridgeClient.mem_readPackets {loc : Zone} {router : Ics26Router}
    {chainID txHash : String} {logs : List (Option EvmLog)} {packets : List PacketInfo}
    (h : readPackets loc router chainID txHash logs = .ok packets) {log : EvmLog}
    (hl : some log ∈ logs) {n : UInt64}
    {client : String} (hs : log.SendsPacket router n client) : ∃ p ∈ packets, p.sequence = n ∧
      p.sourceClient = client := by
  induction logs generalizing packets with
  | nil => cases hl
  | cons l logs ih =>
    cases l with
    | none => exact ih h ((List.mem_cons.mp hl).resolve_left (by simp))
    | some l =>
    rw [readPackets] at h
    split at h
    · rename_i ht
      rcases List.mem_cons.mp hl with hl | hl
      · cases hl
        exact absurd hs.1 ht
      · exact ih h hl
    split at h
    · cases h
    rename_i q hq
    cases hr : readPackets loc router chainID txHash logs with
    | error err => rw [hr] at h; cases h
    | ok rest =>
    rw [hr] at h
    cases h
    rcases List.mem_cons.mp hl with hl | hl
    · cases hl
      obtain ⟨-, p, hp, hn, hc⟩ := hs
      obtain rfl : q = p := Except.ok.inj (hq.symm.trans hp)
      exact ⟨_, List.mem_cons_self, hn, hc⟩
    · obtain ⟨q, hq, hqs⟩ := ih hr hl
      exact ⟨q, List.mem_cons_of_mem _ hq, hqs⟩

end PlatformRelayer
