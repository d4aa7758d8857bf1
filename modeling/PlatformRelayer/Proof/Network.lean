import PlatformRelayer.Ibcv2.Processors
import PlatformRelayer.Proof.CosmosClient
import PlatformRelayer.Proof.EvmClient
import PlatformRelayer.Proof.TxHashes

/-!
# A network of chains

The processors with the clients that they ask, on a network of EVM and Cosmos chains.
Each call to a node may see more txs than the one before it, on every chain.

A processor on its own needs to know what its calls report (`NetState.Told`), if they
are about a packet that there is (`Call.Known`). `out_reports` says that the clients do
report so, whatever chain they are for. So what a program guarantees where its calls
report so, it guarantees on the network (`onNet_returned`, `onNet_next`).
-/

namespace PlatformRelayer

open Db Prog

/-! ## Networks -/

/-- A chain of a network: what it keeps to, the client that is used for it, and how
its nodes answer the calls of the client. -/
structure NetChain where
  client : ChainClient
  rules : ChainRules
  hashString : List UInt8 → String
  readHash : String → Option (List UInt8)
  read_hashString {hash : List UInt8} : hash.length = 32 → readHash (hashString hash) = some hash
  answers (fails : Prop) : (c : SearchCall) → c.Ans → Chain → Chain → Prop
  grows {fails : Prop} {c : SearchCall} {a : c.Ans} {s s' : Chain} : answers fails c a s s' →
    s.Grows rules s'
  tracks (fails : Prop) : client.Tracks rules hashString readHash (answers fails) fails

def NetChain.evm (client : EVMSearcher) (router : EvmRouter) (rules : ChainRules)
    (hsound : router.Sound client rules.ids) : NetChain where
  client := client.chainClient
  rules := rules
  hashString := EVMBridgeClient.hashString
  readHash := some ∘ hexToHash
  read_hashString h := congrArg some (hexToHash_hashString h)
  answers := router.Answers client rules
  grows h := h.1
  tracks _ := EVMSearcher.tracks hsound

def NetChain.cosmos (client : CosmosSearcher) (index : CosmosIndex) (rules : ChainRules)
    (hsound : index.Sound rules.ids) : NetChain where
  client := client.chainClient
  rules := rules
  hashString := CosmosBridgeClient.hashString
  readHash txHash := (hexDecodeString txHash).toOption
  read_hashString {hash} _ := congrArg Except.toOption (hexDecodeString_hashString hash)
  answers := index.Answers rules
  grows h := h.1
  tracks _ := CosmosSearcher.tracks hsound

/-- The chains by their ids. -/
abbrev Net := String → NetChain

/-- What has happened on the chains, and the row of a transfer. -/
structure NetState where
  chains : String → Chain
  row : Db.Ibcv2Transfer

def NetState.Lawful (net : Net) (s : NetState) : Prop :=
  ∀ id, PlatformRelayer.Lawful (net id).rules (s.chains id).events

def NetState.Grows (net : Net) (s s' : NetState) : Prop :=
  ∀ id, (s.chains id).Grows (net id).rules (s'.chains id)

/-- A call to another party than a node that is answered by an error. -/
def Call.Failed : (c : PlatformRelayer.Call) → c.Ans → Prop
  | .getClient _, .error _ => True
  | .exec _, .error _ => True
  | _, _ => False

/-- How a call is answered that goes out. Those that may fail are given by the query
that they are made for. -/
def Net.Answers (net : Net) (fails : PlatformRelayer.Call → Prop) (key : TransferKey) :
    (c : NetCall) → c.Ans → NetState → NetState → Prop
  | .node query id c, a, s, s' =>
    s.Grows net s' ∧ s'.row = s.row ∧
      (net id).answers (fails query) c a (s.chains id) (s'.chains id)
  | .other c, a, s, s' => s.Grows net s' ∧ s'.row = c.effectOn key a s.row ∧ (c.Failed a → fails c)

namespace NetState

variable {net : Net} {s s' s'' : NetState}

theorem Grows.refl (h : s.Lawful net) : s.Grows net s := fun id => .refl (h id)

theorem Grows.trans (h : s.Grows net s') (h' : s'.Grows net s'') : s.Grows net s'' :=
  fun id => (h id).trans (h' id)

theorem Grows.lawful (h : s.Grows net s') : s'.Lawful net := fun id => (h id).lawful

end NetState

/-- A program of the pipeline on the network. -/
def onNet {α : Type} (net : Net) (q : Relay α) : Prog NetCall (fun c => c.Ans × NetState) α :=
  (q.through (Call.out fun id => (net id).client)).blind NetState

/-! ## What the calls report -/

/-- The transfer is that of the packet. -/
structure IBCV2Transfer.IsFor (t : IBCV2Transfer) (p : ChainPacket) : Prop where
  source : t.packetSourceClientID = p.sourceClientID
  dest : t.packetDestinationClientID = p.destClientID
  sequence : t.sequence = p.sequence
  timeout : unixSeconds t.packetTimeoutTimestamp = p.timeoutTimestamp.toNat

section Reports

variable (net : Net) (fails : PlatformRelayer.Call → Prop) (key : TransferKey) (p : ChainPacket)

/-- The call is about the packet, if it is a query for one. -/
def Call.Known : PlatformRelayer.Call → NetState → Prop
  | .isPacketReceived id clientID _, _ => clientID ∈ (net id).rules.ids
  | .isPacketCommitted id clientID _, _ => clientID ∈ (net id).rules.ids
  | .findRecvTx id source dest sequence timeoutTimestamp, _ =>
    p ∈ (net id).rules.genuine ∧ p.sourceClientID ∈ (net id).rules.ids ∧
      p.destClientID ∈ (net id).rules.ids ∧
      source = p.sourceClientID ∧ dest = p.destClientID ∧ sequence = p.sequence ∧
      unixSeconds timeoutTimestamp = p.timeoutTimestamp.toNat
  | .findAckTx id source dest sequence, s =>
    .sent p ∈ (s.chains id).events ∧ source = p.sourceClientID ∧ dest = p.destClientID ∧
      sequence = p.sequence
  | .findTimeoutTx id source dest sequence, s =>
    .sent p ∈ (s.chains id).events ∧ source = p.sourceClientID ∧ dest = p.destClientID ∧
      sequence = p.sequence
  | _, _ => True

/-- What the answer to a call says. -/
def NetState.Told : (c : PlatformRelayer.Call) → c.Ans → NetState → NetState → Prop
  | c@(.isPacketReceived id clientID sequence), o, s, s' =>
    (s.chains id).Tells (net id).rules (Received · clientID sequence) (fails c) o (s'.chains id)
  | c@(.isPacketCommitted id clientID sequence), o, s, s' =>
    (s.chains id).Tells (net id).rules (Committed · clientID sequence) (fails c) o (s'.chains id)
  | c@(.findRecvTx id ..), o, s, s' =>
    (s.chains id).Finds (net id).rules (net id).hashString .recv p (fails c) o (s'.chains id)
  | c@(.findAckTx id ..), o, s, s' =>
    (s.chains id).Finds (net id).rules (net id).hashString .ack p (fails c) o (s'.chains id)
  | c@(.findTimeoutTx id ..), o, s, s' =>
    (s.chains id).Finds (net id).rules (net id).hashString .timeout p (fails c) o (s'.chains id)
  | c@(.shouldRetryTx id txHash expiry sentTs), o, s, s' =>
    (s.chains id).Retries (net id).rules ((net id).readHash txHash) expiry sentTs (fails c) o
      (s'.chains id)
  | c, a, _, _ => c.Failed a → fails c

structure NetState.Reports (c : PlatformRelayer.Call) (a : c.Ans) (s s' : NetState) : Prop where
  grows : s.Grows net s'
  row : s'.row = c.effectOn key a s.row
  told : c.Known net p s → Told net fails p c a s s'

/-- What holds where a call is made to another party than a node. -/
def NetCall.Pre (I : PlatformRelayer.Call → NetState → Prop) : NetCall → NetState → Prop
  | .node .., _ => True
  | .other c, s => I c s

variable {net fails key p} {I : PlatformRelayer.Call → NetState → Prop}

/-- Any program that searches a chain sees it grow. -/
theorem NetChain.search_grows (chain : NetChain) {fails : Prop} {α : Type} (q : Search α)
    {c : Chain} (hc : Lawful chain.rules c.events) :
    wpRel (chain.answers fails) (fun _ _ => True) q (fun _ c' => c.Grows chain.rules c') c := by
  have hfrom : ∀ c', c.Grows chain.rules c' →
      wpRel (chain.answers fails) (fun _ _ => True) q (fun _ c' => c.Grows chain.rules c') c' := by
    induction q with
    | ret a => exact fun _ h => h
    | call call k ih => exact fun c' h => ⟨trivial, fun r hr => ih r.1 _ (h.trans (chain.grows hr))⟩
  exact hfrom c (.refl hc)

/-- A query of a client leaves the row as it is. -/
theorem query_reports {c : PlatformRelayer.Call} {id : String} {s : NetState} (hs : s.Lawful net)
    {α : Type} {q : Search α}
    {Q : α → Chain → Prop} {P : Prop}
    (h : P → wpRel ((net id).answers (fails c)) (fun _ _ => True) q Q (s.chains id)) :
    wpRel (net.Answers fails key) (NetCall.Pre I) (q.within (.node c id) fun _ r => r)
      (fun a s' => s.Grows net s' ∧ s'.row = s.row ∧ (P → Q a (s'.chains id))) s := by
  have hq : wpRel ((net id).answers (fails c)) (fun _ _ => True) q (fun a c' => P → Q a c')
      (s.chains id) := by
    by_cases hP : P
    · exact (h hP).post fun _ _ hQ _ => hQ
    · exact ((net id).search_grows q (hs id)).post fun _ _ _ hP' => absurd hP' hP
  refine wp.post (wpRel_within_get (fun s => s.chains id)
    (fun s' => s.Grows net s' ∧ s'.row = s.row) ?_ ?_ hq ⟨.refl hs, rfl⟩)
    fun a s' ha => ⟨ha.2.1, ha.2.2, ha.1⟩
  · intro call r s₁ s₂ _ hI hans
    exact ⟨hans.2.2, hI.1.trans hans.1, hans.2.1.trans hI.2⟩
  · exact fun _ _ _ _ => trivial

/-- The clients report what has happened. -/
theorem out_reports (c : PlatformRelayer.Call) {s : NetState} (hs : s.Lawful net) (hI : I c s) :
    wpRel (net.Answers fails key) (NetCall.Pre I) (c.out fun id => (net id).client)
      (fun a s' => s.Reports net fails key p c a s') s := by
  cases c with
  | isPacketReceived id clientID sequence =>
    refine (query_reports hs fun hc => ((net id).tracks _).received _ hc sequence).post
      fun a s' ha => ?_
    exact ⟨ha.1, ha.2.1, ha.2.2⟩
  | isPacketCommitted id clientID sequence =>
    refine (query_reports hs fun hc => ((net id).tracks _).committed _ hc sequence).post
      fun a s' ha => ?_
    exact ⟨ha.1, ha.2.1, ha.2.2⟩
  | findRecvTx id source dest sequence timeoutTimestamp =>
    refine (query_reports hs (Q := (s.chains id).Finds _ _ .recv p _) fun hc => ?_).post
      fun a s' ha => ⟨ha.1, ha.2.1, ha.2.2⟩
    obtain ⟨hp, hsource, hdest, rfl, rfl, rfl, ht⟩ := hc
    exact ((net id).tracks _).recv _ hp hsource hdest ht
  | findAckTx id source dest sequence =>
    refine (query_reports hs (Q := (s.chains id).Finds _ _ .ack p _) fun hc => ?_).post
      fun a s' ha => ⟨ha.1, ha.2.1, ha.2.2⟩
    obtain ⟨hp, rfl, rfl, rfl⟩ := hc
    exact ((net id).tracks _).ack (hs id) hp
  | findTimeoutTx id source dest sequence =>
    refine (query_reports hs (Q := (s.chains id).Finds _ _ .timeout p _) fun hc => ?_).post
      fun a s' ha => ⟨ha.1, ha.2.1, ha.2.2⟩
    obtain ⟨hp, rfl, rfl, rfl⟩ := hc
    exact ((net id).tracks _).timeout (hs id) hp
  | shouldRetryTx id txHash expiry sentTs =>
    refine (query_reports hs fun (_ : True) =>
      ((net id).tracks _).retry (hs id) txHash expiry sentTs).post fun a s' ha => ?_
    exact ⟨ha.1, ha.2.1, ha.2.2⟩
  | txFee id txHash =>
    -- nothing is said of the fee
    refine (query_reports hs fun (_ : True) => (net id).search_grows _ (hs id)).post
      fun a s' ha => ?_
    exact ⟨ha.1, ha.2.1, fun _ h => h.elim⟩
  | _ => exact wpRel_perform.mpr ⟨hI, fun a s' ha => ⟨ha.1, ha.2.1, fun _ => ha.2.2⟩⟩

/-- Whatever a program does, the chains grow. -/
theorem wpRel_grows {s : NetState} (hs : s.Lawful net) {α : Type} (q : Relay α) :
    wpRel (NetState.Reports net fails key p) (fun _ s => s.Lawful net) q
      (fun _ s' => s.Grows net s') s := by
  have hfrom : ∀ s', s.Grows net s' →
      wpRel (NetState.Reports net fails key p) (fun _ s => s.Lawful net) q
      (fun _ s' => s.Grows net s') s' := by
    induction q with
    | ret a => exact fun _ h => h
    | call c k ih => exact fun s' h => ⟨h.lawful, fun r hr => ih r.1 _ (h.trans hr.grows)⟩
  exact hfrom s (.refl hs)

section OnNet

variable {α : Type} {q : Relay α} {Q : α → NetState → Prop} {s s' : NetState}

/-- What a program guarantees where its calls report what has happened, it guarantees on
the network. -/
theorem wp_onNet (h : wpRel (NetState.Reports net fails key p)
      (fun c s => s.Lawful net ∧ I c s) q Q s) :
    wp (Sem.rel (net.Answers fails key)) (NetCall.Pre I) (onNet net q) Q s :=
  wpRel_through (fun c _ hc => out_reports c hc.1 hc.2) h

theorem onNet_returned {a : α}
    (h : wpRel (NetState.Reports net fails key p) (fun _ s => s.Lawful net) q Q s)
    (hrun : Steps (Sem.rel (net.Answers fails key)) (onNet net q) s (.ret a) s') : Q a s' :=
  (wp_onNet (I := fun _ _ => True) (h.mono (fun _ _ hs => ⟨hs, trivial⟩) fun _ _ hQ => hQ)).returned
    hrun

theorem onNet_next {q' : Prog NetCall (fun c => c.Ans × NetState) α} {c : PlatformRelayer.Call}
    (h : wpRel (NetState.Reports net fails key p) (fun c s => s.Lawful net ∧ I c s) q Q s)
    (hrun : Steps (Sem.rel (net.Answers fails key)) (onNet net q) s q' s')
    (hnext : q'.next? = some (.other c)) : I c s' :=
  (wp_onNet h).next hrun hnext

end OnNet

end Reports

end PlatformRelayer
