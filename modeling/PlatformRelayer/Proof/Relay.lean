import Mathlib.Data.UInt
import PlatformRelayer.Framework.Concurrent
import PlatformRelayer.Proof.Packets

/-!
# What `Relay` and `Status` do to the tables

No call of the API changes or removes a row (`grows_effect`), so a row that a
`Relay` has found or inserted is there ever after, whatever other requests do
at the same time. Once a `Relay` has returned without an error, every packet of
its tx has its row (`relay_resumable`): `Relay` returns early only with an
error, and what it has not inserted itself was there.

A row keeps the spelling of the hash and the `int32` of the sequence number
that it was inserted with. `Status` finds it under that spelling alone
(`status_lists_iff`), and a number from 2³¹ on is not the packet's any more
(`packet_identity_iff`).
-/

namespace PlatformRelayer

open Prog Db Relation

/-! ## Rows stay -/

/-- The rows of `s` are in `s'`, as they were. -/
structure Store.Grows (s s' : Store) : Prop where
  transfers (K : TransferKey) (r : Ibcv2Transfer) : s.transfers.row? K = some r →
    s'.transfers.row? K = some r
  submissions (r : RelaySubmission) : r ∈ s.submissions.rows → r ∈ s'.submissions.rows

theorem Store.Grows.refl (s : Store) : s.Grows s := ⟨fun _ _ h => h, fun _ h => h⟩

theorem Store.Grows.trans {s₁ s₂ s₃ : Store} (h : s₁.Grows s₂) (h' : s₂.Grows s₃) : s₁.Grows s₃ :=
  ⟨fun K r hr => h'.transfers K r (h.transfers K r hr), fun r hr =>
    h'.submissions r (h.submissions r hr)⟩

theorem row?_insertIBCV2Transfer {db : Transfers} {K : TransferKey} {r : Ibcv2Transfer}
    (h : db.row? K = some r)
    (p : InsertIBCV2TransferParams) : (insertIBCV2Transfer p db).row? K = some r := by
  rw [insertIBCV2Transfer]
  split
  · exact h
  · exact Table.row?_insert _ h

/-- After an insert, there is a row with its key. -/
theorem exists_row_insertIBCV2Transfer (p : InsertIBCV2TransferParams) (db : Transfers) :
    ∃ r, (insertIBCV2Transfer p db).row? (insertedRow p).key = some r := by
  rw [insertIBCV2Transfer]
  split
  · rename_i h
    obtain ⟨r, hr, hk⟩ := List.mem_map.mp h
    exact ⟨r, hk ▸ Table.row?_of_mem hr⟩
  · exact ⟨insertedRow p, Table.row?_of_mem List.mem_cons_self⟩

theorem mem_insertIBCV2Transfer {p : InsertIBCV2TransferParams} {db : Transfers} {r : Ibcv2Transfer}
    (h : r ∈ (insertIBCV2Transfer p db).rows) : r ∈ db.rows ∨ r = insertedRow p := by
  rw [insertIBCV2Transfer] at h
  split at h
  · exact .inl h
  · exact (List.mem_cons.mp h).symm

theorem mem_insertRelaySubmission {db : Submissions} {r : RelaySubmission} (h : r ∈ db.rows)
    (x : RelaySubmission) : r ∈ (insertRelaySubmission x db).rows := by
  rw [insertRelaySubmission]
  split
  · exact h
  · exact List.mem_cons_of_mem _ h

theorem grows_effect (c : ApiCall) (a : c.Ans) (s : Store) : s.Grows (c.effect a s) := by
  cases c with
  | insertRelaySubmission chainID hash =>
    cases a with
    | error err => exact .refl s
    | ok _ => exact ⟨fun _ _ h => h, fun _ h => mem_insertRelaySubmission h _⟩
  | insertIBCV2Transfer p =>
    cases a with
    | error err => exact .refl s
    | ok _ => exact ⟨fun _ _ h => row?_insertIBCV2Transfer h p, fun _ h => h⟩
  | _ => exact .refl s

theorem steps_grows {α : Type} {env : Env} {p p' : Api α} {s s' : Store}
    (h : Steps (api env) p s p' s') : s.Grows s' := by
  induction h with
  | refl => exact .refl _
  | call r _ _ ih => exact (grows_effect _ r _).trans ih

/-! ## What is on the chains -/

/-- The tx, as the client of its chain knows it, sent a packet from a client
with a sequence number. -/
def Env.Sends (env : Env) (chainID txHash : String) (sequence : UInt64) (client : String) : Prop :=
  match env.clients chainID with
  | none => False
  | some .cosmos => ∃ hash result, hexDecodeString txHash = .ok hash ∧
    env.txs chainID hash = some result ∧
      ∃ e ∈ result.events, e.SendsPacket sequence client
  | some (.evm router) => ∃ receipt, env.receipts chainID (hexToHash txHash) = some receipt ∧
      ∃ log, some log ∈ receipt.logs ∧ log.SendsPacket router sequence client

/-- The key of a packet's row. -/
def packetKey (chainID : String) (sequence : UInt64) (client : String) : TransferKey :=
  ⟨chainID, client, sequence.toUInt32.toInt32⟩

/-- A client of the chain has a configured counterparty. -/
def ConfigReader.Tracks (config : ConfigReader) (chainID client : String) : Prop :=
  ∃ dest, config.getClientCounterpartyChainID chainID client = .ok dest

section Relay

variable {env : Env} {config : ConfigReader} {loc : Zone} {req : RelayRequest}
  {R : Store → Store → Prop}
  {P : Store → Prop} {s : Store}

/-- A call, with what it leaves true of the tables. -/
theorem request_spec (c : ApiCall) (hP : ∀ s s', R s s' → P s → P s')
    (hc : ∀ a s, P s → P (c.effect a s)) (hs : P s) :
    shared (api env) R (request c) (fun a s' => P s' ∧ ∃ s₁, P s₁ ∧ env.Answers c a s₁) s := by
  refine shared_perform fun s₁ h₁ a ha s' h' => ?_
  have hs₁ : P s₁ := hP _ _ h₁ hs
  exact ⟨hP _ _ h' (hc a s₁ hs₁), s₁, hs₁, ha⟩

/-- What is returned has every packet that was sent. -/
def Env.Lists (env : Env) (chainID txHash : String) (packets : List PacketInfo) : Prop :=
  ∀ n c, env.Sends chainID txHash n c → ∃ p ∈ packets, p.sequence = n ∧ p.sourceClient = c

theorem exists_timestamped {packets : List PacketInfo} {n : UInt64} {c : String} (t : GoTime)
    (h : ∃ p ∈ packets, p.sequence = n ∧ p.sourceClient = c) :
    ∃ p ∈ packets.map (fun p => { p with timestamp := t }), p.sequence = n ∧
      p.sourceClient = c := by
  obtain ⟨p, hp, hn⟩ := h
  exact ⟨_, List.mem_map_of_mem hp, hn⟩

/-- The packets of a tx, where they are returned. -/
def Env.Returns (env : Env) (P : Store → Prop) (chainID txHash : String)
    (o : Except Err (List PacketInfo)) (s : Store) :
    Prop := ∀ packets, o = .ok packets → P s ∧ env.Lists chainID txHash packets

theorem returns_error {chainID txHash : String} (err : Err) :
    shared (api env) R (.ret (.error err)) (env.Returns P chainID txHash) s := by
  rintro s' _ _ ⟨⟩

variable (hrefl : ∀ s, R s s) (hP : ∀ s s', R s s' → P s → P s')
include hP

theorem returns_ok {chainID txHash : String} {packets : List PacketInfo} (hs : P s)
    (hlists : env.Lists chainID txHash packets) :
    shared (api env) R (.ret (.ok packets)) (env.Returns P chainID txHash) s := by
  rintro s' hs' _ ⟨⟩
  exact ⟨hP _ _ hs' hs, hlists⟩

include hrefl

theorem CosmosBridgeClient.sendPacketsFromTx_spec {chainID txHash : String}
    (hclient : env.clients chainID = some .cosmos) (hs : P s) :
    shared (api env) R (sendPacketsFromTx loc chainID txHash) (env.Returns P chainID txHash) s := by
  rw [sendPacketsFromTx]
  split
  · exact returns_error _
  rename_i hash hhash
  refine shared_attempt hrefl (by simp [Env.Returns])
    ((request_spec (.tx chainID hash) hP (fun _ _ h => h) hs).post ?_)
  rintro _ s₁ ⟨hs₁, _, -, ha⟩ result rfl
  have hread {packets} (hp : readPackets loc result.events = .ok packets) :
      env.Lists chainID txHash packets := by
    intro n c hsend
    simp only [Env.Sends, hclient] at hsend
    obtain ⟨hash', result', hh, hr, e, he, hsends⟩ := hsend
    obtain rfl : hash = hash' := Except.ok.inj (hhash.symm.trans hh)
    obtain rfl : result = result' := Option.some.inj (Eq.trans (Eq.symm ha) hr)
    exact mem_readPackets hp he hsends
  split
  · exact returns_error _
  rename_i packets hp
  split
  · rename_i hempty
    exact returns_ok hP hs₁ (List.isEmpty_iff.mp hempty ▸ hread hp)
  refine shared_attempt hrefl (by simp [Env.Returns])
    ((request_spec (.header chainID result.height) hP (fun _ _ h => h) hs₁).post ?_)
  rintro _ s₂ ⟨hs₂, -⟩ time rfl
  cases time with
  | none => exact returns_error _
  | some time => exact returns_ok hP hs₂ fun n c hsend => exists_timestamped _ (hread hp n c hsend)

theorem EVMBridgeClient.sendPacketsFromTx_spec {router : Ics26Router} {chainID txHash : String}
    (hclient : env.clients chainID = some (.evm router)) (hs : P s) :
    shared (api env) R (sendPacketsFromTx loc router chainID txHash)
      (env.Returns P chainID txHash) s := by
  rw [sendPacketsFromTx]
  refine shared_attempt hrefl (by simp [Env.Returns])
    ((request_spec (.transactionReceipt chainID (hexToHash txHash)) hP (fun _ _ h => h) hs).post ?_)
  rintro _ s₁ ⟨hs₁, _, -, ha⟩ receipt rfl
  have hread {packets} (hp : readPackets loc router chainID txHash receipt.logs = .ok packets) :
      env.Lists chainID txHash packets := by
    intro n c hsend
    simp only [Env.Sends, hclient] at hsend
    obtain ⟨receipt', hr, log, hl, hsends⟩ := hsend
    obtain rfl : receipt = receipt' := Option.some.inj (Eq.trans (Eq.symm ha) hr)
    exact mem_readPackets hp hl hsends
  split
  · exact returns_error _
  rename_i packets hp
  split
  · rename_i hempty
    exact returns_ok hP hs₁ (List.isEmpty_iff.mp hempty ▸ hread hp)
  refine shared_attempt hrefl (by simp [Env.Returns])
    ((request_spec (.headerByNumber chainID receipt.blockNumber) hP (fun _ _ h => h) hs₁).post ?_)
  rintro _ s₂ ⟨hs₂, -⟩ time rfl
  exact returns_ok hP hs₂ fun n c hsend => exists_timestamped _ (hread hp n c hsend)

theorem checkSender_spec {client : BridgeClient} (hs : P s) :
    shared (api env) R (checkSender client req) (fun _ s' => P s') s := by
  cases client with
  | cosmos => exact fun s' hs' => hP _ _ hs' hs
  | evm router =>
    refine shared_bind hrefl
      ((request_spec (.txSigner req.chainID (hexToHash req.txHash)) hP (fun _ _ h => h) hs).post ?_)
    rintro (err | sender) s₁ ⟨hs₁, -⟩
    · exact fun s' hs' => hP _ _ hs' hs₁
    · dsimp only
      split
      · exact fun s' hs' => hP _ _ hs' hs₁
      · exact fun s' hs' => hP _ _ hs' hs₁

/-- `Relay` succeeds only by way of its loop, with every packet of the tx. -/
theorem relay_spec {Q : Except StatusErr Unit → Store → Prop} (herr : ∀ e s, Q (.error e) s)
    (hsub : ∀ s sub, P s → P { s with submissions := sub })
    (h : ∀ packets s, P s → env.Lists req.chainID req.txHash packets →
      shared (api env) R (insertPackets config req packets) Q s)
    (hs : P s) : shared (api env) R (relay config loc req) Q s := by
  rw [relay]
  split
  · exact fun s' _ => herr _ s'
  have hc (a) (s : Store) (hs : P s) :
      P ((ApiCall.insertRelaySubmission req.chainID req.txHash).effect a s) := by
    cases a with
    | error err => exact hs
    | ok _ => exact hsub s _ hs
  refine shared_bind hrefl ((request_spec _ hP hc hs).post ?_)
  rintro (err | _) s₁ ⟨hs₁, _, -, ha⟩
  · -- an insert of a submission that exists is no error
    have hdup : err.isDuplicateKey = false := ha
    simp only [hdup, Bool.false_eq_true, if_false]
    exact fun s' _ => herr _ s'
  refine shared_attempt hrefl herr
    ((request_spec (.getClient req.chainID) hP (fun _ _ h => h) hs₁).post ?_)
  rintro _ s₂ ⟨hs₂, _, -, hclient⟩ client rfl
  refine shared_attempt hrefl herr ((checkSender_spec hrefl hP hs₂).post fun _ s₃ hs₃ _ _ => ?_)
  refine shared_attempt hrefl herr ?_
  have hpackets : shared (api env) R (client.sendPacketsFromTx loc req.chainID req.txHash)
      (fun o s' => ∀ packets, o = .ok packets → P s' ∧ env.Lists req.chainID req.txHash packets)
      s₃ := by
    cases client with
    | cosmos => exact CosmosBridgeClient.sendPacketsFromTx_spec hrefl hP hclient hs₃
    | evm router => exact EVMBridgeClient.sendPacketsFromTx_spec hrefl hP hclient hs₃
  refine hpackets.post fun o s₄ ho packets hok => ?_
  obtain ⟨hs₄, hlists⟩ := ho packets hok
  exact h packets s₄ hs₄ hlists

end Relay

/-! ## The loop -/

section Insert

variable {env : Env} {config : ConfigReader} {req : RelayRequest} {s : Store}

theorem key_insertedRow_insert (p : PacketInfo) (req : RelayRequest) (dest : String) :
    (insertedRow (p.insert req dest)).key = packetKey req.chainID p.sequence p.sourceClient := rfl

/-- Whether it is inserted or there already, a row with the packet's key is
there when the insert does not fail. -/
theorem insert_spec {p : PacketInfo} {dest : String} :
    shared (api env) Store.Grows (request (.insertIBCV2Transfer (p.insert req dest)))
      (fun a s' => (∀ err, a = .error err → err.isDuplicateKey = true) →
        ∃ r, s'.transfers.row? (packetKey req.chainID p.sequence p.sourceClient) = some r) s := by
  refine shared_perform fun s₁ _ a ha s' hs' hok => ?_
  cases a with
  | error err =>
    obtain ⟨r, hr, hk⟩ := List.mem_map.mp (ha (hok err rfl))
    exact ⟨r, hs'.transfers _ _ (key_insertedRow_insert p req dest ▸ hk ▸ Table.row?_of_mem hr)⟩
  | ok _ =>
    obtain ⟨r, hr⟩ := exists_row_insertIBCV2Transfer (p.insert req dest) s₁.transfers
    exact ⟨r, hs'.transfers _ _ hr⟩

/-- Where the loop has succeeded, every packet whose client is tracked has a
row. -/
theorem insertPackets_shared (packets : List PacketInfo) (s : Store) :
    shared (api env) Store.Grows (insertPackets config req packets) (fun o s' => o = .ok () →
      ∀ p ∈ packets, config.Tracks req.chainID p.sourceClient →
        ∃ r, s'.transfers.row? (packetKey req.chainID p.sequence p.sourceClient) = some r) s := by
  induction packets generalizing s with
  | nil => exact fun _ _ _ p hp => absurd hp List.not_mem_nil
  | cons p packets ih =>
    rw [insertPackets]
    split
    · rename_i err herr
      refine (ih s).post fun o s' h hok q hq hq' => ?_
      rcases List.mem_cons.mp hq with rfl | hq
      · obtain ⟨dest, hdest⟩ := hq'
        rw [herr] at hdest
        cases hdest
      · exact h hok q hq hq'
    · rename_i dest hdest
      have hrest {s₁ : Store} (hrow : ∃ r,
          s₁.transfers.row? (packetKey req.chainID p.sequence p.sourceClient) = some r) :
          shared (api env) Store.Grows (insertPackets config req packets) (fun o s' => o = .ok () →
            ∀ q ∈ p :: packets, config.Tracks req.chainID q.sourceClient →
              ∃ r, s'.transfers.row? (packetKey req.chainID q.sequence q.sourceClient) = some r)
            s₁ := by
        obtain ⟨r, hr⟩ := hrow
        refine ((ih s₁).frame (fun c a s _ => grows_effect c a s) (fun _ _ h => h.transfers _ r)
          hr).post ?_
        rintro o s' ⟨h, hr'⟩ hok q hq hq'
        rcases List.mem_cons.mp hq with rfl | hq
        · exact ⟨r, hr'⟩
        · exact h hok q hq hq'
      refine shared_bind Store.Grows.refl (insert_spec.post ?_)
      rintro (err | _) s₁ ha
      · dsimp only
        split
        · exact hrest (ha fun e he => by cases he; assumption)
        · rintro s' _ ⟨⟩
      · exact hrest (ha fun e he => by cases he)

/-- Where `Relay` has succeeded, every packet of the tx whose client is tracked
has a row. -/
theorem relay_shared (loc : Zone) (s : Store) :
    shared (api env) Store.Grows (relay config loc req) (fun o s' => o = .ok () →
      ∀ n c, env.Sends req.chainID req.txHash n c → config.Tracks req.chainID c →
        ∃ r, s'.transfers.row? (packetKey req.chainID n c) = some r) s := by
  refine relay_spec (P := fun _ => True) Store.Grows.refl (fun _ _ _ _ => trivial) (by simp)
    (fun _ _ _ => trivial) (fun packets s _ hlists => ?_) trivial
  refine (insertPackets_shared packets s).post fun o s' h hok n c hsend hc => ?_
  obtain ⟨p, hp, rfl, rfl⟩ := hlists n c hsend
  exact h hok p hp hc

/-- `Relay` adds rows with its own spelling of the hash and no others. -/
def Store.From (s : Store) (req : RelayRequest) (s' : Store) : Prop :=
  ∀ r ∈ s'.transfers.rows, r ∈ s.transfers.rows ∨ r.sourceTxHash = req.txHash

theorem insertPackets_from {s₀ : Store} (packets : List PacketInfo) (hs : s₀.From req s) :
    shared (api env) Eq (insertPackets config req packets) (fun _ s' => s₀.From req s') s := by
  induction packets generalizing s with
  | nil => exact fun s' h => h ▸ hs
  | cons p packets ih =>
    rw [insertPackets]
    split
    · exact ih hs
    · rename_i dest hdest
      have hc (a) (s : Store) (hs : s₀.From req s) :
          s₀.From req ((ApiCall.insertIBCV2Transfer (p.insert req dest)).effect a s) := by
        cases a with
        | error err => exact hs
        | ok _ =>
          intro r hr
          rcases mem_insertIBCV2Transfer hr with hr | rfl
          · exact hs r hr
          · exact .inr rfl
      refine shared_bind Eq.refl ((request_spec _ (fun _ _ h hs => h ▸ hs) hc hs).post ?_)
      rintro (err | _) s₁ ⟨hs₁, -⟩
      · dsimp only
        split
        · exact ih hs₁
        · exact fun s' h => h ▸ hs₁
      · exact ih hs₁

theorem relay_from {loc : Zone} {s' : Store}
    (h : Steps (api env) (relay config loc req) s (.ret (.ok ())) s') : s.From req s' := by
  have hspec : shared (api env) Eq (relay config loc req)
      (fun o s' => o = .ok () → s.From req s') s := by
    refine relay_spec (P := s.From req) Eq.refl (fun _ _ h hs => h ▸ hs) (by simp)
      (fun _ _ hs => hs) (fun packets s₁ hs _ => ?_) fun r hr => .inl hr
    exact (insertPackets_from packets hs).post fun _ _ h _ => h
  exact hspec.returned Eq.refl h rfl

end Insert

/-- A successful `Status` lists the rows of its tx. -/
theorem status_spec {env : Env} {req : StatusRequest} {s s' : Store} {list : List PacketStatus}
    (h : Steps (api env) (status req) s (.ret (.ok list)) s') :
    list.Perm ((getTransfersBySourceTx req.chainID req.txHash s.transfers).map packetStatus) := by
  have hspec : shared (api env) Eq (status req) (fun o _ => ∀ list, o = .ok list →
      list.Perm ((getTransfersBySourceTx req.chainID req.txHash s.transfers).map packetStatus))
    s := by
    rw [status]
    split
    · rintro s' - list ⟨⟩
    have hP : ∀ s₁ s₂ : Store, s₁ = s₂ → s₁ = s → s₂ = s := fun _ _ h hs => h ▸ hs
    refine shared_bind Eq.refl
      ((request_spec (.getRelaySubmission req.chainID req.txHash) hP (fun _ _ h => h) rfl).post ?_)
    rintro (err | _) s₁ ⟨hs₁, -⟩
    · dsimp only
      split
      · rintro s' - list ⟨⟩
      · rintro s' - list ⟨⟩
    refine shared_attempt Eq.refl (by simp)
      ((request_spec (.getTransfersBySourceTx req.chainID req.txHash) hP
        (fun _ _ h => h) hs₁).post ?_)
    rintro _ s₂ ⟨-, _, rfl, ha⟩ rows rfl s' - list hl
    cases hl
    exact List.Perm.map _ ha
  exact hspec.returned Eq.refl h list rfl

/-! ## Relays at the same time -/

/-- Any number of `Relay` calls at the same time, of which any call may fail:
rows stay as they are, and once one has returned `OK`, there is one row for
each packet of its tx whose client is tracked. -/
theorem relay_resumable {ι : Type} [DecidableEq ι] (env : Env) (config : ConfigReader) (loc : Zone)
    (reqs : ι → RelayRequest) (s₀ s₁ s₂ : Store) (ps₁ ps₂ : ι → Api (Except StatusErr Unit))
    (h₁ : ReflTransGen (Turn (api env)) (fun i => relay config loc (reqs i), s₀) (ps₁, s₁))
    (h₂ : ReflTransGen (Turn (api env)) (ps₁, s₁) (ps₂, s₂)) :
    (∀ r ∈ s₁.transfers.rows, r ∈ s₂.transfers.rows) ∧
      ∀ i, ps₁ i = .ret (.ok ()) → ∀ n c, env.Sends (reqs i).chainID (reqs i).txHash n c →
        config.Tracks (reqs i).chainID c →
          ∃! r, r ∈ s₂.transfers.rows ∧ r.key = packetKey (reqs i).chainID n c := by
  have hS (c : ApiCall) (a : c.Ans) (s : Store) (_ : (api env).adm c a s) :
      s.Grows ((api env).next c a s) :=
    grows_effect c a s
  have hgrows : s₁.Grows s₂ := turns_changed Store.Grows.refl (fun _ _ _ => Store.Grows.trans) hS h₂
  refine ⟨fun r hr => Table.mem_of_row? (hgrows.transfers _ _ (Table.row?_of_mem hr)),
    fun i hi n c hsend hc => ?_⟩
  have hrow := turns_returned Store.Grows.refl (fun _ _ _ => Store.Grows.trans) hS h₁
    (fun i => relay_shared loc s₀) hi rfl n c hsend hc
  obtain ⟨r, hr⟩ := hrow
  have hr₂ := hgrows.transfers _ _ hr
  refine ⟨r, ⟨Table.mem_of_row? hr₂, Table.key_of_row? hr₂⟩, ?_⟩
  rintro r' ⟨hr', hk⟩
  have := hk ▸ Table.row?_of_mem hr'
  exact Option.some.inj (this.symm.trans hr₂)

/-! ## A run -/

/-- The nodes and Postgres, when no call fails. -/
def Env.answer (env : Env) : (c : ApiCall) → Store → c.Ans
  | .insertRelaySubmission .., _ => .ok ()
  | .getRelaySubmission chainID hash, s =>
    if ⟨chainID, hash⟩ ∈ s.submissions.rows then .ok ⟨chainID, hash⟩ else .error .errNoRows
  | .insertIBCV2Transfer p, s =>
    if (insertedRow p).key ∈ s.transfers.rows.map Ibcv2Transfer.key then
      .error (.pgError errCodeDuplicateKey) else .ok ()
  | .getTransfersBySourceTx chainID hash, s => .ok (getTransfersBySourceTx chainID hash s.transfers)
  | .getClient chainID, _ => (env.clients chainID).elim (.error (newErr "")) .ok
  | .tx chainID hash, _ => (env.txs chainID hash).elim (.error (newErr "")) .ok
  | .header chainID height, _ => .ok (env.headers chainID height)
  | .txSigner chainID hash, _ => (env.signers chainID hash).elim (.error (newErr "")) .ok
  | .transactionReceipt chainID hash, _ => (env.receipts chainID hash).elim (.error (newErr "")) .ok
  | .headerByNumber chainID number, _ =>
  (env.headerTimes chainID number).elim (.error (newErr "")) .ok

/-- A node answers with what it has, or with an error. -/
theorem elim_error_ok {α : Type} {P : Except Err α → Prop} (herr : ∀ err, P (.error err))
    {o : Option α} (hok : ∀ a, o = some a → P (.ok a)) : P (o.elim (.error (newErr "")) .ok) := by
  cases o with
  | none => exact herr _
  | some a => exact hok a rfl

theorem answers_answer (env : Env) (c : ApiCall)
    (s : Store) : env.Answers c (env.answer c s) s := by
  cases c with
  | insertRelaySubmission => trivial
  | getRelaySubmission chainID hash =>
    simp only [Env.answer]
    split
    · exact ⟨rfl, ‹_›⟩
    · trivial
  | insertIBCV2Transfer p =>
    simp only [Env.answer]
    split
    · exact fun _ => ‹_›
    · assumption
  | getTransfersBySourceTx chainID hash => exact .refl _
  | getClient chainID =>
    exact elim_error_ok (P := (env.Answers (.getClient chainID) · s)) (fun _ => trivial)
      fun _ h => h
  | tx chainID hash =>
    exact elim_error_ok (P := (env.Answers (.tx chainID hash) · s)) (fun _ => trivial) fun _ h => h
  | header => rfl
  | txSigner chainID hash =>
    exact elim_error_ok (P := (env.Answers (.txSigner chainID hash) · s)) (fun _ => trivial)
      fun _ h => h
  | transactionReceipt chainID hash =>
    exact elim_error_ok (P := (env.Answers (.transactionReceipt chainID hash) · s))
      (fun _ => trivial) fun _ h => h
  | headerByNumber chainID number =>
    exact elim_error_ok (P := (env.Answers (.headerByNumber chainID number) · s)) (fun _ => trivial)
      fun _ h => h

/-- What a program does when no call fails. -/
def Env.run {α : Type} (env : Env) (p : Api α) (s : Store) : Api α × Store :=
  runN ApiCall.effect env.answer 10 p s

theorem Env.steps_run {α : Type} (env : Env) (p : Api α) (s : Store) {a : α}
    (h : (env.run p s).1.result? = some a) : Steps (api env) p s (.ret a) (env.run p s).2 :=
  result?_eq_some h ▸ steps_runN (S := api env) (answers_answer env) 10 p s

/-- The event of a packet. -/
def someEvent (n : UInt64) : AbciEvent where
  type := eventTypeSendPacket
  attributes := [(attributeKeyPacketSourceClient, "client-0"),
    (attributeKeyPacketDestClient, "client-1"),
    (attributeKeyPacketSequence, toString n.toNat), (attributeKeyPacketTimeoutTimestamp, "100")]

/-- A Cosmos chain whose tx `ab` sent packet `n`. -/
def someEnv (n : UInt64) : Env where
  clients _ := some .cosmos
  txs _ hash := if hash = [0xab] then some ⟨7, [someEvent n]⟩ else none
  headers _ _ := some ⟨50, 0⟩
  signers _ _ := none
  receipts _ _ := none
  headerTimes _ _ := none

def someConfig : ConfigReader where
  chainIDIndex :=
    [("1", {
        chainID := "1"
        type := .cosmos
        ibcv2 := some { counterpartyChains := [("client-0", "cosmoshub-4")] } })]

def emptyStore : Store := ⟨⟨[], List.nodup_nil⟩, ⟨[], List.nodup_nil⟩⟩

/-- The tables after a relay of the packet. -/
def relayed (n : UInt64) (txHash : String) (s : Store) : Store :=
  ((someEnv n).run (relay someConfig (fun _ => 0) ⟨txHash, "1"⟩) s).2

theorem steps_relayed (n : UInt64) (txHash : String) (s : Store)
    (h : ((someEnv n).run (relay someConfig (fun _ => 0) ⟨txHash, "1"⟩) s).1.result? = some
      (.ok ())) :
    Steps (api (someEnv n)) (relay someConfig (fun _ => 0) ⟨txHash, "1"⟩) s (.ret (.ok ()))
      (relayed n txHash s) :=
  Env.steps_run _ _ _ h

theorem sendsPacket_someEvent (n : UInt64) : (someEvent n).SendsPacket n "client-0" where
  type := rfl
  sequence := by
    simp [AbciEvent.Has, someEvent, attributeKeyPacketSourceClient, attributeKeyPacketDestClient,
    attributeKeyPacketSequence, attributeKeyPacketTimeoutTimestamp]
  sourceClient := by
    simp [AbciEvent.Has, someEvent, attributeKeyPacketSourceClient, attributeKeyPacketDestClient,
    attributeKeyPacketSequence, attributeKeyPacketTimeoutTimestamp]
  destClient := ⟨"client-1", by simp [AbciEvent.Has, someEvent, attributeKeyPacketSourceClient,
    attributeKeyPacketDestClient, attributeKeyPacketSequence, attributeKeyPacketTimeoutTimestamp]⟩

theorem sends_someEnv (n : UInt64) {txHash : String} (h : hexDecodeString txHash = .ok [0xab]) :
    (someEnv n).Sends "1" txHash n "client-0" :=
  ⟨_, ⟨7, [someEvent n]⟩, h, rfl, _, List.mem_singleton_self _, sendsPacket_someEvent n⟩

/-- It sent no other packet. -/
theorem eq_of_sends_someEnv {n m : UInt64} {txHash c : String}
    (h : (someEnv n).Sends "1" txHash m c) : m.toNat = n.toNat ∧ c = "client-0" := by
  obtain ⟨hash, result, -, hresult, e, he, hsend⟩ := h
  obtain ⟨-, rfl⟩ : hash = [0xab] ∧ ⟨7, [someEvent n]⟩ = result := by
    simpa only [someEnv, Option.ite_none_right_eq_some, Option.some.injEq] using hresult
  obtain rfl : e = someEvent n := List.mem_singleton.mp he
  have hn := hsend.sequence.2 _ (sendsPacket_someEvent n).sequence.1
  have hc := hsend.sourceClient.1.2 _ (sendsPacket_someEvent n).sourceClient.1.1
  exact ⟨(toString_inj hn).symm, hc.symm⟩

theorem tracks_someConfig : someConfig.Tracks "1" "client-0" := ⟨"cosmoshub-4", by decide +kernel⟩

/-- A Cosmos chain whose tx `ab` sent two packets. -/
def twoSends : Env :=
  { someEnv 5 with txs := fun _ hash => if hash = [0xab] then some ⟨7, [someEvent 5, someEvent 6]⟩
    else none }

/-- The row with this sequence number cannot be inserted. -/
def Env.interrupts (env : Env) (n : Int32) (c : ApiCall) (s : Store) : c.Ans :=
  match c with
  | .insertIBCV2Transfer p =>
    if p.packetSequenceNumber = n then .error .other else env.answer (.insertIBCV2Transfer p) s
  | c => env.answer c s

theorem answers_interrupts (env : Env) (n : Int32) (c : ApiCall) (s : Store) :
    env.Answers c (env.interrupts n c s) s := by
  unfold Env.interrupts
  split
  · split
    · exact nofun
    · exact answers_answer ..
  · exact answers_answer ..

/-- A relay that is interrupted at the second packet. -/
def interrupted : Api (Except StatusErr Unit) × Store :=
  runN ApiCall.effect (twoSends.interrupts 6) 10 (relay someConfig (fun _ => 0) ⟨"ab", "1"⟩)
    emptyStore

/-- The same request after it. -/
def retried : Api (Except StatusErr Unit) × Store :=
  twoSends.run (relay someConfig (fun _ => 0) ⟨"ab", "1"⟩) interrupted.2

theorem relay_resumable_retried :
    interrupted.1.result? = some (.error ⟨.internal, newErr "failed to insert packet"⟩) ∧
    interrupted.2.transfers.rows.map (·.packetSequenceNumber) = [5] ∧
    ∀ n ∈ [5, 6], ∃! r, r ∈ retried.2.transfers.rows ∧ r.key = packetKey "1" n "client-0" := by
  refine ⟨by rfl, by decide +kernel, fun n hn => ?_⟩
  let p := relay someConfig (fun _ => 0) ⟨"ab", "1"⟩
  have hfirst : Steps (api twoSends) p emptyStore interrupted.1 interrupted.2 :=
    steps_runN (S := api twoSends) (answers_interrupts twoSends 6) 10 p emptyStore
  have hsecond : Steps (api twoSends) p interrupted.2 (.ret (.ok ())) retried.2 :=
    Env.steps_run twoSends p interrupted.2 (by decide +kernel)
  have hturns := (hfirst.turns (fun _ : Bool => p) (i := false) rfl).trans
    (hsecond.turns (Function.update (fun _ : Bool => p) false interrupted.1) (i := true) rfl)
  have hsends : twoSends.Sends "1" "ab" n "client-0" :=
    ⟨[0xab], ⟨7, [someEvent 5, someEvent 6]⟩, by decide +kernel, rfl, someEvent n,
      List.mem_map_of_mem (f := someEvent) hn, sendsPacket_someEvent n⟩
  exact (relay_resumable twoSends someConfig (fun _ => 0) (fun _ => ⟨"ab", "1"⟩) _ _ _ _ _ hturns
    .refl).2 true (Function.update_self ..) n "client-0" hsends tracks_someConfig

/-! ## The sequence number -/

/-- The rows of `s` are in `s'`, as far as their keys and hashes go. Nothing that
the relayer does to a row changes these. -/
def Store.Keeps (s s' : Store) : Prop :=
  ∀ K r, s.transfers.row? K = some r → ∃ r', s'.transfers.row? K = some r' ∧
    r'.sourceTxHash = r.sourceTxHash

theorem Store.Grows.keeps {s s' : Store} (h : s.Grows s') : s.Keeps s' :=
  fun K r hr => ⟨r, h.transfers K r hr, rfl⟩

theorem zeroExtended_eq_iff (n : UInt64) : n.toUInt32.toInt32.toUInt32.toUInt64 = n ↔
    n.toNat < 2 ^ 32 := by
  rw [← UInt64.toNat_inj]
  change n.toNat % 2 ^ 32 = n.toNat ↔ _
  omega

theorem toNat_signExtended (n : UInt64) : n.toUInt32.toInt32.toInt64.toUInt64.toNat =
    n.toNat % 2 ^ 32 + if 2 ^ 31 ≤ n.toNat % 2 ^ 32 then 2 ^ 64 - 2 ^ 32 else 0 := by
  change (BitVec.signExtend 64 (n.toBitVec.setWidth 32)).toNat = _
  rw [BitVec.toNat_signExtend, BitVec.msb_eq_decide]
  simp
  omega

theorem signExtended_eq_iff (n : UInt64) :
    n.toUInt32.toInt32.toInt64.toUInt64 = n ↔ n.toNat < 2 ^ 31 ∨ 2 ^ 64 - 2 ^ 31 ≤ n.toNat := by
  have hn := n.toNat_lt
  rw [← UInt64.toNat_inj, toNat_signExtended]
  split <;> omega

theorem toInt32_signExtended (n : Int32) : n.toInt64.toUInt64.toUInt32.toInt32 = n := by
  refine Int32.toBitVec_inj.mp ?_
  change (BitVec.signExtend 64 n.toBitVec).setWidth 32 = n.toBitVec
  ext i hi
  rw [BitVec.getElem_setWidth, BitVec.getLsbD_signExtend, if_pos hi]
  simp [Nat.lt_trans hi, hi]

/-- Of the rows of a packet, the loaded number and the one that `Status` shows
are both the packet's if it is an `int32`. -/
theorem extended_eq_iff (n : UInt64) : n.toUInt32.toInt32.toUInt32.toUInt64 = n ∧
    n.toUInt32.toInt32.toInt64.toUInt64 = n ↔ n.toNat < 2 ^ 31 := by
  rw [zeroExtended_eq_iff, signExtended_eq_iff]
  omega

/-- A `Relay` of a tx that sent the packet has returned `OK`, maybe with others
at the same time, and the tables went on to `s`. -/
def Relayed (env : Env) (config : ConfigReader) (loc : Zone) (chainID : String) (s : Store)
    (n : UInt64) (c : String) : Prop :=
  ∃ (txHash : String) (reqs : Nat → RelayRequest) (ps : Nat → Api (Except StatusErr Unit)) (i : Nat)
    (s₀ s₁ : Store), env.Sends chainID txHash n c ∧ config.Tracks chainID c ∧
    ReflTransGen (Turn (api env)) (fun i => relay config loc (reqs i), s₀) (ps, s₁) ∧
    reqs i = ⟨txHash, chainID⟩ ∧ ps i = .ret (.ok ()) ∧ s₁.Keeps s

theorem Relayed.exists_row {env : Env} {config : ConfigReader} {loc : Zone} {chainID : String}
    {s : Store} {n : UInt64}
    {c : String} (h : Relayed env config loc chainID s n c) :
    ∃ r, s.transfers.row? (packetKey chainID n c) = some r := by
  obtain ⟨txHash, reqs, ps, i, s₀, s₁, hsend, hc, hrun, hreq, hi, hkeeps⟩ := h
  have hrow := turns_returned Store.Grows.refl (fun _ _ _ => Store.Grows.trans)
    (fun c a s _ => grows_effect c a s) hrun (fun i => relay_shared loc s₀) hi rfl n c
  rw [hreq] at hrow
  obtain ⟨r, hr⟩ := hrow hsend hc
  obtain ⟨r', hr', -⟩ := hkeeps _ r hr
  exact ⟨r', hr'⟩

/-- The row of a packet has the low half of its number. -/
theorem packetSequenceNumber_of_row? {db : Transfers} {chainID c : String} {n : UInt64}
    {r : Ibcv2Transfer} (h : db.row? (packetKey chainID n c) = some r) :
    r.packetSequenceNumber = n.toUInt32.toInt32 :=
  congrArg (·.packetSequenceNumber) (Table.key_of_row? h)

/-- A set of packets of one chain that were relayed: each is loaded and shown
with its own number and in a row of its own if all their numbers are `int32`s,
and only then. -/
theorem packet_identity_iff {env : Env} {config : ConfigReader} {loc : Zone} {chainID : String}
    {s : Store} (M : UInt64 → String → Prop)
    (hM : ∀ n c, M n c → Relayed env config loc chainID s n c) :
    ((∀ n c, M n c → ∃ r, s.transfers.row? (packetKey chainID n c) = some r ∧
        (newIBCV2Transfer r).packetSequenceNumber.toUInt64 = n ∧
        (packetStatus r).sequenceNumber = n) ∧
      ∀ n m c r, M n c → M m c → n ≠ m → s.transfers.row? (packetKey chainID n c) = some r →
        s.transfers.row? (packetKey chainID m c) ≠ some r) ↔
    ∀ n c, M n c → n.toNat < 2 ^ 31 := by
  constructor
  · rintro ⟨h, -⟩ n c hn
    obtain ⟨r, hr, hload, hstatus⟩ := h n c hn
    have hseq := packetSequenceNumber_of_row? hr
    rw [newIBCV2Transfer, hseq] at hload
    rw [packetStatus, hseq] at hstatus
    exact (extended_eq_iff n).mp ⟨hload, hstatus⟩
  · intro h
    refine ⟨fun n c hn => ?_, fun n m c r hn hm hne hr hr' => hne ?_⟩
    · obtain ⟨r, hr⟩ := (hM n c hn).exists_row
      have hseq := packetSequenceNumber_of_row? hr
      obtain ⟨hload, hstatus⟩ := (extended_eq_iff n).mpr (h n c hn)
      refine ⟨r, hr, ?_, ?_⟩
      · rw [newIBCV2Transfer, hseq]
        exact hload
      · rw [packetStatus, hseq]
        exact hstatus
    · have hseq : n.toUInt32.toInt32 = m.toUInt32.toInt32 :=
        (packetSequenceNumber_of_row? hr).symm.trans (packetSequenceNumber_of_row? hr')
      rw [← ((extended_eq_iff n).mpr (h n c hn)).1, ← ((extended_eq_iff m).mpr (h m c hm)).1, hseq]

theorem relayed_someEnv (n : UInt64)
    (h : ((someEnv n).run (relay someConfig (fun _ => 0) ⟨"ab", "1"⟩) emptyStore).1.result? = some
      (.ok ())) :
    Relayed (someEnv n) someConfig (fun _ => 0) "1" (relayed n "ab" emptyStore) n "client-0" :=
  ⟨"ab", fun _ => ⟨"ab", "1"⟩, _, 0, _, _, sends_someEnv n (by decide +kernel), tracks_someConfig,
    (steps_relayed n "ab" emptyStore h).turns (fun _ => relay someConfig (fun _ => 0) ⟨"ab", "1"⟩)
    (i := 0) rfl, rfl,
    Function.update_self .., (Store.Grows.refl _).keeps⟩

theorem packet_identity_five : ∃ r,
    (relayed 5 "ab" emptyStore).transfers.row? (packetKey "1" 5 "client-0") = some r ∧
      (newIBCV2Transfer r).packetSequenceNumber.toUInt64 = 5 ∧
      (packetStatus r).sequenceNumber = 5 := by
  have hM (n : UInt64) (c : String) (h : n = 5 ∧ c = "client-0") :
      Relayed (someEnv 5) someConfig (fun _ => 0) "1" (relayed 5 "ab" emptyStore) n c := by
    rw [h.1, h.2]
    exact relayed_someEnv 5 (by decide +kernel)
  exact ((packet_identity_iff (fun n c => n = 5 ∧ c = "client-0") hM).mpr
    (fun _ _ h => h.1 ▸ by decide)).1 5 "client-0" ⟨rfl, rfl⟩

/-- `Status` shows packet 2³¹ as packet 2⁶⁴ - 2³¹, and packets 1 and 2³² + 1 share
a row. -/
theorem packet_identity_lost :
    (Relayed (someEnv (2 ^ 31)) someConfig (fun _ => 0) "1" (relayed (2 ^ 31) "ab" emptyStore)
        (2 ^ 31) "client-0" ∧
      ((relayed (2 ^ 31) "ab" emptyStore).transfers.row? (packetKey "1" (2 ^ 31) "client-0")).map
        (fun r => (packetStatus r).sequenceNumber) = some 18446744071562067968) ∧
    packetKey "1" (2 ^ 32 + 1) "client-0" = packetKey "1" 1 "client-0" := by
  refine ⟨⟨relayed_someEnv (2 ^ 31) (by decide +kernel), ?_⟩, ?_⟩
  · decide +kernel
  · decide +kernel

/-! ## The hash -/

/-- A `Relay` that has returned `OK`, and a later `Status` of the same hash. The
answer has an entry for every packet of the tx whose client is tracked if none
of them had a row with another hash when the `Relay` was called (and its number
is one that `Status` can show), and only then. -/
theorem status_lists_iff {env : Env} {config : ConfigReader} {loc : Zone} {chainID txHash : String}
    {s s₁ s₂ s₃ : Store} {list : List PacketStatus}
    (hrelay : Steps (api env) (relay config loc ⟨txHash, chainID⟩) s (.ret (.ok ())) s₁)
    (hlater : s₁.Keeps s₂)
    (hstatus : Steps (api env) (status ⟨txHash, chainID⟩) s₂ (.ret (.ok list)) s₃) :
    (∀ n c, env.Sends chainID txHash n c → config.Tracks chainID c →
      ∃ x ∈ list, x.sequenceNumber = n ∧ x.sourceClientId = c) ↔
    ∀ n c, env.Sends chainID txHash n c → config.Tracks chainID c →
      (n.toNat < 2 ^ 31 ∨ 2 ^ 64 - 2 ^ 31 ≤ n.toNat) ∧
      ∀ r, s.transfers.row? (packetKey chainID n c) = some r → r.sourceTxHash = txHash := by
  have hlist := status_spec hstatus
  have hmem (x : PacketStatus) : x ∈ list ↔
      ∃ r ∈ s₂.transfers.rows, (r.sourceChainID = chainID ∧ r.sourceTxHash = txHash) ∧
      packetStatus r = x := by
    rw [hlist.mem_iff, List.mem_map]
    simp [getTransfersBySourceTx, and_assoc]
  refine forall_congr' fun n => forall_congr' fun c => imp_congr_right fun hsend =>
    imp_congr_right fun hc => ?_
  constructor
  · rintro ⟨x, hx, hn, hclient⟩
    obtain ⟨r, hr, ⟨hchain, hhash⟩, rfl⟩ := (hmem x).mp hx
    -- the entry is that of the packet's row
    have hseq : r.packetSequenceNumber = n.toUInt32.toInt32 := by
      rw [← hn]
      exact (toInt32_signExtended r.packetSequenceNumber).symm
    have hkey : r.key = packetKey chainID n c := by
      rw [Ibcv2Transfer.key, hchain, hseq, ← hclient]
      rfl
    refine ⟨(signExtended_eq_iff n).mp (hseq ▸ hn), fun r' hr' => ?_⟩
    obtain ⟨r₂, hr₂, hhash₂⟩ := hlater _ r' ((steps_grows hrelay).transfers _ r' hr')
    obtain rfl : r = r₂ := Option.some.inj ((hkey ▸ Table.row?_of_mem hr).symm.trans hr₂)
    exact hhash₂.symm.trans hhash
  · rintro ⟨hn, hrow⟩
    obtain ⟨r₁, hr₁⟩ := (relay_shared loc s).returned Store.Grows.refl hrelay rfl n c hsend hc
    have hhash : r₁.sourceTxHash = txHash := by
      rcases relay_from hrelay r₁ (Table.mem_of_row? hr₁) with h | h
      · exact hrow r₁ (Table.key_of_row? hr₁ ▸ Table.row?_of_mem h)
      · exact h
    obtain ⟨r, hr, hhash'⟩ := hlater _ r₁ hr₁
    have hkey := Table.key_of_row? hr
    refine ⟨_, (hmem _).mpr ⟨r, Table.mem_of_row? hr, ⟨?_, hhash'.trans hhash⟩, rfl⟩, ?_, ?_⟩
    · exact congrArg (·.sourceChainID) hkey
    · rw [packetStatus, packetSequenceNumber_of_row? hr]
      exact (signExtended_eq_iff n).mpr hn
    · exact congrArg (·.packetSourceClientID) hkey

/-- One request, on an empty table. -/
theorem status_lists_one : ∃ list s, Steps (api (someEnv 5)) (status ⟨"ab", "1"⟩)
    (relayed 5 "ab" emptyStore) (.ret (.ok list)) s ∧ ∃ x ∈ list, x.sequenceNumber = 5 ∧
      x.sourceClientId = "client-0" := by
  have hrelay := steps_relayed 5 "ab" emptyStore (by decide +kernel)
  obtain ⟨o, ho⟩ : ∃ list,
    ((someEnv 5).run (status ⟨"ab", "1"⟩) (relayed 5 "ab" emptyStore)).1.result? =
      some (.ok list) :=
    ⟨[⟨.pending, 5, "client-0", some ⟨"ab", "1"⟩, none, none, none⟩], by decide +kernel⟩
  have hstatus := (someEnv 5).steps_run _ _ ho
  refine ⟨_, _, hstatus,
    (status_lists_iff hrelay (Store.Grows.refl _).keeps hstatus).mpr ?_ 5 "client-0"
    (sends_someEnv 5 (by decide +kernel)) tracks_someConfig⟩
  intro n c hsend _
  refine ⟨.inl ((eq_of_sends_someEnv hsend).1 ▸ by decide), fun r hr => ?_⟩
  simp [Table.row?, emptyStore] at hr

/-- A tx that is relayed as `AB` and then as `ab`, both with `OK`: its `Status` as `ab`
is empty. -/
theorem status_misses :
    Steps (api (someEnv 5)) (relay someConfig (fun _ => 0) ⟨"AB", "1"⟩) emptyStore (.ret (.ok ()))
      (relayed 5 "AB" emptyStore) ∧
    Steps (api (someEnv 5)) (relay someConfig (fun _ => 0) ⟨"ab", "1"⟩) (relayed 5 "AB" emptyStore)
      (.ret (.ok ())) (relayed 5 "ab" (relayed 5 "AB" emptyStore)) ∧
    (someEnv 5).Sends "1" "ab" 5 "client-0" ∧ someConfig.Tracks "1" "client-0" ∧
    ∃ s, Steps (api (someEnv 5)) (status ⟨"ab", "1"⟩) (relayed 5 "ab" (relayed 5 "AB" emptyStore))
      (.ret (.ok [])) s :=
  ⟨steps_relayed _ _ _ (by decide +kernel), steps_relayed _ _ _ (by decide +kernel),
    sends_someEnv 5 (by decide +kernel),
    tracks_someConfig, _, (someEnv 5).steps_run _ _ (by decide +kernel)⟩

end PlatformRelayer
