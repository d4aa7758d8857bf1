import PlatformRelayer.Bridges.CosmosSubmission
import PlatformRelayer.Proof.Signing

/-!
# The txs that messages are submitted in

A successful submission adds one tx with its messages to what the node has
accepted (`signAndSubmitMessages_wp`), and nothing between leaves a trace, so the
txs of a successful `signAndSubmit` are known from the messages alone
(`batches`, `signAndSubmit_wp`). They are a faithful split of the messages, but
for a last tx without messages if there are several updates and nothing else
(`submission_splits_iff`).

Each tx is signed twice, the first time for an estimate of its gas. So it comes
with its signer info the second time, and the signature of either signer covers
what is broadcast (`broadcast_covered`).
-/

namespace PlatformRelayer

open Prog

/-- A tx that the node has accepted, with the hash in its answer. -/
structure AcceptedTx where
  tx : SdkTx
  hash : List UInt8
deriving DecidableEq, Repr

def AcceptedTx.messages (t : AcceptedTx) : List SdkMsg := t.tx.body.messages

/-- What an answered call does to the list of accepted txs. -/
def SubmitCall.effect : (c : SubmitCall) → c.Ans → List AcceptedTx → List AcceptedTx
  | .broadcastTxSync tx, .ok result, log => if result.code = 0 then log ++ [⟨tx, result.hash⟩]
  else log
  | _, _, log => log

/-- The calls, for a set of answers that may come. -/
def submitting (adm : (c : SubmitCall) → c.Ans → Prop) :
    Sem SubmitCall SubmitCall.Ans (List AcceptedTx) where
  adm c a _ := adm c a
  next := SubmitCall.effect

/-- The message updates a client. -/
def SdkMsg.isUpdate (msg : SdkMsg) : Bool := msg.typeURL = updateClientTypeURL

section Runs

variable {adm : (c : SubmitCall) → c.Ans → Prop} {log : List AcceptedTx}

/-- Signing keeps the body and submits nothing. -/
theorem CosmosSigner.sign_wp (signer : CosmosSigner) (chainID : String) (t : CosmosTransaction) :
    wp (submitting adm) (fun _ _ => True) (signer.sign chainID t)
      (fun o log' => log' = log ∧ ∀ t', o = .ok t' → t'.tx.body = t.tx.body) log := by
  cases signer with
  | ofKey s =>
    refine ⟨rfl, fun t' h => ?_⟩
    cases h
    rfl
  | ofWallet s =>
    refine wp_try (wp_try ⟨trivial, fun a _ =>
      ⟨fun _ _ => of_error ⟨rfl, by simp⟩, fun signature _ => ?_⟩⟩)
    refine wp_try ⟨trivial, fun a _ => ⟨fun _ _ => of_error ⟨rfl, by simp⟩, fun key _ => ?_⟩⟩
    refine of_ok ⟨rfl, fun t' h => ?_⟩
    cases h
    rfl

/-- An address is read from the wallet, if anything. -/
theorem CosmosSigner.address_wp {pre : SubmitCall → List AcceptedTx → Prop} (signer : CosmosSigner)
    (addressOf : PubKey → List UInt8) (hpre : ∀ walletID, pre (.getWallet walletID) log) :
    wp (submitting adm) pre (signer.address addressOf) (fun _ log' => log' = log) log := by
  cases signer with
  | ofKey s => rfl
  | ofWallet s =>
    refine wp_bind.mpr (wp_bind.mpr ⟨hpre s.walletID, fun a _ => ?_⟩)
    rw [wp_ret]
    cases a <;> rfl

namespace CosmosSubmitter

variable (client : CosmosSubmitter)

theorem getEstimatedGasLimit_wp (txBuilder : SdkTx) (accountInfo : BaseAccount) :
    wp (submitting adm) (fun _ _ => True) (client.getEstimatedGasLimit txBuilder accountInfo)
      (fun o log' => log' = log ∧ ∀ estimate, o = .ok estimate → estimate.2.body = txBuilder.body)
      log := by
  refine wp_try ((client.signer.sign_wp _ _).post ?_)
  rintro o log₁ ⟨rfl, hbody⟩
  refine ⟨fun _ _ => ⟨rfl, by simp⟩, fun signedTx ho => ?_⟩
  refine wp_try ⟨trivial, fun a _ => ⟨fun _ _ => ⟨rfl, by simp⟩, fun gasUsed _ => ?_⟩⟩
  cases gasUsed with
  | none => exact ⟨rfl, by simp⟩
  | some gasUsed =>
    refine ⟨rfl, fun estimate h => ?_⟩
    cases h
    exact hbody signedTx ho

/-- Of the builder, only the amount of the fee may change. -/
theorem eq_of_setFee {gasLimit : UInt64} {txBuilder txBuilder' : SdkTx}
    (h : client.setFee gasLimit txBuilder = .ok txBuilder') :
    txBuilder' = txBuilder ∨ ∃ amount, txBuilder' = txBuilder.setFeeAmount amount := by
  unfold setFee at h
  split at h
  · cases h
    exact .inl rfl
  · split at h
    · cases h
    · cases h
      exact .inr ⟨_, rfl⟩

theorem body_of_setFee {gasLimit : UInt64} {txBuilder txBuilder' : SdkTx}
    (h : client.setFee gasLimit txBuilder = .ok txBuilder') : txBuilder'.body = txBuilder.body := by
  rcases client.eq_of_setFee h with rfl | ⟨amount, rfl⟩ <;> rfl

theorem signerInfos_of_setFee {gasLimit : UInt64} {txBuilder txBuilder' : SdkTx}
    (h : client.setFee gasLimit txBuilder = .ok txBuilder') :
    txBuilder'.authInfo.signerInfos = txBuilder.authInfo.signerInfos := by
  rcases client.eq_of_setFee h with rfl | ⟨amount, rfl⟩ <;> rfl

/-- The node has accepted one tx more, with the body of the builder, and its
hash is returned. -/
theorem broadcast_wp (bech32Address : String) (accountInfo : BaseAccount) (txBuilder : SdkTx) :
    wp (submitting adm) (fun _ _ => True) (client.broadcast bech32Address accountInfo txBuilder)
      (fun o log' => ∀ hash, o = .ok hash → ∃ tx, tx.body = txBuilder.body ∧
      log' = log ++ [⟨tx, hash⟩]) log := by
  refine wp_try ((client.signer.sign_wp _ _).post ?_)
  rintro o log₁ ⟨rfl, hbody⟩
  refine ⟨by simp, fun signedTx ho => ?_⟩
  refine wp_try ⟨trivial, fun a _ => ⟨by simp, fun result ha => ?_⟩⟩
  subst ha
  split
  · simp
  · rename_i hcode
    rintro hash ⟨⟩
    exact ⟨signedTx.tx, hbody signedTx ho, if_pos (not_not.mp hcode)⟩

theorem signAndSubmitMessages_wp (msgs : List SdkMsg) :
    wp (submitting adm) (fun _ _ => True) (client.signAndSubmitMessages msgs)
      (fun o log' => ∀ hash, o = .ok hash → ∃ tx, tx.body.messages = msgs ∧
      log' = log ++ [⟨tx, hash⟩]) log := by
  refine wp_bind.mpr ((client.signer.address_wp _ fun _ => trivial).post ?_)
  rintro address log₁ rfl
  split
  · simp
  rename_i bech32Address _
  refine wp_try ⟨trivial, fun a _ => ⟨by simp, fun account _ => ?_⟩⟩
  cases account with
  | none => simp
  | some accountInfo =>
    refine wp_try ((client.getEstimatedGasLimit_wp _ accountInfo).post ?_)
    rintro o log₂ ⟨rfl, hestimate⟩
    refine ⟨by simp, fun estimate ho => ?_⟩
    split
    · simp
    rename_i txBuilder hfee
    refine (client.broadcast_wp bech32Address accountInfo txBuilder).post
      fun o log' h hash hok => ?_
    obtain ⟨tx, hbody, hlog⟩ := h hash hok
    refine ⟨tx, ?_, hlog⟩
    rw [hbody, client.body_of_setFee hfee, SdkTx.body_setGasLimit, hestimate estimate ho]
    rfl

/-- The loop submits each update alone and returns the other messages. -/
theorem submitUpdates_wp (numClientUpdates : Nat) (msgs : List SdkMsg) (numSubmitted : Nat)
    (others : List SdkMsg) (log : List AcceptedTx) :
    wp (submitting adm) (fun _ _ => True)
      (client.submitUpdates numClientUpdates msgs numSubmitted others)
      (fun o log' => ∀ rest, o = .ok rest → rest = others ++ msgs.filter (!·.isUpdate) ∧
        ∃ new, log' = log ++ new ∧
        new.map AcceptedTx.messages = (msgs.filter SdkMsg.isUpdate).map ([·])) log := by
  induction msgs generalizing numSubmitted others log with
  | nil =>
    rintro rest ⟨⟩
    exact ⟨by simp, [], by simp⟩
  | cons msg msgs ih =>
    rw [submitUpdates]
    by_cases hurl : msg.typeURL = updateClientTypeURL
    · have hupdate : msg.isUpdate = true := decide_eq_true hurl
      rw [if_neg (not_not.mpr hurl)]
      refine wp_try ((client.signAndSubmitMessages_wp [msg]).post fun o log₁ h =>
        ⟨by simp, fun hash ho => ?_⟩)
      obtain ⟨tx, hmsgs, rfl⟩ := h hash ho
      refine wp_bind.mpr ⟨trivial, fun _ _ =>
        (ih (numSubmitted + 1) others _).post fun o log' h rest hrest => ?_⟩
      obtain ⟨hothers, new, hlog, hnew⟩ := h rest hrest
      refine ⟨by simpa [hupdate] using hothers, ⟨tx, hash⟩ :: new, ?_, ?_⟩
      · rw [hlog]
        exact List.append_assoc log [⟨tx, hash⟩] new
      · rw [List.map_cons, hnew, List.filter_cons_of_pos hupdate, List.map_cons]
        exact congrArg (· :: _) hmsgs
    · have hupdate : ¬msg.isUpdate = true := by simpa [SdkMsg.isUpdate] using hurl
      rw [if_pos hurl]
      refine (ih numSubmitted (others ++ [msg]) log).post fun o log' h rest hrest => ?_
      obtain ⟨hothers, new, hlog, hnew⟩ := h rest hrest
      refine ⟨?_, new, hlog, ?_⟩
      · rw [hothers, List.append_assoc, List.filter_cons_of_pos (by simpa using hupdate)]
        rfl
      · rw [hnew, List.filter_cons_of_neg hupdate]

end CosmosSubmitter

/-- The messages of the txs, in the order in which they are submitted. -/
def batches (msgs : List SdkMsg) : List (List SdkMsg) :=
  if 1 < msgs.countP SdkMsg.isUpdate then
    (msgs.filter SdkMsg.isUpdate).map ([·]) ++ [msgs.filter (!·.isUpdate)]
  else [msgs]

theorem CosmosSubmitter.signAndSubmit_wp (client : CosmosSubmitter) {bz : List UInt8}
    {messages : List AnyMsg}
    {msgs : List SdkMsg} (hbody : client.sdk.unmarshalTxBody bz = .ok messages)
    (hmsgs : client.unpackMsgs messages = .ok msgs) :
    wp (submitting adm) (fun _ _ => True) (client.signAndSubmit bz)
      (fun o log => ∀ hash, o = .ok hash → log.map AcceptedTx.messages = batches msgs ∧
        log.getLast?.map (·.hash) = some hash) [] := by
  rw [signAndSubmit, hbody]
  dsimp only
  split
  · simp
  rw [hmsgs]
  dsimp only
  have hcount : msgs.countP (fun m => decide (m.typeURL = updateClientTypeURL)) = msgs.countP
      SdkMsg.isUpdate := rfl
  rw [hcount, batches]
  split
  · refine wp_try ((client.submitUpdates_wp _ msgs 0 [] []).post fun o log₁ h =>
      ⟨by simp, fun rest ho => ?_⟩)
    obtain ⟨rfl, new, rfl, hnew⟩ := h rest ho
    refine (client.signAndSubmitMessages_wp _).post fun o log' h hash hok => ?_
    obtain ⟨tx, htx, rfl⟩ := h hash hok
    refine ⟨?_, by simp⟩
    simp only [List.map_append, hnew, List.map_cons, List.map_nil]
    exact congrArg (_ ++ [·]) htx
  · refine (client.signAndSubmitMessages_wp msgs).post fun o log' h hash hok => ?_
    obtain ⟨tx, htx, rfl⟩ := h hash hok
    exact ⟨congrArg ([·]) htx, by simp⟩

end Runs

/-! ## Signatures -/

section Signatures

variable {wallets : String → PubKey} {log : List AcceptedTx}

/-- The key that a signer signs with. -/
def CosmosSigner.key (wallets : String → PubKey) : CosmosSigner → PubKey
  | .ofKey s => s.publicKey
  | .ofWallet s => wallets s.walletID

/-- A tx that is broadcast is covered by its signature, for some account. -/
def SubmitCall.Covers (chainID : String) (c : SubmitCall) : Prop :=
  ∀ tx, c = .broadcastTxSync tx → ∃ accountNumber sequence,
    CosmosTransaction.Covered ⟨tx, accountNumber, sequence⟩ chainID

theorem SubmitCall.covers_of_ne {chainID : String} {c : SubmitCall}
    (h : ∀ tx, c ≠ .broadcastTxSync tx) : c.Covers chainID :=
  fun tx hc => absurd hc (h tx)

/-- A signer leaves its signer info, and covers a tx that came with it. -/
theorem CosmosSigner.sign_covers (signer : CosmosSigner) (chainID : String)
    (t : CosmosTransaction) :
    wp (submitting (Serves wallets)) (fun c _ => c.Covers chainID) (signer.sign chainID t)
      (fun o _ => ∀ t', o = .ok t' →
      t'.tx.authInfo.signerInfos = [⟨signer.key wallets, .direct, t.sequence⟩] ∧
        (t.tx.authInfo.signerInfos = [⟨signer.key wallets, .direct, t.sequence⟩] →
        t'.Covered chainID)) log := by
  cases signer with
  | ofKey s =>
    rintro t' ⟨⟩
    exact ⟨rfl, fun _ => covered_signCosmosTx s.publicKey chainID t⟩
  | ofWallet s =>
    refine wp_try (wp_try ⟨SubmitCall.covers_of_ne (by simp), fun a ha =>
      ⟨fun _ _ => of_error (by simp), ?_⟩⟩)
    rintro signature rfl
    refine wp_try ⟨SubmitCall.covers_of_ne (by simp), fun a ha' =>
      ⟨fun _ _ => of_error (by simp), ?_⟩⟩
    rintro key rfl
    obtain rfl : signature = some ⟨wallets s.walletID, t.tx.signDoc chainID t.accountNumber⟩ := ha
    obtain rfl : key = wallets s.walletID := ha'
    refine of_ok ?_
    rintro t' ⟨⟩
    exact ⟨rfl, (RemoteCosmosSigner.covered_signed_iff _ chainID t).mpr⟩

namespace CosmosSubmitter

variable (client : CosmosSubmitter)

theorem getEstimatedGasLimit_covers (txBuilder : SdkTx) (accountInfo : BaseAccount) :
    wp (submitting (Serves wallets)) (fun c _ => c.Covers client.chainID)
      (client.getEstimatedGasLimit txBuilder accountInfo) (fun o _ => ∀ estimate, o = .ok estimate →
        estimate.2.authInfo.signerInfos =
        [⟨client.signer.key wallets, .direct, accountInfo.sequence⟩]) log := by
  refine wp_try ((client.signer.sign_covers _ _).post fun o log₁ h =>
    ⟨by simp, fun signedTx ho => ?_⟩)
  refine wp_try ⟨SubmitCall.covers_of_ne (by simp), fun a _ => ⟨by simp, fun gasUsed _ => ?_⟩⟩
  cases gasUsed with
  | none => simp
  | some gasUsed =>
    rintro estimate ⟨⟩
    exact (h signedTx ho).1

/-- The builder comes with the signer info, so the signature covers the tx. -/
theorem broadcast_covers (bech32Address : String) (accountInfo : BaseAccount) {txBuilder : SdkTx}
    (hinfos : txBuilder.authInfo.signerInfos =
      [⟨client.signer.key wallets, .direct, accountInfo.sequence⟩]) :
    wp (submitting (Serves wallets)) (fun c _ => c.Covers client.chainID)
      (client.broadcast bech32Address accountInfo txBuilder) (fun _ _ => True) log := by
  refine wp_try ((client.signer.sign_covers _ _).post fun o log₁ h =>
    ⟨by simp, fun signedTx ho => ?_⟩)
  have hcovered := (h signedTx ho).2 hinfos
  refine wp_try ⟨?_, fun a _ => ⟨by simp, fun result _ => ?_⟩⟩
  · rintro tx ⟨⟩
    exact ⟨signedTx.accountNumber, signedTx.sequence, hcovered⟩
  · split <;> trivial

/-- The estimate has left the signer info in the builder that is signed then. -/
theorem signAndSubmitMessages_covers (msgs : List SdkMsg) :
    wp (submitting (Serves wallets)) (fun c _ => c.Covers client.chainID)
      (client.signAndSubmitMessages msgs) (fun _ _ => True) log := by
  refine wp_bind.mpr ((client.signer.address_wp _ fun _ => SubmitCall.covers_of_ne (by simp)).post
    fun _ log₁ _ => ?_)
  split
  · trivial
  rename_i bech32Address _
  refine wp_try ⟨SubmitCall.covers_of_ne (by simp), fun a _ => ⟨by simp, fun account _ => ?_⟩⟩
  cases account with
  | none => trivial
  | some accountInfo =>
    refine wp_try ((client.getEstimatedGasLimit_covers _ accountInfo).post fun o log₂ h =>
      ⟨by simp, fun estimate ho => ?_⟩)
    split
    · trivial
    rename_i txBuilder hfee
    exact client.broadcast_covers bech32Address accountInfo
      ((client.signerInfos_of_setFee hfee).trans (h estimate ho))

theorem submitUpdates_covers (numClientUpdates : Nat) (msgs : List SdkMsg) (numSubmitted : Nat)
    (others : List SdkMsg) (log : List AcceptedTx) :
    wp (submitting (Serves wallets)) (fun c _ => c.Covers client.chainID)
      (client.submitUpdates numClientUpdates msgs numSubmitted others) (fun _ _ => True) log := by
  induction msgs generalizing numSubmitted others log with
  | nil => trivial
  | cons msg msgs ih =>
    rw [submitUpdates]
    split
    · exact ih numSubmitted (others ++ [msg]) log
    · refine wp_try ((client.signAndSubmitMessages_covers [msg]).post fun o log₁ _ =>
        ⟨by simp, fun hash _ => ?_⟩)
      exact wp_bind.mpr ⟨SubmitCall.covers_of_ne (by simp), fun _ _ =>
        ih (numSubmitted + 1) others _⟩

theorem signAndSubmit_covers (bz : List UInt8) :
    wp (submitting (Serves wallets)) (fun c _ => c.Covers client.chainID) (client.signAndSubmit bz)
      (fun _ _ => True) log := by
  unfold signAndSubmit
  split
  · trivial
  split
  · trivial
  split
  · trivial
  dsimp only
  split
  · refine wp_try ((client.submitUpdates_covers _ _ 0 [] log).post fun o log₁ _ =>
      ⟨by simp, fun rest _ => ?_⟩)
    exact client.signAndSubmitMessages_covers rest
  · exact client.signAndSubmitMessages_covers _

end CosmosSubmitter

/-- In every run, with either signer: what is broadcast is covered by its
signature. -/
theorem broadcast_covered (client : CosmosSubmitter) {bz : List UInt8}
    {x : Submit (Except Err (List UInt8))}
    {log' : List AcceptedTx} {tx : SdkTx}
    (hrun : Steps (submitting (Serves wallets)) (client.signAndSubmit bz) log x log')
    (hcall : x.next? = some (.broadcastTxSync tx)) :
    ∃ accountNumber sequence,
      CosmosTransaction.Covered ⟨tx, accountNumber, sequence⟩ client.chainID :=
  (client.signAndSubmit_covers bz).next hrun hcall tx rfl

end Signatures

/-! ## Faithful splits -/

/-- The txs, with these messages each, have every message once. Updates and other
messages are in their order, the other messages together in the last tx and
behind the updates if these are several, and no tx is empty. -/
structure Splits (msgs : List SdkMsg) (txs : List (List SdkMsg)) : Prop where
  once : txs.flatten.Perm msgs
  updates : txs.flatten.filter SdkMsg.isUpdate = msgs.filter SdkMsg.isUpdate
  others : txs.flatten.filter (!·.isUpdate) = msgs.filter (!·.isUpdate)
  together : ∀ tx ∈ txs.dropLast, ∀ msg ∈ tx, msg.isUpdate = true
  precede : 1 < msgs.countP SdkMsg.isUpdate →
    txs.flatten = msgs.filter SdkMsg.isUpdate ++ msgs.filter (!·.isUpdate)
  nonempty : ∀ tx ∈ txs, tx ≠ []

theorem flatten_batches (msgs : List SdkMsg) : (batches msgs).flatten =
    if 1 < msgs.countP SdkMsg.isUpdate then msgs.filter SdkMsg.isUpdate ++ msgs.filter (!·.isUpdate)
      else msgs := by
  unfold batches
  split
  · rw [List.flatten_append, ← List.flatMap_def, List.flatMap_singleton']
    simp
  · simp

/-- Everything but the last point always holds. -/
theorem splits_batches_iff_nonempty (msgs : List SdkMsg) :
    Splits msgs (batches msgs) ↔ ∀ tx ∈ batches msgs, tx ≠ [] := by
  refine ⟨Splits.nonempty, fun hne => ⟨?_, ?_, ?_, ?_, ?_, hne⟩⟩
  · rw [flatten_batches]
    split
    · exact List.filter_append_perm SdkMsg.isUpdate msgs
    · exact .refl _
  · rw [flatten_batches]
    split
    · simp [List.filter_append, List.filter_filter]
    · rfl
  · rw [flatten_batches]
    split
    · simp [List.filter_append, List.filter_filter]
    · rfl
  · unfold batches
    split
    · rw [List.dropLast_concat]
      intro tx htx msg hmsg
      obtain ⟨m, hm, rfl⟩ := List.mem_map.mp htx
      rw [List.mem_singleton.mp hmsg]
      exact (List.mem_filter.mp hm).2
    · simp
  · intro hcount
    rw [flatten_batches, if_pos hcount]

theorem batches_nonempty_iff {msgs : List SdkMsg} (hne : msgs ≠ []) :
    (∀ tx ∈ batches msgs, tx ≠ []) ↔ msgs.countP SdkMsg.isUpdate ≤ 1 ∨
      ∃ msg ∈ msgs, msg.isUpdate = false := by
  have hothers : msgs.filter (!·.isUpdate) ≠ [] ↔ ∃ msg ∈ msgs, msg.isUpdate = false := by
    rw [ne_eq, List.filter_eq_nil_iff]
    simp
  unfold batches
  split
  · rename_i hcount
    rw [or_iff_right (by omega), ← hothers]
    constructor
    · intro h
      exact h _ (by simp)
    · intro h tx htx
      rcases List.mem_append.mp htx with hm | hm
      · obtain ⟨m, -, rfl⟩ := List.mem_map.mp hm
        simp
      · rw [List.mem_singleton.mp hm]
        exact h
  · rename_i hcount
    refine iff_of_true ?_ (.inl (by omega))
    simpa using hne

/-- In every run that succeeds, for every list of messages, whatever the node and
the signer service answer: the txs that the node has accepted, and the hash. -/
theorem submission_splits_iff {adm : (c : SubmitCall) → c.Ans → Prop} (client : CosmosSubmitter)
    {bz : List UInt8} {messages : List AnyMsg} {msgs : List SdkMsg} {hash : List UInt8}
    {log : List AcceptedTx} (hbody : client.sdk.unmarshalTxBody bz = .ok messages)
    (hmsgs : client.unpackMsgs messages = .ok msgs)
    (hne : msgs ≠ []) (hrun : Steps (submitting adm) (client.signAndSubmit bz) []
      (.ret (.ok hash)) log) :
    (Splits msgs (log.map AcceptedTx.messages) ∧ log.getLast?.map (·.hash) = some hash) ↔
      msgs.countP SdkMsg.isUpdate ≤ 1 ∨ ∃ msg ∈ msgs, msg.isUpdate = false := by
  obtain ⟨hlog, hhash⟩ := (client.signAndSubmit_wp hbody hmsgs).returned hrun hash rfl
  rw [hlog, splits_batches_iff_nonempty, batches_nonempty_iff hne]
  exact and_iff_left hhash

/-! ## Some messages -/

/-- A client with a local key. In its tx bodies a byte is a message, and 0 updates
a client. -/
def byteClient : CosmosSubmitter where
  sdk := {
    unmarshalTxBody bz := .ok (bz.map fun b =>
      ⟨if b = 0 then updateClientTypeURL else "/ibc.core.channel.v2.MsgRecvPacket", [b]⟩)
    unpackAny msg := .ok ⟨msg.typeURL, msg.value⟩
    addressOf key := key
    convertAndEncode _ _ := .ok "cosmos1"
    bufferedGas gas := gas }
  chainID := "chain"
  bech32Prefix := "cosmos"
  signer := .ofKey ⟨[1]⟩

/-- A node that accepts every tx. -/
def acceptingNode : (c : SubmitCall) → List AcceptedTx → c.Ans
  | .sign _ _, _ => .error (newErr "")
  | .getWallet _, _ => .error (newErr "")
  | .accountInfo _, _ => .ok (some ⟨7, 3⟩)
  | .simulate _, _ => .ok (some 100)
  | .broadcastTxSync _, log => .ok ⟨0, "", [log.length.toUInt8]⟩
  | .sleep _, _ => ()

def submitBytes (bz : List UInt8) : Submit (Except Err (List UInt8)) × List AcceptedTx :=
  runN SubmitCall.effect acceptingNode 20 (byteClient.signAndSubmit bz) []

theorem steps_submitBytes (bz : List UInt8) {hash : List UInt8}
    (h : (submitBytes bz).1.result? = some (.ok hash)) :
    Steps (submitting fun _ _ => True) (byteClient.signAndSubmit bz) [] (.ret (.ok hash))
      (submitBytes bz).2 :=
  result?_eq_some h ▸ steps_runN (S := submitting fun _ _ => True) (fun _ _ => trivial) 20 _ _

/-- The messages of a body. -/
def byteMsgs (bz : List UInt8) : List SdkMsg :=
  bz.map fun b => ⟨if b = 0 then updateClientTypeURL else "/ibc.core.channel.v2.MsgRecvPacket", [b]⟩

/-- A packet before two updates: three txs, with the packet in the last. -/
theorem submission_splits_mixed :
    Splits (byteMsgs [5, 0, 0]) ((submitBytes [5, 0, 0]).2.map AcceptedTx.messages) ∧
      (submitBytes [5, 0, 0]).2.getLast?.map (·.hash) = some [2] := by
  have hbody : byteClient.sdk.unmarshalTxBody [5, 0, 0] =
      .ok ((byteMsgs [5, 0, 0]).map fun msg => ⟨msg.typeURL, msg.value⟩) := by rfl
  have hmsgs : byteClient.unpackMsgs
      ((byteMsgs [5, 0, 0]).map fun msg => ⟨msg.typeURL, msg.value⟩) =
      .ok (byteMsgs [5, 0, 0]) := by rfl
  refine (submission_splits_iff byteClient hbody hmsgs (by decide)
    (steps_submitBytes [5, 0, 0] (by rfl))).mpr (.inr ?_)
  exact ⟨_, List.mem_cons_self, by decide +kernel⟩

/-- Two updates and nothing else: a third tx, without messages. -/
theorem submission_empty :
    Steps (submitting fun _ _ => True) (byteClient.signAndSubmit [0, 0]) [] (.ret (.ok [2]))
      (submitBytes [0, 0]).2 ∧
      (submitBytes [0, 0]).2.map AcceptedTx.messages = [[⟨updateClientTypeURL, [0]⟩],
      [⟨updateClientTypeURL, [0]⟩], []] ∧
      ¬Splits (byteMsgs [0, 0]) ((submitBytes [0, 0]).2.map AcceptedTx.messages) := by
  have hmsgs : (submitBytes [0, 0]).2.map AcceptedTx.messages =
      [[⟨updateClientTypeURL, [0]⟩], [⟨updateClientTypeURL, [0]⟩], []] := by decide +kernel
  refine ⟨steps_submitBytes [0, 0] (by rfl), hmsgs, fun h => ?_⟩
  rw [hmsgs] at h
  exact h.nonempty [] (by simp) rfl

end PlatformRelayer
