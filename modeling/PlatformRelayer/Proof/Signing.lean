import PlatformRelayer.Signing.CosmosTx

/-!
# What a signature is over

The local signer sets its signer info and then takes the bytes to sign, so its
signature is over the tx that it returns (`covered_signCosmosTx`). The remote
signer takes the bytes first: its signature is over the signer infos that the
tx came with (`RemoteCosmosSigner.sign_eval`), and it covers the tx just if
these are the ones that it sets (`signatures_cover_iff`).
-/

namespace PlatformRelayer

open Prog

/-- The tx has one signature, and that is over the sign bytes of the tx. -/
def CosmosTransaction.Covered (t : CosmosTransaction) (chainID : String) : Prop :=
  ∃ s, t.tx.signatures = [some s] ∧ s.doc = t.tx.signDoc chainID t.accountNumber

/-- The service signs what it is given with the key of the wallet, and shows that
key. -/
def Serves (wallets : String → PubKey) : (c : SubmitCall) → c.Ans → Prop
  | .sign walletID doc, .ok sig => sig = some ⟨wallets walletID, doc⟩
  | .getWallet walletID, .ok key => key = wallets walletID
  | _, _ => True

/-! ## The setters -/

namespace SdkTx

variable (tx : SdkTx)

@[simp] theorem body_setGasLimit (gasLimit : UInt64) :
    (tx.setGasLimit gasLimit).body = tx.body := rfl

/-- Of what is signed, `SetSignatures` changes the signer infos. -/
theorem signDoc_setSignatures_eq_iff (sig : SignatureV2) (chainID : String)
    (accountNumber : UInt64) :
    tx.signDoc chainID accountNumber = (tx.setSignatures [sig]).signDoc chainID accountNumber ↔
      tx.authInfo.signerInfos = [⟨sig.pubKey, sig.mode, sig.sequence⟩] := by
  obtain ⟨body, ⟨infos, fee⟩, signatures⟩ := tx
  simp [signDoc, setSignatures]

end SdkTx

/-! ## The signers -/

/-- The bytes that are signed do not depend on the signature that is set then. -/
theorem covered_signCosmosTx (key : PubKey) (chainID : String) (t : CosmosTransaction) :
    CosmosTransaction.Covered
      { t with tx := signCosmosTx key chainID t.accountNumber t.sequence t.tx } chainID :=
  ⟨_, rfl, rfl⟩

/-- What the remote signer returns. -/
def RemoteCosmosSigner.signed (key : PubKey) (chainID : String)
    (t : CosmosTransaction) : CosmosTransaction :=
  { t with
    tx := t.tx.setSignatures
      [⟨key, .direct, some ⟨key, t.tx.signDoc chainID t.accountNumber⟩, t.sequence⟩] }

theorem RemoteCosmosSigner.sign_eval {s : RemoteCosmosSigner} {chainID : String}
    {t t' : CosmosTransaction}
    {wallets : String → PubKey} {ω : (c : SubmitCall) → c.Ans} (hω : ∀ c, Serves wallets c (ω c))
    (h : (s.sign chainID t).eval ω = .ok t') : t' = signed (wallets s.walletID) chainID t := by
  rw [RemoteCosmosSigner.sign, signCosmosTransaction] at h
  have hsign := hω (.sign s.walletID (t.tx.signDoc chainID t.accountNumber))
  have hwallet := hω (.getWallet s.walletID)
  cases hs : ω (.sign s.walletID (t.tx.signDoc chainID t.accountNumber)) with
  | error err => simp [attempt, hs] at h
  | ok signature =>
    cases hw : ω (.getWallet s.walletID) with
    | error err => simp [attempt, hs, hw] at h
    | ok key =>
      rw [hs] at hsign
      rw [hw] at hwallet
      simp only [attempt, eval_bind, eval_perform, eval_ret, hs, hw, Except.ok.injEq] at h
      obtain rfl : signature = some ⟨wallets s.walletID, t.tx.signDoc chainID t.accountNumber⟩ :=
        hsign
      obtain rfl : key = wallets s.walletID := hwallet
      exact h.symm

theorem RemoteCosmosSigner.covered_signed_iff (key : PubKey) (chainID : String)
    (t : CosmosTransaction) :
    (signed key chainID t).Covered chainID ↔
      t.tx.authInfo.signerInfos = [⟨key, .direct, t.sequence⟩] := by
  rw [← t.tx.signDoc_setSignatures_eq_iff ⟨key, .direct,
    some ⟨key, t.tx.signDoc chainID t.accountNumber⟩, t.sequence⟩ chainID t.accountNumber]
  constructor
  · rintro ⟨s, hs, hdoc⟩
    cases hs
    exact hdoc
  · intro hdoc
    exact ⟨_, rfl, hdoc⟩

/-- The two signers differ in the document that is signed, if at all. -/
theorem signed_eq_signCosmosTx_iff (key : PubKey) (chainID : String) (t : CosmosTransaction) :
    { t with tx := signCosmosTx key chainID t.accountNumber t.sequence t.tx } =
        RemoteCosmosSigner.signed key chainID t ↔
      t.tx.authInfo.signerInfos = [⟨key, .direct, t.sequence⟩] := by
  rw [← t.tx.signDoc_setSignatures_eq_iff ⟨key, .direct, none, t.sequence⟩ chainID t.accountNumber]
  constructor
  · intro h
    have hsigs := congrArg (·.tx.signatures) h
    have hsig := Option.some.inj (List.cons.inj hsigs).1
    exact (congrArg Signature.doc hsig).symm
  · intro hdoc
    show CosmosTransaction.mk _ _ _ = CosmosTransaction.mk _ _ _
    rw [signCosmosTx, signWithPrivKey, defaultMode, ← hdoc]
    rfl

/-- For every tx and chain id. The local signer always covers the tx. The remote
signer covers it, and returns what a local signer with the key of the wallet
does, just if the tx comes with the signer info of that key. -/
theorem signatures_cover_iff (chainID : String) (t t' : CosmosTransaction)
    (ω : (c : SubmitCall) → c.Ans) :
    (∀ s : LocalCosmosSigner, (s.sign chainID t).eval ω = .ok t' → t'.Covered chainID) ∧
    ∀ (s : RemoteCosmosSigner) (wallets : String → PubKey), (∀ c, Serves wallets c (ω c)) →
      (s.sign chainID t).eval ω = .ok t' →
        (t'.Covered chainID ↔
        t.tx.authInfo.signerInfos = [⟨wallets s.walletID, .direct, t.sequence⟩]) ∧
        (((⟨wallets s.walletID⟩ : LocalCosmosSigner).sign chainID t).eval ω = .ok t' ↔
          t.tx.authInfo.signerInfos = [⟨wallets s.walletID, .direct, t.sequence⟩]) := by
  constructor
  · intro s h
    cases h
    exact covered_signCosmosTx s.publicKey chainID t
  · intro s wallets hω h
    obtain rfl := RemoteCosmosSigner.sign_eval hω h
    refine ⟨RemoteCosmosSigner.covered_signed_iff _ chainID t, ?_⟩
    rw [LocalCosmosSigner.sign, eval_ret, Except.ok.injEq]
    exact signed_eq_signCosmosTx_iff _ chainID t

/-! ## A tx -/

/-- A service in which every wallet has the key `1`. -/
def signerService : (c : SubmitCall) → c.Ans
  | .sign _ doc => .ok (some ⟨[1], doc⟩)
  | .getWallet _ => .ok [1]
  | .accountInfo _ => .error (newErr "")
  | .simulate _ => .error (newErr "")
  | .broadcastTxSync _ => .error (newErr "")
  | .sleep _ => ()

theorem serves_signerService (c : SubmitCall) : Serves (fun _ => [1]) c (signerService c) := by
  cases c <;> trivial

/-- A tx with one message and these signer infos, for account 7 and sequence 3. -/
def transferTx (infos : List SignerInfo) : CosmosTransaction :=
  ⟨{ body := { messages := [⟨"/ibc.core.channel.v2.MsgRecvPacket", [5]⟩] }, authInfo := {
    signerInfos := infos } }, 7, 3⟩

theorem signatures_cover_signed_before : ∃ t',
    ((⟨"wallet"⟩ : RemoteCosmosSigner).sign "chain" (transferTx [⟨[1], .direct, 3⟩])).eval
      signerService = .ok t' ∧ t'.Covered "chain" := by
  refine ⟨_, rfl, ?_⟩
  exact (((signatures_cover_iff "chain" (transferTx [⟨[1], .direct, 3⟩]) _ signerService).2
    ⟨"wallet"⟩ (fun _ => [1]) serves_signerService rfl).1).mpr rfl

/-- The first signature on a tx, by either signer. -/
theorem signature_not_covering :
    (∃ t', ((⟨"wallet"⟩ : RemoteCosmosSigner).sign "chain" (transferTx [])).eval
      signerService = .ok t' ∧ ¬t'.Covered "chain") ∧
    ∃ t', ((⟨[1]⟩ : LocalCosmosSigner).sign "chain" (transferTx [])).eval signerService = .ok t' ∧
      t'.Covered "chain" := by
  refine ⟨⟨_, rfl, ?_⟩, _, rfl, _, rfl, rfl⟩
  rintro ⟨s, hs, hdoc⟩
  cases hs
  exact absurd hdoc (by decide)

end PlatformRelayer
