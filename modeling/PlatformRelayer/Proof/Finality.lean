import Mathlib.Data.UInt
import PlatformRelayer.Bridges.Finality
import PlatformRelayer.Proof.Packets

/-!
# The notions of finality

On EVM both functions speak of the same block: the finalized head, `offset`
blocks before the latest if there is an offset (`head?`). A tx is final just if
its block is not above that head (`isTxFinalized_eval`), and a timestamp if it is
not after the time of that head (`isTimestampFinalized_eval`). So the two agree
(`finality_agrees_iff`) as long as Go has the time of the block right.

The Cosmos client does not look at the offset (`cosmos_finality_iff`).
-/

namespace PlatformRelayer

open Prog

/-! ## EVM -/

/-- The blocks of an EVM chain and the heads that a node knows. -/
structure EvmChain where
  time : Nat → UInt64
  latest : Nat
  finalized : Nat
  time_mono : ∀ a b, a ≤ b → time a ≤ time b
  latest_lt : latest < 2 ^ 63
  finalized_lt : finalized < 2 ^ 63

namespace EvmChain

variable (chain : EvmChain)

/-- The node of the chain, when it is asked about a tx with this receipt. -/
def node (receipt : Receipt) : (c : NodeCall) → c.Ans
  | .transactionReceipt _ => .ok receipt
  | .headerByNumber none => .ok ⟨chain.latest, chain.time chain.latest⟩
  | .headerByNumber (some (.ofNat n)) =>
    if n ≤ chain.latest then .ok ⟨n, chain.time n⟩ else .error (newErr "not found")
  | .headerByNumber (some (.negSucc n)) =>
    if .negSucc n = finalizedBlockNumber then .ok ⟨chain.finalized, chain.time chain.finalized⟩
    else .error (newErr "not found")
  | .tx _ => .error (newErr "method not found")
  | .header _ => .error (newErr "method not found")

/-- The finalized head: the block with the tag, or the one `offset` blocks before
the latest, if there are so many. -/
def head? : Option UInt64 → Option Nat
  | none => some chain.finalized
  | some offset => if offset.toNat ≤ chain.latest then some (chain.latest - offset.toNat) else none

/-- The time of a block: the seconds in its header. -/
def timestamp (b : Nat) : Time := ((chain.time b).toNat : Int) * second

theorem timestamp_mono {a b : Nat} (h : a ≤ b) : chain.timestamp a ≤ chain.timestamp b := by
  have htime : (chain.time a).toNat ≤ (chain.time b).toNat :=
    UInt64.le_iff_toNat_le.mp (chain.time_mono a b h)
  exact Int.mul_le_mul_of_nonneg_right (Int.ofNat_le.mpr htime) (by decide)

theorem toNat_ofNat {n : Nat} (h : n < 2 ^ 63) : (UInt64.ofNat n).toNat = n :=
  UInt64.toNat_ofNat_of_lt' (Nat.lt_trans h (by decide))

theorem any_head?_block (o : UInt64) (b : Nat) :
    (chain.head? (some o)).any (b ≤ ·) = decide (b + o.toNat ≤ chain.latest) := by
  rw [head?]
  split
  · rw [Option.any_some, decide_eq_decide]
    omega
  · rw [Option.any_none, eq_comm, decide_eq_false_iff_not]
    omega

end EvmChain

/-- The guard makes the unsigned subtraction that of the naturals. -/
theorem ge_and_sub_ge_iff (a b o : UInt64) : a ≥ b ∧ a - b ≥ o ↔ b.toNat + o.toNat ≤ a.toNat := by
  simp only [ge_iff_le, UInt64.le_iff_toNat_le]
  constructor
  · rintro ⟨hle, hsub⟩
    rw [UInt64.toNat_sub_of_le _ _ (UInt64.le_iff_toNat_le.mpr hle)] at hsub
    omega
  · intro h
    have hle : b.toNat ≤ a.toNat := by omega
    rw [UInt64.toNat_sub_of_le _ _ (UInt64.le_iff_toNat_le.mpr hle)]
    omega

namespace EVMBridgeClient

variable (chain : EvmChain) {receipt : Receipt}

/-- In the integers, without wrapping: the block of the tx is not above the head. -/
theorem isTxFinalized_eval (txHash : String) (offset : Option UInt64)
    (h : receipt.blockNumber < 2 ^ 63) : (isTxFinalized txHash offset).eval (chain.node receipt) =
      .ok ((chain.head? offset).any (receipt.blockNumber ≤ ·)) := by
  cases offset with
  | none =>
    have hint : (Int64.ofNat receipt.blockNumber).toInt = receipt.blockNumber :=
      Int64.toInt_ofNat_of_lt h
    show Except.ok (decide ((Int64.ofNat receipt.blockNumber).toInt ≤ (chain.finalized : Int))) = _
    rw [hint]
    simp [EvmChain.head?]
  | some offset =>
    show Except.ok (decide (UInt64.ofNat chain.latest ≥ UInt64.ofNat receipt.blockNumber) &&
      decide (UInt64.ofNat chain.latest - UInt64.ofNat receipt.blockNumber ≥ offset)) = _
    rw [chain.any_head?_block, ← Bool.decide_and, Except.ok.injEq, decide_eq_decide,
      ge_and_sub_ge_iff, EvmChain.toNat_ofNat h, EvmChain.toNat_ofNat chain.latest_lt]

/-- The time of the head, as Go has it, is not before the timestamp. -/
theorem isTimestampFinalized_eval (ts : Time) (offset : Option UInt64) :
    (isTimestampFinalized ts offset).eval (chain.node receipt) =
      .ok ((chain.head? offset).any fun h => ts ≤ unixInstant (chain.time h).toInt64) := by
  have hnot (t : Time) : (!decide (t < ts)) = decide (ts ≤ t) := by
    rw [← decide_not]
    congr 1
    exact propext Int.not_lt
  cases offset with
  | none =>
    rw [isTimestampFinalized,
      eval_attempt_ok (a := ⟨chain.finalized, chain.time chain.finalized⟩) rfl, eval_ret, notBefore,
      hnot, EvmChain.head?, Option.any_some]
  | some offset =>
    have hlatest := EvmChain.toNat_ofNat chain.latest_lt
    rw [isTimestampFinalized, eval_attempt_ok (a := ⟨chain.latest, chain.time chain.latest⟩) rfl,
      EvmChain.head?]
    by_cases hlt : UInt64.ofNat chain.latest < offset
    · have hnat := UInt64.lt_iff_toNat_lt.mp hlt
      rw [hlatest] at hnat
      rw [if_pos hlt, if_neg (by omega)]
      rfl
    · have hge : offset ≤ UInt64.ofNat chain.latest := UInt64.not_lt.mp hlt
      have hnat := UInt64.le_iff_toNat_le.mp hge
      have hsub := UInt64.toNat_sub_of_le _ _ hge
      rw [hlatest] at hnat hsub
      have hlt := chain.latest_lt
      have hint : (UInt64.ofNat chain.latest - offset).toInt64.toInt = .ofNat
          (chain.latest - offset.toNat) := by
        rw [toInt_toInt64 (by omega), hsub]
        rfl
      have hquery :
          (query (.headerByNumber (some (UInt64.ofNat chain.latest - offset).toInt64.toInt))).eval
            (chain.node receipt) =
          .ok ⟨chain.latest - offset.toNat, chain.time (chain.latest - offset.toNat)⟩ := by
        rw [hint]
        exact if_pos (Nat.sub_le _ _)
      rw [if_neg ‹_›, if_pos hnat, eval_attempt_ok hquery, eval_ret, notBefore, hnot,
        Option.any_some]

end EVMBridgeClient

/-- The seconds of a block's time in a `time.Time`. From 2⁶³ less the years
before the epoch on they overflow. -/
theorem toInt_add_unixToInternal (n : UInt64) : (n.toInt64 + unixToInternal).toInt =
    if n.toNat < 2 ^ 63 - 62135596800 then (n.toNat : Int) + 62135596800
      else n.toNat + 62135596800 - 2 ^ 64 := by
  have hn := n.toNat_lt
  have hsum : (n.toInt64 + unixToInternal).toInt = ((n.toNat : Int) + 62135596800).bmod
      (2 ^ 64) := by
    rw [Int64.toInt_add]
    show (n.toBitVec.toInt + 62135596800).bmod (2 ^ 64) = _
    rw [BitVec.toInt_eq_toNat_bmod, Int.bmod_add_bmod]
    rfl
  rw [hsum, Int.bmod_def]
  split <;> split <;> omega

theorem toInt_unixToInternal : unixToInternal.toInt = 62135596800 := by decide

/-- A time that is read as `u` and is `t`. -/
theorem le_congr_iff {fits : Prop} {u t ts : Time} (hle : u ≤ t) (heq : fits → u = t) :
    ((ts ≤ u ↔ ts ≤ t) ↔ fits ∨ ts ≤ u ∨ t < ts) := by
  constructor
  · intro hiff
    by_cases hearly : ts ≤ u
    · exact .inr (.inl hearly)
    · exact .inr (.inr (Int.not_le.mp fun hts => hearly (hiff.mpr hts)))
  · rintro (hfits | hearly | hlate)
    · rw [heq hfits]
    · exact iff_of_true hearly (Int.le_trans hearly hle)
    · have hlate' := Int.not_le.mpr hlate
      exact iff_of_false (fun hts => hlate' (Int.le_trans hts hle)) hlate'

namespace EvmChain

variable (chain : EvmChain)

/-- The time of a block fits into a `time.Time`. -/
def TimeFits (b : Nat) : Prop := (chain.time b).toNat < 2 ^ 63 - 62135596800

theorem unixInstant_eq {b : Nat} (h : chain.TimeFits b) :
    unixInstant (chain.time b).toInt64 = chain.timestamp b := by
  have hlt : (chain.time b).toNat < 2 ^ 63 - 62135596800 := h
  rw [unixInstant, toInt_add_unixToInternal, if_pos hlt, toInt_unixToInternal, Int.add_sub_cancel,
    timestamp]

/-- An overflow makes a time earlier. -/
theorem unixInstant_le (b : Nat) : unixInstant (chain.time b).toInt64 ≤ chain.timestamp b := by
  rw [unixInstant, toInt_add_unixToInternal, toInt_unixToInternal, timestamp]
  refine Int.mul_le_mul_of_nonneg_right ?_ (by decide)
  split <;> omega

/-- A block that is not above the head is not younger than the head, so the head
decides whether there is one with a timestamp. -/
theorem exists_finalized_iff (offset : Option UInt64) (ts : Time) :
    (∃ receipt : Receipt, receipt.blockNumber < 2 ^ 63 ∧ ts ≤ chain.timestamp receipt.blockNumber ∧
      ∀ txHash, (EVMBridgeClient.isTxFinalized txHash offset).eval
      (chain.node receipt) = .ok true) ↔
    ∃ h, chain.head? offset = some h ∧ ts ≤ chain.timestamp h := by
  constructor
  · rintro ⟨receipt, hlt, hts, htx⟩
    have hfinal := htx ""
    rw [EVMBridgeClient.isTxFinalized_eval chain "" offset hlt, Except.ok.injEq, Option.any_eq_true]
      at hfinal
    obtain ⟨h, hh, hle⟩ := hfinal
    exact ⟨h, hh, Int.le_trans hts (chain.timestamp_mono (of_decide_eq_true hle))⟩
  · rintro ⟨h, hh, hts⟩
    have hlt : h < 2 ^ 63 := by
      have hl := chain.latest_lt
      have hf := chain.finalized_lt
      cases offset with
      | none =>
        cases hh
        exact hf
      | some offset =>
        rw [head?, Option.ite_none_right_eq_some, Option.some.injEq] at hh
        omega
    refine ⟨⟨h, []⟩, hlt, hts, fun txHash => ?_⟩
    rw [EVMBridgeClient.isTxFinalized_eval chain txHash offset hlt, hh]
    simp

/-- For any way to read the time of a block. -/
theorem any_head?_time (o : UInt64) (u : Nat → Time) (ts : Time) :
    (chain.head? (some o)).any (fun h => ts ≤ u h) =
      decide (o.toNat ≤ chain.latest ∧ ts ≤ u (chain.latest - o.toNat)) := by
  rw [head?]
  split
  · rename_i ho
    simp [ho]
  · rename_i ho
    simp [ho]

/-- For any way to read the time of a block that is right if the time fits, and
too early otherwise. -/
theorem any_head?_iff (u : Nat → Time) (hle : ∀ b, u b ≤ chain.timestamp b)
    (heq : ∀ b, chain.TimeFits b → u b = chain.timestamp b) (offset : Option UInt64) (ts : Time) :
    ((chain.head? offset).any (fun h => ts ≤ u h) = true ↔ ∃ h, chain.head? offset = some h ∧
      ts ≤ chain.timestamp h) ↔
      ∀ h, chain.head? offset = some h → chain.TimeFits h ∨ ts ≤ u h ∨ chain.timestamp h < ts := by
  cases chain.head? offset with
  | none => simp
  | some h =>
    simp only [Option.any_some, decide_eq_true_eq, Option.some.injEq, exists_eq_left', forall_eq']
    exact le_congr_iff (hle h) (heq h)

end EvmChain

/-- For every chain, offset and timestamp. The rest says that with an offset both
functions count in the natural numbers, and that both are false if the offset
is larger than the latest height. -/
theorem finality_agrees_iff (chain : EvmChain) (r : Receipt) (offset : Option UInt64) (ts : Time) :
    (((EVMBridgeClient.isTimestampFinalized ts offset).eval (chain.node r) = .ok true ↔
        ∃ receipt : Receipt, receipt.blockNumber < 2 ^ 63 ∧
        ts ≤ chain.timestamp receipt.blockNumber ∧
          ∀ txHash, (EVMBridgeClient.isTxFinalized txHash offset).eval
          (chain.node receipt) = .ok true) ↔
      ∀ h, chain.head? offset = some h →
        chain.TimeFits h ∨ ts ≤ unixInstant (chain.time h).toInt64 ∨ chain.timestamp h < ts) ∧
    ∀ o, offset = some o → ∀ receipt : Receipt, receipt.blockNumber < 2 ^ 63 → ∀ txHash,
      (EVMBridgeClient.isTxFinalized txHash offset).eval (chain.node receipt) =
          .ok (receipt.blockNumber + o.toNat ≤ chain.latest) ∧
        (EVMBridgeClient.isTimestampFinalized ts offset).eval (chain.node receipt) =
          .ok (o.toNat ≤ chain.latest ∧
          ts ≤ unixInstant (chain.time (chain.latest - o.toNat)).toInt64) ∧
        (chain.latest < o.toNat →
          (EVMBridgeClient.isTxFinalized txHash offset).eval (chain.node receipt) = .ok false ∧
            (EVMBridgeClient.isTimestampFinalized ts offset).eval (chain.node receipt) = .ok
            false) := by
  constructor
  · rw [chain.exists_finalized_iff, EVMBridgeClient.isTimestampFinalized_eval, Except.ok.injEq]
    exact chain.any_head?_iff (fun b => unixInstant (chain.time b).toInt64) chain.unixInstant_le
      (fun _ => chain.unixInstant_eq) offset ts
  · rintro o rfl receipt hlt txHash
    rw [EVMBridgeClient.isTxFinalized_eval chain txHash _ hlt,
      EVMBridgeClient.isTimestampFinalized_eval,
      chain.any_head?_block, chain.any_head?_time o fun h => unixInstant (chain.time h).toInt64]
    refine ⟨rfl, rfl, fun ho => ?_⟩
    rw [Except.ok.injEq, Except.ok.injEq, decide_eq_false_iff_not, decide_eq_false_iff_not]
    exact ⟨by omega, fun h => absurd h.1 (Nat.not_le.mpr ho)⟩

/-- Block `n` has the time `10 n`; the latest is 7 and 4 is finalized. -/
def steadyChain : EvmChain where
  time n := (10 * min n 7).toUInt64
  latest := 7
  finalized := 4
  time_mono a b h := by
    rw [UInt64.le_iff_toNat_le]
    show 10 * min a 7 % 2 ^ 64 ≤ 10 * min b 7 % 2 ^ 64
    rw [Nat.mod_eq_of_lt (by omega), Nat.mod_eq_of_lt (by omega)]
    omega
  latest_lt := by decide
  finalized_lt := by decide

theorem finality_agrees_steady :
    ((EVMBridgeClient.isTimestampFinalized (50 * second) (some 2)).eval
      (steadyChain.node ⟨0, []⟩) = .ok true ↔
      ∃ receipt : Receipt, receipt.blockNumber < 2 ^ 63 ∧
      50 * second ≤ steadyChain.timestamp receipt.blockNumber ∧
        ∀ txHash, (EVMBridgeClient.isTxFinalized txHash (some 2)).eval
        (steadyChain.node receipt) = .ok true) ∧
    (EVMBridgeClient.isTimestampFinalized (50 * second) (some 8)).eval
      (steadyChain.node ⟨0, []⟩) = .ok false := by
  refine ⟨(finality_agrees_iff steadyChain ⟨0, []⟩ (some 2) (50 * second)).1.mpr ?_, ?_⟩
  · intro h hh
    cases hh
    refine .inl ?_
    unfold EvmChain.TimeFits
    decide
  · exact (((finality_agrees_iff steadyChain ⟨0, []⟩ (some 8) (50 * second)).2 8 rfl ⟨0, []⟩
      (by decide) "").2.2 (by decide)).2

/-- Block 0 has the time 5, the later blocks 2⁶³. -/
def overflowingChain : EvmChain where
  time n := if n = 0 then 5 else 9223372036854775808
  latest := 1
  finalized := 1
  time_mono a b h := by
    by_cases hb : b = 0
    · rw [if_pos hb, if_pos (by omega)]
      exact UInt64.le_refl _
    · rw [if_neg hb]
      split <;> decide
  latest_lt := by decide
  finalized_lt := by decide

/-- Block 0 is final and not before 3, but the time of the head has become
negative. -/
theorem finality_disagrees :
    (EVMBridgeClient.isTimestampFinalized (3 * second) (some 0)).eval
      (overflowingChain.node ⟨0, []⟩) = .ok false ∧
    (EVMBridgeClient.isTimestampFinalized (3 * second) none).eval
      (overflowingChain.node ⟨0, []⟩) = .ok false ∧
    3 * second ≤ overflowingChain.timestamp 0 ∧
    (EVMBridgeClient.isTxFinalized "ab" (some 0)).eval (overflowingChain.node ⟨0, []⟩) = .ok true ∧
    (EVMBridgeClient.isTxFinalized "ab" none).eval (overflowingChain.node ⟨0, []⟩) = .ok true := by
  decide +kernel

/-! ## Cosmos -/

/-- The blocks of a Cosmos chain, from the first to the latest. -/
structure CosmosChain where
  time : Nat → GoTime
  first : Nat
  latest : Nat
  first_le : first ≤ latest
  time_strictMono : ∀ a b, a < b → (time a).instant < (time b).instant

namespace CosmosChain

variable (chain : CosmosChain)

/-- The node of the chain, when it is asked about a tx at this height. -/
def node (height : Nat) : (c : NodeCall) → c.Ans
  | .transactionReceipt _ => .error (newErr "method not found")
  | .headerByNumber _ => .error (newErr "method not found")
  | .tx _ => .ok ⟨.ofNat height, []⟩
  | .header none => .ok (some (chain.time chain.latest))
  | .header (some h) => .ok (if h.toInt ≤ chain.latest then some (chain.time h.toInt.toNat)
  else none)

/-- The time of the latest block. -/
def latestTime : Time := (chain.time chain.latest).instant

theorem time_mono {a b : Nat} (h : a ≤ b) : (chain.time a).instant ≤ (chain.time b).instant := by
  rcases Nat.lt_or_eq_of_le h with hlt | rfl
  · exact Int.le_of_lt (chain.time_strictMono a b hlt)
  · exact Int.le_refl _

/-- A block `offset` blocks before the latest with a time that is not before the
timestamp: if there is one, it is the last of these. -/
theorem exists_block_iff (offset : Nat) (ts : Time) :
    (∃ b : Nat, chain.first ≤ b ∧ (b : Int) ≤ chain.latest - offset ∧ ts ≤ (chain.time b).instant) ↔
      chain.first + offset ≤ chain.latest ∧ ts ≤ (chain.time (chain.latest - offset)).instant := by
  constructor
  · rintro ⟨b, hfirst, hb, hts⟩
    refine ⟨by omega, Int.le_trans hts (chain.time_mono ?_)⟩
    omega
  · rintro ⟨hfirst, hts⟩
    refine ⟨chain.latest - offset, ?_, ?_, hts⟩
    · omega
    · omega

/-- Without an offset, the timestamp is not the time of the latest block. With
one, there is a block so far back, and the timestamp is not between its time and
that of the latest. -/
def Clear (offset : Nat) (ts : Time) : Prop :=
  if offset = 0 then ts ≠ chain.latestTime
  else ts < chain.latestTime →
    chain.first + offset ≤ chain.latest ∧ ts ≤ (chain.time (chain.latest - offset)).instant

theorem lt_latestTime_iff_exists (offset : Nat) (ts : Time) :
    ((ts < chain.latestTime ↔
        ∃ b : Nat, chain.first ≤ b ∧ (b : Int) ≤ chain.latest - offset ∧
        ts ≤ (chain.time b).instant) ↔
      chain.Clear offset ts) := by
  rw [exists_block_iff, Clear]
  split
  · rename_i ho
    have hfirst := chain.first_le
    have hlast : chain.first + offset ≤ chain.latest ∧
        ts ≤ (chain.time (chain.latest - offset)).instant ↔ ts ≤ chain.latestTime := by
      rw [ho, Nat.sub_zero]
      exact and_iff_right (by omega)
    rw [hlast]
    constructor
    · rintro hiff rfl
      exact Int.lt_irrefl _ (hiff.mpr (Int.le_refl _))
    · intro hne
      exact ⟨Int.le_of_lt, fun hle => Int.lt_iff_le_and_ne.mpr ⟨hle, hne⟩⟩
  · rename_i ho
    refine ⟨fun hiff => hiff.mp, fun h => ⟨h, fun ⟨hfirst, hts⟩ => ?_⟩⟩
    exact Int.lt_of_le_of_lt hts (chain.time_strictMono _ _ (by omega))

end CosmosChain

/-- For every chain, tx, offset and timestamp. Without an offset the latest block
is the finalized one. -/
theorem cosmos_finality_iff (chain : CosmosChain) (txHash : String) (height : Nat)
    (offset : Option UInt64) (ts : Time) : (∀ o, offset = some o →
      (((CosmosBridgeClient.isTxFinalized txHash offset).eval (chain.node height) = .ok true ↔
          (o.toNat : Int) ≤ chain.latest - height) ↔
        (o.toNat : Int) ≤ chain.latest - height)) ∧
    (((CosmosBridgeClient.isTimestampFinalized ts offset).eval (chain.node height) = .ok true ↔
        ∃ b : Nat, chain.first ≤ b ∧ (b : Int) ≤ chain.latest - (offset.getD 0).toNat ∧
          ts ≤ (chain.time b).instant) ↔
      chain.Clear (offset.getD 0).toNat ts) := by
  constructor
  · rintro o -
    have htrue : (CosmosBridgeClient.isTxFinalized txHash offset).eval (chain.node height) = .ok
        true := rfl
    simp only [htrue, true_iff]
  · have heval : (CosmosBridgeClient.isTimestampFinalized ts offset).eval (chain.node height) =
        .ok (decide (chain.latestTime > ts)) := rfl
    rw [heval, Except.ok.injEq, decide_eq_true_eq]
    exact chain.lt_latestTime_iff_exists _ ts

/-- Block `n` has the time `n`; the latest is 10. -/
def tenBlocks : CosmosChain where
  time n := ⟨n * second, 0⟩
  first := 1
  latest := 10
  first_le := by decide
  time_strictMono a b h := by
    show (a : Int) * 1000000000 < b * 1000000000
    omega

/-- An offset of 5, a tx at height 3 and a timestamp of 4. -/
theorem cosmos_finality_deep :
    ((CosmosBridgeClient.isTxFinalized "ab" (some 5)).eval (tenBlocks.node 3) = .ok true ↔
      (5 : Int) ≤ 10 - 3) ∧
    ((CosmosBridgeClient.isTimestampFinalized (4 * second) (some 5)).eval
      (tenBlocks.node 3) = .ok true ↔
      ∃ b : Nat, 1 ≤ b ∧ (b : Int) ≤ 10 - 5 ∧ 4 * second ≤ (tenBlocks.time b).instant) := by
  obtain ⟨htx, htime⟩ := cosmos_finality_iff tenBlocks "ab" 3 (some 5) (4 * second)
  refine ⟨(htx 5 rfl).mpr (by decide), htime.mpr ?_⟩
  show _ → _
  intro _
  decide

/-- An offset of 5: a tx in the latest block is final, and so is a timestamp that
the finalized block 5 has not reached. Without an offset: the time of the latest
block itself is not final. -/
theorem cosmos_finality_broken :
    ((CosmosBridgeClient.isTxFinalized "ab" (some 5)).eval (tenBlocks.node 10) = .ok true ∧
      ¬(5 : Int) ≤ 10 - 10) ∧
    ((CosmosBridgeClient.isTimestampFinalized (8 * second) (some 5)).eval
      (tenBlocks.node 10) = .ok true ∧
      ¬∃ b : Nat, 1 ≤ b ∧ (b : Int) ≤ 10 - 5 ∧ 8 * second ≤ (tenBlocks.time b).instant) ∧
    ((CosmosBridgeClient.isTimestampFinalized (10 * second) none).eval
      (tenBlocks.node 10) = .ok false ∧ 10 * second ≤ (tenBlocks.time 10).instant) := by
  refine ⟨by decide, ⟨by decide, ?_⟩, by decide⟩
  rintro ⟨b, -, hb, hts⟩
  have hts : (8 : Int) * 1000000000 ≤ b * 1000000000 := hts
  omega

end PlatformRelayer
