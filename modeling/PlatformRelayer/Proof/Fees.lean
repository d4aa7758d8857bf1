import Mathlib.Tactic.Positivity
import PlatformRelayer.Bridges.EvmTx

/-!
# The fee caps of a tx

A node takes a tx only if the tip cap is at most the fee cap. `newTx` makes the
fee cap out of the tip before the tip is scaled, so the two caps are in order
just if no whole number separates the scaled fee from the scaled tip
(`floor_le_floor_iff`). A tip multiplier that is not larger than the fee
multiplier is always safe.
-/

namespace PlatformRelayer

open Prog

theorem truncate_of_nonneg {x : ℚ} (h : 0 ≤ x) : truncate x = ⌊x⌋ := by
  rw [truncate, Int.tdiv_eq_ediv_of_nonneg (Rat.num_nonneg.mpr h)]
  exact (Rat.floor_def x).symm

theorem floor_le_floor_iff {x y : ℚ} : ⌊x⌋ ≤ ⌊y⌋ ↔ ¬∃ n : ℤ, y < n ∧ n ≤ x := by
  refine ⟨fun h ⟨n, hy, hx⟩ => ?_, fun h => ?_⟩
  · have hn : n ≤ ⌊y⌋ := (Int.le_floor.mpr hx).trans h
    exact absurd (Int.le_floor.mp hn) (not_le.mpr hy)
  · by_contra hlt
    exact h ⟨⌊x⌋, Int.floor_lt.mp (not_le.mp hlt), Int.floor_le x⟩

/-- What a multiplier scales by. -/
def scale (multiplier : Option ℚ) : ℚ := multiplier.getD 1

theorem scale_nonneg {multiplier : Option ℚ}
    (h : ∀ m ∈ multiplier, 0 < m) : 0 ≤ scale multiplier := by
  cases multiplier with
  | none => exact zero_le_one
  | some m => exact (h m rfl).le

theorem adjustGasCap_eq {multiplier : Option ℚ} {cap : Int} (hm : ∀ m ∈ multiplier, 0 < m)
    (hcap : 0 ≤ cap) : adjustGasCap multiplier (some cap) = some ⌊cap * scale multiplier⌋ := by
  cases multiplier with
  | none => simp [adjustGasCap, scale]
  | some m =>
    have h : (0 : ℚ) ≤ cap * m := mul_nonneg (Int.cast_nonneg hcap) (hm m rfl).le
    rw [adjustGasCap, truncate_of_nonneg h]
    rfl

namespace EVMSubmitter

variable {client : EVMSubmitter} {ω : (c : TxCall) → c.Ans} {bz : List UInt8} {address : String}
  {tip baseFee : Int}
  {tx : DynamicFeeTx}

/-- The caps of a tx that `newTx` returns. -/
theorem caps_newTx (hhead : ω .headerByNumber = .ok (some baseFee))
    (htip : ω .suggestGasTipCap = .ok tip) (h : (client.newTx bz address).eval ω = .ok tx) :
    tx.gasFeeCap = client.adjustGasFeeCap (some (tip + baseFee * 2)) ∧
      tx.gasTipCap = client.adjustGasTipCap (some tip) := by
  obtain ⟨head, hh, h⟩ := eval_attempt_eq_ok h
  obtain rfl : some baseFee = head := Except.ok.inj (hhead.symm.trans hh)
  obtain ⟨tip', ht, h⟩ := eval_attempt_eq_ok h
  obtain rfl : tip = tip' := Except.ok.inj (htip.symm.trans ht)
  obtain ⟨code, -, h⟩ := eval_attempt_eq_ok h
  split at h
  · cases h
  obtain ⟨gasLimit, -, h⟩ := eval_attempt_eq_ok h
  obtain ⟨nonce, -, h⟩ := eval_attempt_eq_ok h
  obtain rfl := Except.ok.inj h
  exact ⟨rfl, rfl⟩

end EVMSubmitter

/-- The order of the caps that a node asks for. -/
def DynamicFeeTx.CapsInOrder (tx : DynamicFeeTx) : Prop :=
  ∃ tipCap feeCap, tx.gasTipCap = some tipCap ∧ tx.gasFeeCap = some feeCap ∧ tipCap ≤ feeCap

theorem fee_caps_in_order_iff {client : EVMSubmitter} {ω : (c : TxCall) → c.Ans} {bz : List UInt8}
    {address : String} {tip baseFee : Int} {tx : DynamicFeeTx}
    (hhead : ω .headerByNumber = .ok (some baseFee))
    (htip : ω .suggestGasTipCap = .ok tip) (hb : 0 ≤ baseFee) (ht : 0 ≤ tip)
    (hfeeMul : ∀ m ∈ client.gasFeeCapMultiplier, 0 < m)
    (htipMul : ∀ m ∈ client.gasTipCapMultiplier, 0 < m)
    (h : (client.newTx bz address).eval ω = .ok tx) :
    (tx.CapsInOrder ↔ ¬∃ n : ℤ, (tip + baseFee * 2) * scale client.gasFeeCapMultiplier < n ∧
        n ≤ tip * scale client.gasTipCapMultiplier) ∧
      (scale client.gasTipCapMultiplier ≤ scale client.gasFeeCapMultiplier → tx.CapsInOrder) := by
  obtain ⟨hfeeCap, htipCap⟩ := EVMSubmitter.caps_newTx hhead htip h
  rw [EVMSubmitter.adjustGasFeeCap, adjustGasCap_eq hfeeMul (by positivity)] at hfeeCap
  rw [EVMSubmitter.adjustGasTipCap, adjustGasCap_eq htipMul ht] at htipCap
  have hcaps : tx.CapsInOrder ↔
      ⌊tip * scale client.gasTipCapMultiplier⌋ ≤
        ⌊(tip + baseFee * 2 : ℤ) * scale client.gasFeeCapMultiplier⌋ := by
    simp [DynamicFeeTx.CapsInOrder, hfeeCap, htipCap]
  refine ⟨?_, fun hle => hcaps.mpr (Int.floor_le_floor ?_)⟩
  · rw [hcaps, floor_le_floor_iff]
    push_cast
    rfl
  have hfee : (tip : ℚ) ≤ (tip + baseFee * 2 : ℤ) := by
    exact_mod_cast (by omega : tip ≤ tip + baseFee * 2)
  calc (tip : ℚ) * scale client.gasTipCapMultiplier
      ≤ tip * scale client.gasFeeCapMultiplier := mul_le_mul_of_nonneg_left hle (Int.cast_nonneg ht)
    _ ≤ (tip + baseFee * 2 : ℤ) * scale client.gasFeeCapMultiplier :=
      mul_le_mul_of_nonneg_right hfee (scale_nonneg hfeeMul)

/-- A node that suggests a tip and has a base fee. -/
def someNode (tip baseFee : Int) : (c : TxCall) → c.Ans
  | .headerByNumber => .ok (some baseFee)
  | .suggestGasTipCap => .ok tip
  | .pendingCodeAt _ => .ok [0x60]
  | .estimateGas _ => .ok 100000
  | .pendingNonceAt _ => .ok 4

def someSubmitter (feeCapMultiplier tipCapMultiplier : Option ℚ) : EVMSubmitter where
  chainID := "1"
  signerAddress := []
  gasFeeCapMultiplier := feeCapMultiplier
  gasTipCapMultiplier := tipCapMultiplier
  addressString := fun _ => ""

/-- The multipliers of the sample configuration. -/
theorem fee_caps_in_order_sample : ∃ tx,
    ((someSubmitter (some (3 / 2)) (some (6 / 5))).newTx [] "").eval (someNode 10 1) = .ok tx ∧
      tx.CapsInOrder := by
  have h : ((someSubmitter (some (3 / 2)) (some (6 / 5))).newTx [] "").eval (someNode 10 1) = .ok
      _ := rfl
  refine ⟨_, h, (fee_caps_in_order_iff rfl rfl (by decide) (by decide) ?_ ?_ h).2 ?_⟩
  · rintro m ⟨⟩
    norm_num
  · rintro m ⟨⟩
    norm_num
  · norm_num [someSubmitter, scale]

/-- A multiplier for the tip only, and a small base fee. -/
theorem fee_caps_out_of_order : ∃ tx,
    ((someSubmitter none (some (3 / 2))).newTx [] "").eval (someNode 10 1) = .ok tx ∧
      tx.gasTipCap = some 15 ∧ tx.gasFeeCap = some 12 ∧ ¬tx.CapsInOrder := by
  have htip : adjustGasCap (some (3 / 2)) (some 10) = some 15 := by decide +kernel
  refine ⟨_, rfl, htip, rfl, ?_⟩
  rintro ⟨tipCap, feeCap, h₁, h₂, hle⟩
  obtain rfl : 15 = tipCap := Option.some.inj (htip.symm.trans h₁)
  obtain rfl : 12 = feeCap := Option.some.inj h₂
  exact absurd hle (by decide)

end PlatformRelayer
