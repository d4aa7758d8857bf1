import PlatformRelayer.Bridges.Delivery

/-!
# Tx hashes as text

The clients write the hash of a tx as text, and the text is what the database has. It
is read back by the same client, and for the relay service. What is read is the hash
that was written.
-/

namespace PlatformRelayer

/-! ## Digits -/

/-- A digit is one byte of the text, which is read as the digit. -/
theorem fromHexChar_hexDigit {a : Char} (ha : a = 'a' ∨ a = 'A') {n : UInt8} (hn : n < 16) :
    ∃ c, String.utf8EncodeChar (hexDigit a n) = [c] ∧ fromHexChar c = some n := by
  have hlower : ∀ n ∈ List.range 16,
      (String.utf8EncodeChar (hexDigit 'a' (UInt8.ofNat n))).map
      fromHexChar = [some (UInt8.ofNat n)] := by decide +kernel
  have hupper : ∀ n ∈ List.range 16,
      (String.utf8EncodeChar (hexDigit 'A' (UInt8.ofNat n))).map
      fromHexChar = [some (UInt8.ofNat n)] := by decide +kernel
  have hmem : n.toNat ∈ List.range 16 := List.mem_range.mpr (UInt8.lt_iff_toNat_lt.mp hn)
  have h : (String.utf8EncodeChar (hexDigit a n)).map fromHexChar = [some n] := by
    rcases ha with rfl | rfl
    · simpa using hlower n.toNat hmem
    · simpa using hupper n.toNat hmem
  obtain ⟨c, hc, hvalue⟩ := List.map_eq_singleton_iff.mp h
  exact ⟨c, hc, hvalue⟩

theorem nibbles (b : UInt8) : b >>> 4 < 16 ∧ b &&& 0x0f < 16 ∧
    b >>> 4 <<< 4 ||| b &&& 0x0f = b := by
  have hall : ∀ n ∈ List.range 256, UInt8.ofNat n >>> 4 < 16 ∧ UInt8.ofNat n &&& 0x0f < 16 ∧
      UInt8.ofNat n >>> 4 <<< 4 ||| UInt8.ofNat n &&& 0x0f = UInt8.ofNat n := by decide +kernel
  have h := hall b.toNat (List.mem_range.mpr b.toNat_lt)
  rwa [UInt8.ofNat_toNat] at h

theorem decodeBytes_hexDigits {a : Char} (ha : a = 'a' ∨ a = 'A') (hash : List UInt8) :
    decodeBytes ((hexDigits a hash).flatMap String.utf8EncodeChar) = .ok hash := by
  induction hash with
  | nil => rfl
  | cons b hash ih =>
    obtain ⟨hhigh, hlow, hb⟩ := nibbles b
    obtain ⟨x, hx, hx'⟩ := fromHexChar_hexDigit ha hhigh
    obtain ⟨y, hy, hy'⟩ := fromHexChar_hexDigit ha hlow
    have htext : (hexDigits a (b :: hash)).flatMap String.utf8EncodeChar =
        x :: y :: (hexDigits a hash).flatMap String.utf8EncodeChar := by
      simp [hexDigits, hx, hy]
    rw [htext, decodeBytes, hx']
    dsimp only
    rw [hy', ih]
    dsimp only
    rw [hb]

theorem decodedBytes_of_decodeBytes {bytes hash : List UInt8}
    (h : decodeBytes bytes = .ok hash) : decodedBytes bytes = hash := by
  fun_induction decodeBytes bytes generalizing hash with
  | case1 =>
    cases h
    rfl
  | case7 a b rest x hx y hy decoded hrest ih =>
    cases h
    rw [decodedBytes, hx, hy, ih hrest]
  | _ => cases h

theorem length_of_decodeBytes {bytes hash : List UInt8}
    (h : decodeBytes bytes = .ok hash) : bytes.length = 2 * hash.length := by
  fun_induction decodeBytes bytes generalizing hash with
  | case1 =>
    cases h
    rfl
  | case7 a b rest x hx y hy decoded hrest ih =>
    cases h
    have hlength := ih hrest
    simp only [List.length_cons]
    omega
  | _ => cases h

/-! ## Hashes -/

theorem hexDecodeString_hashString (hash : List UInt8) :
    hexDecodeString (CosmosBridgeClient.hashString hash) = .ok hash := by
  rw [hexDecodeString, bytesOf, CosmosBridgeClient.hashString, String.toList_ofList]
  exact decodeBytes_hexDigits (.inr rfl) hash

theorem bytesOf_hashString (hash : List UInt8) : bytesOf (EVMBridgeClient.hashString hash) =
    0x30 :: 0x78 :: (hexDigits 'a' hash).flatMap String.utf8EncodeChar := by
  rw [bytesOf, EVMBridgeClient.hashString, String.toList_ofList]
  rfl

theorem hexToHash_hashString {hash : List UInt8} (h : hash.length = 32) :
    hexToHash (EVMBridgeClient.hashString hash) = hash := by
  have hdecode := decodeBytes_hexDigits (.inl rfl) hash
  have heven := length_of_decodeBytes hdecode
  have hfrom : fromHex (EVMBridgeClient.hashString hash) = hash := by
    rw [fromHex, bytesOf_hashString]
    generalize (hexDigits 'a' hash).flatMap String.utf8EncodeChar = digits at hdecode heven
    change decodedBytes (if digits.length % 2 = 1 then 0x30 :: digits else digits) = hash
    rw [if_neg (by omega)]
    exact decodedBytes_of_decodeBytes hdecode
  rw [hexToHash, hfrom, bytesToHash, h]
  simp [h]

end PlatformRelayer
