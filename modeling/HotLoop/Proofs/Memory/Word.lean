import Mathlib
/-!
# HotLoop.Proofs.Memory.Word

A 64-bit word as eight little-endian bytes, the layout of arena slots and of
literals in the canonical encoding. Byte `k` of `w` is
`(w >>> (8 * k).toUInt64).toUInt8`; reading bytes back shifts an accumulator
left by eight and ors the next byte in, from the last byte to the first.

Both directions are stated once through `Nat.ofDigits 256`:

* `foldr_or_bytes_toNat`: reading at most eight bytes is a base-256 number;
* `ofDigits_bytes`: the eight bytes of a word, as base-256 digits, give the word;
* `ofDigits_div_pow_mod`: digit `k` of a base-256 number is its `k`-th byte.

The arena's word laws and the injectivity of encoded literals follow from
these three.
-/

namespace HotLoop

/-- Shifting left by eight and or-ing a byte in appends a base-256 digit. -/
theorem or_byte_toNat (x : UInt64) (y : UInt8) :
    ((x <<< 8) ||| y.toUInt64).toNat = x.toNat % 2 ^ 56 * 256 + y.toNat := by
  have h8 : (8 : UInt64).toNat % 64 = 8 := rfl
  rw [UInt64.toNat_or, UInt64.toNat_shiftLeft, UInt8.toNat_toUInt64, h8]
  have hy : y.toNat < 2 ^ 8 := y.toNat_lt
  have h : x.toNat <<< 8 % 2 ^ 64 = (x.toNat % 2 ^ 56) <<< 8 := by
    simp only [Nat.shiftLeft_eq]
    omega
  rw [h, ← Nat.shiftLeft_add_eq_or_of_lt hy, Nat.shiftLeft_eq]

/-- Byte `k` of a word is its base-256 digit `k`. -/
theorem byte_toNat (w : UInt64) {k : Nat} (hk : k < 8) :
    (w >>> (8 * k).toUInt64).toUInt8.toNat = w.toNat / 256 ^ k % 256 := by
  rw [UInt64.toNat_toUInt8, UInt64.toNat_shiftRight, Nat.shiftRight_eq_div_pow]
  have h : (8 * k).toUInt64.toNat % 64 = 8 * k := by
    rw [Nat.toUInt64_eq, UInt64.toNat_ofNat']
    omega
  rw [h, pow_mul]
  rfl

/-- Reading at most eight bytes, the first one lowest, gives the base-256
number whose digits they are: nothing is shifted out of the word. -/
theorem foldr_or_bytes_toNat (g : Nat → UInt8) :
    ∀ ks : List Nat, ks.length ≤ 8 →
      (ks.foldr (fun k (acc : UInt64) => (acc <<< 8) ||| (g k).toUInt64) 0).toNat =
        Nat.ofDigits 256 (ks.map fun k => (g k).toNat)
  | [], _ => rfl
  | k :: ks, hks => by
    have hlen : ks.length ≤ 7 := by simp only [List.length_cons] at hks; omega
    have ih := foldr_or_bytes_toNat g ks (by omega)
    -- the accumulator holds at most seven bytes, so the shift loses none
    have hlt : Nat.ofDigits 256 (ks.map fun k => (g k).toNat) < 2 ^ 56 := by
      calc Nat.ofDigits 256 (ks.map fun k => (g k).toNat)
          < 256 ^ (ks.map fun k => (g k).toNat).length :=
            Nat.ofDigits_lt_base_pow_length (by norm_num) fun d hd => by
              obtain ⟨k, -, rfl⟩ := List.mem_map.mp hd
              exact (g k).toNat_lt
        _ ≤ 256 ^ 7 := Nat.pow_le_pow_right (by norm_num) (by simpa using hlen)
        _ = 2 ^ 56 := by norm_num
    rw [List.foldr_cons, or_byte_toNat, ih, Nat.mod_eq_of_lt hlt, List.map_cons,
      Nat.ofDigits_cons]
    ring

/-- The first `n` base-`b` digits of `x` make `x` modulo `b ^ n`. -/
theorem ofDigits_range_digits (b x : Nat) :
    ∀ n, Nat.ofDigits b ((List.range n).map fun k => x / b ^ k % b) = x % b ^ n
  | 0 => by
    rw [List.range_zero, List.map_nil, Nat.ofDigits_nil, pow_zero, Nat.mod_one]
  | n + 1 => by
    rw [List.range_succ, List.map_append, Nat.ofDigits_append, ofDigits_range_digits b x n,
      Nat.mod_pow_succ, List.length_map, List.length_range, List.map_singleton,
      Nat.ofDigits_singleton]

/-- The eight bytes of a word, read as base-256 digits, give the word. -/
theorem ofDigits_bytes (w : UInt64) :
    Nat.ofDigits 256 ((List.range 8).map fun k => (w >>> (8 * k).toUInt64).toUInt8.toNat) =
      w.toNat := by
  have hbytes : ((List.range 8).map fun k => (w >>> (8 * k).toUInt64).toUInt8.toNat) =
      (List.range 8).map fun k => w.toNat / 256 ^ k % 256 :=
    List.map_congr_left fun k hk => byte_toNat w (List.mem_range.mp hk)
  rw [hbytes, ofDigits_range_digits, Nat.mod_eq_of_lt (by simpa using w.toNat_lt)]

/-- Digit `k` of a base-256 number is the `k`-th of its digits. -/
theorem ofDigits_div_pow_mod {L : List Nat} (hL : ∀ d ∈ L, d < 256) {k : Nat}
    (hk : k < L.length) : Nat.ofDigits 256 L / 256 ^ k % 256 = L[k] := by
  rw [Nat.ofDigits_div_pow_eq_ofDigits_drop k (by norm_num) L hL,
    List.drop_eq_getElem_cons hk, Nat.ofDigits_cons, Nat.add_mul_mod_self_left,
    Nat.mod_eq_of_lt (hL _ (List.getElem_mem hk))]

end HotLoop
