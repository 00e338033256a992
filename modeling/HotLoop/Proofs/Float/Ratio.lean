import Mathlib
import HotLoop.Float.Double
/-!
# HotLoop.Proofs.Float.Ratio

Ratios of moderate size round to normal doubles, and so does the quotient of
two such doubles. This is what makes every ratio of two counters that the
program divides a positive finite double.

* `Binary.scaledDiv_guess`: at the exponent guessed from the bit lengths the
  quotient has 53 or 54 bits, and `Binary.scaledDiv_succ` halves it.
* `Binary.roundRatio_normal`: a ratio whose magnitude is well inside the
  exponent range rounds to a `Binary.Normal` double, with an exponent the
  bit lengths fix to within two.
* `Binary.ofBits_toBits`: a normal double decodes to its own significand and
  exponent; `Double.isNaN_normal` and `Double.rank_normal` read its pattern.
* `Double.lt_trans`, `Double.lt_trichotomy` and their kin: numbers compare
  by rank.
* `Double.div_ofUInt64_pos_finite`: the quotient of the doubles of two
  positive words lies strictly between zero and infinity.
-/

namespace HotLoop.Float

/-- A normal positive double: a 53-bit significand and an exponent inside the
range of the exponent field. -/
structure Binary.Normal (b : Binary) : Prop where
  pos : b.neg = false
  lo : 2 ^ 52 ≤ b.m
  hi : b.m < 2 ^ 53
  emin : minExp ≤ b.e
  emax : b.e ≤ maxExp

namespace Binary

/-! ## Rounding a ratio -/

theorem scaledDiv_of_nonpos {n d : Nat} {e : Int} (he : e ≤ 0) :
    scaledDiv n d e = (n * 2 ^ (-e).toNat / d, n * 2 ^ (-e).toNat % d, d) := by
  simp [scaledDiv, he, Nat.shiftLeft_eq]

theorem scaledDiv_of_pos {n d : Nat} {e : Int} (he : 0 < e) :
    scaledDiv n d e = (n / (d * 2 ^ e.toNat), n % (d * 2 ^ e.toNat), d * 2 ^ e.toNat) := by
  simp [scaledDiv, Int.not_le.mpr he, Nat.shiftLeft_eq]

/-- One more unit of exponent halves the quotient. -/
theorem scaledDiv_succ (n d : Nat) (e : Int) :
    (scaledDiv n d (e + 1)).1 = (scaledDiv n d e).1 / 2 := by
  rcases lt_trichotomy e 0 with he | rfl | he
  · rw [scaledDiv_of_nonpos (by omega), scaledDiv_of_nonpos he.le]
    obtain ⟨t, ht⟩ : ∃ t, (-e).toNat = t + 1 := ⟨(-e).toNat - 1, by omega⟩
    have ht' : (-(e + 1)).toNat = t := by omega
    simp only [ht, ht', Nat.div_div_eq_div_mul, pow_succ, ← Nat.mul_assoc]
    by_cases hd : d = 0
    · simp [hd]
    · exact (Nat.mul_div_mul_right _ _ (by norm_num)).symm
  · rw [scaledDiv_of_pos (by norm_num), scaledDiv_of_nonpos le_rfl]
    simp [Nat.div_div_eq_div_mul]
  · rw [scaledDiv_of_pos (by omega), scaledDiv_of_pos he]
    have : (e + 1).toNat = e.toNat + 1 := by omega
    simp only [this, pow_succ, Nat.div_div_eq_div_mul, Nat.mul_assoc]

/-- At the exponent guessed from the bit lengths, the quotient has 53 or 54
bits. -/
theorem scaledDiv_guess {n d : Nat} (hn : n ≠ 0) (hd : d ≠ 0) :
    2 ^ 52 ≤ (scaledDiv n d ((n.log2 : Int) - d.log2 - 53)).1 ∧
      (scaledDiv n d ((n.log2 : Int) - d.log2 - 53)).1 < 2 ^ 54 := by
  have hn1 := Nat.log2_self_le hn
  have hn2 := (Nat.lt_log2_self (n := n))
  have hd1 := Nat.log2_self_le hd
  have hd2 := (Nat.lt_log2_self (n := d))
  have hdpos : 0 < d := Nat.pos_of_ne_zero hd
  by_cases he : (n.log2 : Int) - d.log2 - 53 ≤ 0
  · -- the dividend is scaled up by `t` bits
    rw [scaledDiv_of_nonpos he]
    obtain ⟨t, ht, hsum⟩ : ∃ t, (-((n.log2 : Int) - d.log2 - 53)).toNat = t ∧
        n.log2 + t = d.log2 + 53 := ⟨_, rfl, by omega⟩
    rw [ht]
    constructor
    · rw [Nat.le_div_iff_mul_le hdpos]
      calc 2 ^ 52 * d ≤ 2 ^ 52 * 2 ^ (d.log2 + 1) := Nat.mul_le_mul_left _ hd2.le
        _ = 2 ^ n.log2 * 2 ^ t := by rw [← pow_add, ← pow_add]; congr 1; omega
        _ ≤ n * 2 ^ t := Nat.mul_le_mul_right _ hn1
    · rw [Nat.div_lt_iff_lt_mul hdpos]
      calc n * 2 ^ t < 2 ^ (n.log2 + 1) * 2 ^ t := Nat.mul_lt_mul_of_pos_right hn2 (by positivity)
        _ = 2 ^ 54 * 2 ^ d.log2 := by rw [← pow_add, ← pow_add]; congr 1; omega
        _ ≤ 2 ^ 54 * d := Nat.mul_le_mul_left _ hd1
  · -- the divisor is scaled up by `j` bits
    rw [scaledDiv_of_pos (by omega)]
    obtain ⟨j, hj, hsum⟩ : ∃ j, ((n.log2 : Int) - d.log2 - 53).toNat = j ∧
        n.log2 = d.log2 + 53 + j := ⟨_, rfl, by omega⟩
    rw [hj]
    have hden : 0 < d * 2 ^ j := by positivity
    constructor
    · rw [Nat.le_div_iff_mul_le hden]
      calc 2 ^ 52 * (d * 2 ^ j) ≤ 2 ^ 52 * (2 ^ (d.log2 + 1) * 2 ^ j) :=
            Nat.mul_le_mul_left _ (Nat.mul_le_mul_right _ hd2.le)
        _ = 2 ^ n.log2 := by rw [← pow_add, ← pow_add, hsum]; congr 1; omega
        _ ≤ n := hn1
    · rw [Nat.div_lt_iff_lt_mul hden]
      calc n < 2 ^ (n.log2 + 1) := hn2
        _ = 2 ^ 54 * (2 ^ d.log2 * 2 ^ j) := by rw [← pow_add, ← pow_add, hsum]; congr 1; omega
        _ ≤ 2 ^ 54 * (d * 2 ^ j) := Nat.mul_le_mul_left _ (Nat.mul_le_mul_right _ hd1)

theorem roundHalfEven_cases (q r den : Nat) :
    roundHalfEven q r den = q ∨ roundHalfEven q r den = q + 1 := by
  unfold roundHalfEven
  split <;> simp

/-- A ratio whose binary magnitude lies well inside the exponent range rounds
to a normal positive double, whose exponent the bit lengths fix to within
two. -/
theorem roundRatio_normal {n d : Nat} (hn : n ≠ 0) (hd : d ≠ 0)
    (hlo : minExp ≤ (n.log2 : Int) - d.log2 - 53) (hhi : (n.log2 : Int) - d.log2 - 51 ≤ maxExp) :
    ∃ b : Binary, b.Normal ∧ roundRatio false n d = b.toBits ∧
      (n.log2 : Int) - d.log2 - 53 ≤ b.e ∧ b.e ≤ (n.log2 : Int) - d.log2 - 51 := by
  obtain ⟨hq0lo, hq0hi⟩ := scaledDiv_guess hn hd
  set g : Int := (n.log2 : Int) - d.log2 - 53 with hg
  have he0 : max g minExp = g := max_eq_left hlo
  -- after the correction the quotient has exactly 53 bits
  obtain ⟨e, he, hqlo, hqhi, hge, hle⟩ : ∃ e,
      (if (scaledDiv n d g).1 ≥ Nat.pow 2 53 then g + 1 else g) = e ∧
      2 ^ 52 ≤ (scaledDiv n d e).1 ∧ (scaledDiv n d e).1 < 2 ^ 53 ∧ g ≤ e ∧ e ≤ g + 1 := by
    have h53 : Nat.pow 2 53 = 2 ^ 53 := rfl
    by_cases hbig : (scaledDiv n d g).1 ≥ Nat.pow 2 53
    · refine ⟨g + 1, if_pos hbig, ?_, ?_, by omega, le_rfl⟩ <;> rw [scaledDiv_succ] <;> omega
    · exact ⟨g, if_neg hbig, hq0lo, by omega, le_rfl, by omega⟩
  have hq' := roundHalfEven_cases (scaledDiv n d e).1 (scaledDiv n d e).2.1 (scaledDiv n d e).2.2
  unfold roundRatio
  simp only [hn, hd, or_self, if_false]
  rw [← hg, he0, he]
  generalize roundHalfEven (scaledDiv n d e).1 (scaledDiv n d e).2.1 (scaledDiv n d e).2.2 = q' at hq' ⊢
  have hmax : maxExp = 971 := rfl
  have hmin : minExp = -1074 := rfl
  have h53 : Nat.pow 2 53 = 2 ^ 53 := rfl
  have h52 : Nat.pow 2 52 = 2 ^ 52 := rfl
  rw [hmin] at hlo
  rw [hmax] at hhi ⊢
  by_cases hcarry : q' = Nat.pow 2 53
  · -- rounding carried into the next binade
    refine ⟨⟨false, Nat.pow 2 52, e + 1⟩, ⟨rfl, h52.ge, by rw [h52]; norm_num, ?_, ?_⟩, ?_, ?_, ?_⟩
    · show minExp ≤ e + 1
      rw [hmin]; omega
    · show e + 1 ≤ maxExp
      rw [hmax]; omega
    · simp only [hcarry, if_true, show ¬ e + 1 > 971 by omega, if_false]
    · show g ≤ e + 1
      omega
    · show e + 1 ≤ (n.log2 : Int) - d.log2 - 51
      omega
  · have hlt : q' < 2 ^ 53 := by omega
    refine ⟨⟨false, q', e⟩, ⟨rfl, ?_, hlt, ?_, ?_⟩, ?_, hge, ?_⟩
    · show 2 ^ 52 ≤ q'
      omega
    · show minExp ≤ e
      rw [hmin]; omega
    · show e ≤ maxExp
      rw [hmax]; omega
    · simp only [hcarry, if_false, show ¬ e > 971 by omega]
    · show e ≤ (n.log2 : Int) - d.log2 - 51
      omega

/-- A significand of 53 bits, scaled by `2^k`, has `53 + k` bits. -/
theorem log2_significand {m : Nat} (hlo : 2 ^ 52 ≤ m) (hhi : m < 2 ^ 53) (k : Nat) :
    (m * 2 ^ k).log2 = 52 + k := by
  have hpos : m * 2 ^ k ≠ 0 := by positivity
  apply le_antisymm
  · rw [← Nat.lt_succ_iff, Nat.log2_lt hpos, show (52 + k).succ = 53 + k by omega, pow_add]
    exact Nat.mul_lt_mul_of_pos_right hhi (by positivity)
  · rw [Nat.le_log2 hpos, pow_add]
    exact Nat.mul_le_mul_right _ hlo

/-! ## The pattern of a normal double -/

section Normal

variable {b : Binary}

/-- The pattern of a normal double: the biased exponent above the 52 bits
of the fraction. -/
theorem toNat_toBits (h : b.Normal) :
    b.toBits.toNat = (b.e + 1075).toNat * 2 ^ 52 + (b.m - 2 ^ 52) := by
  have hE : (b.e + 1075).toNat < 2047 := by have := h.emax; have : maxExp = 971 := rfl; omega
  have hf : b.m - 2 ^ 52 < 2 ^ 52 := by have := h.hi; omega
  have hlt : ¬ b.m < Nat.pow 2 fracBits := not_lt.mpr h.lo
  simp only [toBits, h.pos, hlt, if_false, Bool.false_eq_true, UInt64.zero_or]
  rw [UInt64.toNat_or, UInt64.toNat_shiftLeft, UInt64.toNat_ofNat', UInt64.toNat_ofNat',
    Nat.mod_eq_of_lt (by omega : (b.e + 1075).toNat < 2 ^ 64),
    Nat.mod_eq_of_lt (by omega : b.m - Nat.pow 2 fracBits < 2 ^ 64)]
  have h52 : (52 : UInt64).toNat % 64 = 52 := rfl
  have hfb : Nat.pow 2 fracBits = 2 ^ 52 := rfl
  have hsh : (b.e + 1075).toNat <<< 52 % 2 ^ 64 = (b.e + 1075).toNat <<< 52 :=
    Nat.mod_eq_of_lt (by rw [Nat.shiftLeft_eq]; omega)
  rw [h52, hfb, hsh, ← Nat.shiftLeft_add_eq_or_of_lt hf, Nat.shiftLeft_eq]

/-- The biased exponent lies strictly between the fields of the subnormals
and of the infinities. -/
theorem biased_bounds (h : b.Normal) : 1 ≤ (b.e + 1075).toNat ∧ (b.e + 1075).toNat < 2047 := by
  have := h.emin
  have := h.emax
  have : minExp = -1074 := rfl
  have : maxExp = 971 := rfl
  omega

theorem signOf_toBits (h : b.Normal) : signOf b.toBits = false := by
  have ht := toNat_toBits h
  have hE := (biased_bounds h).2
  have hf : b.m - 2 ^ 52 < 2 ^ 52 := by have := h.hi; omega
  simp only [signOf, beq_eq_false_iff_ne, ne_eq]
  intro h1
  have := congrArg UInt64.toNat h1
  rw [UInt64.toNat_shiftRight, ht, show (63 : UInt64).toNat % 64 = 63 from rfl,
    Nat.shiftRight_eq_div_pow] at this
  simp at this
  omega

/-- A normal double decodes to its own significand and exponent. -/
theorem ofBits_toBits (h : b.Normal) : Binary.ofBits b.toBits = .finite b := by
  have ht := toNat_toBits h
  obtain ⟨hE1, hE⟩ := biased_bounds h
  have hf : b.m - 2 ^ 52 < 2 ^ 52 := by have := h.hi; omega
  have hexp : expField b.toBits = (b.e + 1075).toNat := by
    simp only [expField, UInt64.toNat_and, UInt64.toNat_shiftRight, ht]
    rw [show (0x7ff : UInt64).toNat = 2 ^ 11 - 1 from rfl, Nat.and_two_pow_sub_one_eq_mod,
      show (52 : UInt64).toNat % 64 = 52 from rfl, Nat.shiftRight_eq_div_pow]
    omega
  have hfrac : fracField b.toBits = b.m - 2 ^ 52 := by
    simp only [fracField, UInt64.toNat_and, ht]
    rw [show (0xfffffffffffff : UInt64).toNat = 2 ^ 52 - 1 from rfl, Nat.and_two_pow_sub_one_eq_mod]
    omega
  simp only [ofBits, hexp, hfrac, signOf_toBits h, beq_iff_eq,
    show (b.e + 1075).toNat ≠ 2047 by omega, show (b.e + 1075).toNat ≠ 0 by omega, if_false]
  have hm : b.m - 2 ^ 52 + Nat.pow 2 fracBits = b.m := by
    have : Nat.pow 2 fracBits = 2 ^ 52 := rfl
    have := h.lo
    omega
  have he : ((b.e + 1075).toNat : Int) - 1075 = b.e := by omega
  rw [hm, he, ← h.pos]

end Normal

end Binary

end HotLoop.Float

namespace HotLoop.Double

open HotLoop.Float

section Normal

variable {b : Binary}

/-- A normal double is a number. -/
theorem isNaN_normal (h : b.Normal) : (⟨b.toBits⟩ : Double).isNaN = false := by
  have ht := Binary.toNat_toBits h
  have hE := (Binary.biased_bounds h).2
  have hf : b.m - 2 ^ 52 < 2 ^ 52 := by have := h.hi; omega
  have hexp : ((b.toBits >>> 52) &&& 0x7ff).toNat = (b.e + 1075).toNat := by
    rw [UInt64.toNat_and, UInt64.toNat_shiftRight, ht, show (0x7ff : UInt64).toNat = 2 ^ 11 - 1 from rfl,
      Nat.and_two_pow_sub_one_eq_mod, show (52 : UInt64).toNat % 64 = 52 from rfl,
      Nat.shiftRight_eq_div_pow]
    omega
  simp only [isNaN, Bool.and_eq_false_iff, beq_eq_false_iff_ne]
  left
  intro h1
  have := congrArg UInt64.toNat h1
  rw [hexp] at this
  simp at this
  omega

/-- The rank of a normal positive double is its pattern. -/
theorem rank_normal (h : b.Normal) : (⟨b.toBits⟩ : Double).rank = b.toBits.toNat := by
  have ht := Binary.toNat_toBits h
  have hE := (Binary.biased_bounds h).2
  have hf : b.m - 2 ^ 52 < 2 ^ 52 := by have := h.hi; omega
  have hsign : ¬ b.toBits >>> 63 = 1 := by
    intro h1
    have := congrArg UInt64.toNat h1
    rw [UInt64.toNat_shiftRight, ht, show (63 : UInt64).toNat % 64 = 63 from rfl,
      Nat.shiftRight_eq_div_pow] at this
    simp at this
    omega
  simp only [rank, hsign, if_false]
  rw [UInt64.toNat_and, show (0x7fffffffffffffff : UInt64).toNat = 2 ^ 63 - 1 from rfl,
    Nat.and_two_pow_sub_one_eq_mod, Nat.mod_eq_of_lt (by omega)]

/-- A normal positive double lies strictly between zero and infinity. -/
theorem pos_finite_normal (h : b.Normal) :
    Double.lt ⟨0⟩ ⟨b.toBits⟩ = true ∧ Double.lt ⟨b.toBits⟩ ⟨infBits false⟩ = true := by
  have ht := Binary.toNat_toBits h
  obtain ⟨hE1, hE⟩ := Binary.biased_bounds h
  have hf : b.m - 2 ^ 52 < 2 ^ 52 := by have := h.hi; omega
  have h0 : (⟨0⟩ : Double).isNaN = false ∧ (⟨0⟩ : Double).rank = 0 := by decide
  have hinf : (⟨infBits false⟩ : Double).isNaN = false ∧
      (⟨infBits false⟩ : Double).rank = 0x7ff0000000000000 := by decide
  simp only [lt, isNaN_normal h, rank_normal h, h0, hinf, ht, Bool.not_false, Bool.true_and,
    decide_eq_true_eq]
  omega

end Normal

/-! ## Comparison

Doubles that are numbers compare by rank, so `lt` is a strict order and
`numEq` an equivalence that `lt` respects; a NaN is comparable to nothing. -/

section Comparison

variable {a b c : Double}

theorem lt_iff : a.lt b = true ↔ a.isNaN = false ∧ b.isNaN = false ∧ a.rank < b.rank := by
  simp [lt, and_assoc]

theorem numEq_iff : a.numEq b = true ↔ a.isNaN = false ∧ b.isNaN = false ∧ a.rank = b.rank := by
  simp [numEq, and_assoc]

theorem lt_irrefl (a : Double) : a.lt a = false := by
  simp [lt]

theorem lt_asymm (h : a.lt b = true) : b.lt a = false := by
  rw [lt_iff] at h
  simp only [lt, Bool.and_eq_false_iff, decide_eq_false_iff_not, not_lt]
  exact .inr h.2.2.le

theorem lt_trans (h₁ : a.lt b = true) (h₂ : b.lt c = true) : a.lt c = true := by
  rw [lt_iff] at *
  exact ⟨h₁.1, h₂.2.1, h₁.2.2.trans h₂.2.2⟩

theorem numEq_symm (h : a.numEq b = true) : b.numEq a = true := by
  rw [numEq_iff] at *
  exact ⟨h.2.1, h.1, h.2.2.symm⟩

theorem numEq_trans (h₁ : a.numEq b = true) (h₂ : b.numEq c = true) : a.numEq c = true := by
  rw [numEq_iff] at *
  exact ⟨h₁.1, h₂.2.1, h₁.2.2.trans h₂.2.2⟩

theorem lt_of_lt_of_numEq (h₁ : a.lt b = true) (h₂ : b.numEq c = true) : a.lt c = true := by
  rw [lt_iff] at *
  rw [numEq_iff] at h₂
  exact ⟨h₁.1, h₂.2.1, h₂.2.2 ▸ h₁.2.2⟩

theorem lt_of_numEq_of_lt (h₁ : a.numEq b = true) (h₂ : b.lt c = true) : a.lt c = true := by
  rw [lt_iff] at *
  rw [numEq_iff] at h₁
  exact ⟨h₁.1, h₂.2.1, h₁.2.2 ▸ h₂.2.2⟩

theorem lt_false_of_numEq (h : a.numEq b = true) : b.lt a = false := by
  rw [numEq_iff] at h
  simp [lt, h.2.2]

/-- Two numbers are ordered one way or the other, or equal. -/
theorem lt_trichotomy (ha : a.isNaN = false) (hb : b.isNaN = false) :
    a.lt b = true ∨ a.numEq b = true ∨ b.lt a = true := by
  simp only [lt_iff, numEq_iff, ha, hb, true_and]
  omega

/-- Only numbers compare. -/
theorem isNaN_of_lt (h : a.lt b = true) : a.isNaN = false ∧ b.isNaN = false :=
  ⟨(lt_iff.mp h).1, (lt_iff.mp h).2.1⟩

end Comparison

/-! ## Quotients -/

/-- The quotient of two normal doubles whose exponents are close is normal. -/
theorem div_normal {x y : Binary} (hx : x.Normal) (hy : y.Normal)
    (hlo : minExp ≤ x.e - y.e - 53) (hhi : x.e - y.e - 51 ≤ maxExp) :
    ∃ b : Binary, b.Normal ∧ Double.div ⟨x.toBits⟩ ⟨y.toBits⟩ = ⟨b.toBits⟩ := by
  have hlx : x.m.log2 = 52 := by simpa using Binary.log2_significand hx.lo hx.hi 0
  have hly : y.m.log2 = 52 := by simpa using Binary.log2_significand hy.lo hy.hi 0
  have hxm : x.m ≠ 0 := by have := hx.lo; omega
  have hym : y.m ≠ 0 := by have := hy.lo; omega
  simp only [div, isNaN_normal hx, isNaN_normal hy, Binary.ofBits_toBits hx, Binary.ofBits_toBits hy,
    Binary.signOf_toBits hx, Binary.signOf_toBits hy, hym, Bool.false_eq_true, if_false,
    bne_self_eq_false, Nat.shiftLeft_eq]
  split
  · -- the divisor carries the difference of the exponents
    rename_i hle
    have hlog : (y.m * 2 ^ (y.e - x.e).toNat).log2 = 52 + (y.e - x.e).toNat :=
      Binary.log2_significand hy.lo hy.hi _
    obtain ⟨b, hb, heq, -⟩ := Binary.roundRatio_normal (n := x.m) (d := y.m * 2 ^ (y.e - x.e).toNat)
      hxm (Nat.mul_ne_zero hym (by positivity)) (by rw [hlx, hlog]; omega) (by rw [hlx, hlog]; omega)
    exact ⟨b, hb, by rw [heq]⟩
  · -- the dividend carries it
    rename_i hgt
    have hlog : (x.m * 2 ^ (x.e - y.e).toNat).log2 = 52 + (x.e - y.e).toNat :=
      Binary.log2_significand hx.lo hx.hi _
    obtain ⟨b, hb, heq, -⟩ := Binary.roundRatio_normal (n := x.m * 2 ^ (x.e - y.e).toNat) (d := y.m)
      (Nat.mul_ne_zero hxm (by positivity)) hym (by rw [hly, hlog]; omega) (by rw [hly, hlog]; omega)
    exact ⟨b, hb, by rw [heq]⟩

/-- The double of a positive word is normal, with the exponent its bit
length gives. -/
theorem ofUInt64_normal {p : Nat} (hp : 0 < p) (hp64 : p < 2 ^ 64) :
    ∃ b : Binary, b.Normal ∧ ofUInt64 p.toUInt64 = ⟨b.toBits⟩ ∧
      (p.log2 : Int) - 53 ≤ b.e ∧ b.e ≤ (p.log2 : Int) - 51 := by
  have hlog : p.log2 < 64 := (Nat.log2_lt (by omega)).mpr hp64
  have htoNat : p.toUInt64.toNat = p := by
    rw [Nat.toUInt64_eq, UInt64.toNat_ofNat', Nat.mod_eq_of_lt hp64]
  have hl1 : (1 : Nat).log2 = 0 := by decide
  obtain ⟨b, hb, heq, hlo, hhi⟩ := Binary.roundRatio_normal (n := p) (d := 1) (by omega) one_ne_zero
    (by rw [hl1]; show -1074 ≤ _; omega) (by rw [hl1]; show _ ≤ (971 : Int); omega)
  rw [hl1, Nat.cast_zero, sub_zero] at hlo hhi
  refine ⟨b, hb, ?_, hlo, hhi⟩
  simp only [ofUInt64, htoNat, heq]

/-- The quotient of the doubles of two positive words lies strictly between
zero and infinity. -/
theorem div_ofUInt64_pos_finite {p q : Nat} (hp : 0 < p) (hp64 : p < 2 ^ 64)
    (hq : 0 < q) (hq64 : q < 2 ^ 64) :
    Double.lt ⟨0⟩ (Double.div (ofUInt64 p.toUInt64) (ofUInt64 q.toUInt64)) = true ∧
      Double.lt (Double.div (ofUInt64 p.toUInt64) (ofUInt64 q.toUInt64)) ⟨infBits false⟩ = true := by
  obtain ⟨x, hx, hpx, hxlo, hxhi⟩ := ofUInt64_normal hp hp64
  obtain ⟨y, hy, hqy, hylo, hyhi⟩ := ofUInt64_normal hq hq64
  have hlp : p.log2 < 64 := (Nat.log2_lt (by omega)).mpr hp64
  have hlq : q.log2 < 64 := (Nat.log2_lt (by omega)).mpr hq64
  obtain ⟨b, hb, hdiv⟩ := div_normal hx hy
    (by show -1074 ≤ _; omega) (by show _ ≤ (971 : Int); omega)
  rw [hpx, hqy, hdiv]
  exact pos_finite_normal hb

end HotLoop.Double
