import Mathlib
import HotLoop.Memory.Arena
import HotLoop.Proofs.Memory.Word
/-!
# HotLoop.Proofs.Memory.Arena

The arena as a store of 8-byte words. A word written at an offset inside the
buffer reads back as written, and a write leaves every word whose bytes it
does not touch as it was. Allocation hands out a region at or above the old
top that fits in the (possibly grown) buffer and keeps every word below the
old top; releasing moves the top only. A buffer too small for a request
grows by the fewest doublings that hold it, capped at the ceiling
(`grownSize_doubles`).

These are the laws loop frames rely on when their slots live in the arena.
-/

namespace HotLoop

/-! ## Bytes -/

private theorem get!_set!_of_ne (b : ByteArray) {i j : Nat} (x : UInt8) (h : i ≠ j) :
    (b.set! i x).get! j = b.get! j := by
  obtain ⟨data⟩ := b
  simp only [ByteArray.get!, ByteArray.set!, Array.set!_eq_setIfInBounds]
  by_cases hj : j < data.size
  · have hj' : j < (data.setIfInBounds i x).size := by simpa using hj
    rw [getElem!_pos (data.setIfInBounds i x) j hj', getElem!_pos data j hj,
      Array.getElem_setIfInBounds hj, if_neg h]
  · have hj' : ¬ j < (data.setIfInBounds i x).size := by simpa using hj
    rw [getElem!_neg (data.setIfInBounds i x) j hj', getElem!_neg data j hj]

private theorem get!_set!_self (b : ByteArray) {i : Nat} (x : UInt8) (h : i < b.size) :
    (b.set! i x).get! i = x := by
  obtain ⟨data⟩ := b
  simp only [ByteArray.get!, ByteArray.set!, Array.set!_eq_setIfInBounds]
  have hd : i < data.size := h
  have hi : i < (data.setIfInBounds i x).size := by simpa using hd
  rw [getElem!_pos (data.setIfInBounds i x) i hi, Array.getElem_setIfInBounds hd, if_pos rfl]

private theorem get!_append_left (b c : ByteArray) {i : Nat} (h : i < b.size) :
    (b ++ c).get! i = b.get! i := by
  obtain ⟨d⟩ := b
  obtain ⟨e⟩ := c
  have hd : i < d.size := h
  show (ByteArray.append ⟨d⟩ ⟨e⟩).data[i]! = d[i]!
  have h' : i < (ByteArray.append ⟨d⟩ ⟨e⟩).data.size := by
    simp only [ByteArray.append, List.size_toArray, List.length_append, Array.length_toList]; omega
  rw [getElem!_pos (ByteArray.append ⟨d⟩ ⟨e⟩).data i h', getElem!_pos d i hd]
  simp only [ByteArray.append, List.getElem_toArray]
  rw [List.getElem_append_left (by simpa using hd)]
  simp

/-- Padding a buffer with zeros up to `n` bytes makes it `n` bytes long. -/
theorem size_append_zeros (b : ByteArray) {n : Nat} (h : b.size ≤ n) :
    (b ++ ByteArray.mk (Array.replicate (n - b.size) 0)).size = n := by
  rw [ByteArray.size_append]
  show b.size + (Array.replicate (n - b.size) (0 : UInt8)).size = n
  rw [Array.size_replicate]
  omega

/-- Writing bytes at `off + k` for each `k` of a list. -/
private def writeAt (b : ByteArray) (off : Nat) (g : Nat → UInt8) (ks : List Nat) : ByteArray :=
  ks.foldl (fun b k => b.set! (off + k) (g k)) b

private theorem writeAt_cons (b : ByteArray) (off : Nat) (g : Nat → UInt8) (k : Nat) (ks : List Nat) :
    writeAt b off g (k :: ks) = writeAt (b.set! (off + k) (g k)) off g ks := rfl

@[simp] private theorem size_writeAt (b : ByteArray) (off : Nat) (g : Nat → UInt8) (ks : List Nat) :
    (writeAt b off g ks).size = b.size := by
  induction ks generalizing b with
  | nil => rfl
  | cons k ks ih => rw [writeAt_cons, ih, ByteArray.size_set!]

private theorem get!_writeAt_of_not_mem (b : ByteArray) (off : Nat) (g : Nat → UInt8)
    (ks : List Nat) {j : Nat} (h : ∀ k ∈ ks, off + k ≠ j) :
    (writeAt b off g ks).get! j = b.get! j := by
  induction ks generalizing b with
  | nil => rfl
  | cons k ks ih =>
    rw [writeAt_cons, ih _ fun k' hk' => h k' (List.mem_cons_of_mem _ hk'),
      get!_set!_of_ne _ _ (h k List.mem_cons_self)]

private theorem get!_writeAt_of_mem (b : ByteArray) (off : Nat) (g : Nat → UInt8)
    {ks : List Nat} {k : Nat} (hk : k ∈ ks) (hin : ∀ k ∈ ks, off + k < b.size) :
    (writeAt b off g ks).get! (off + k) = g k := by
  induction ks generalizing b with
  | nil => cases hk
  | cons k' ks ih =>
    rw [writeAt_cons]
    by_cases hks : k ∈ ks
    · exact ih _ hks fun k'' hk'' => by
        rw [ByteArray.size_set!]; exact hin k'' (List.mem_cons_of_mem _ hk'')
    · -- the last write at `off + k` is the head's
      have hk' : k = k' := by simpa [hks] using hk
      subst hk'
      rw [get!_writeAt_of_not_mem _ _ _ _ fun k'' hk'' he => hks (by rwa [show k = k'' by omega]),
        get!_set!_self _ _ (hin k List.mem_cons_self)]

/-! ## Words -/

/-- Reading back the eight bytes of a word gives the word. -/
private theorem foldr_bytes (w : UInt64) :
    (List.range 8).foldr
      (fun k (acc : UInt64) => (acc <<< 8) ||| ((w >>> (8 * k).toUInt64).toUInt8).toUInt64) 0 = w := by
  apply UInt64.toNat_inj.mp
  rw [foldr_or_bytes_toNat _ _ (by simp), ofDigits_bytes]

namespace Arena

variable {a : Arena} {off : Nat} {w : UInt64}

private theorem putWord_eq (h : off + 8 ≤ a.size) :
    a.putWord off w =
      { a with bytes := writeAt a.bytes off (fun k => (w >>> (8 * k).toUInt64).toUInt8) (List.range 8) } := by
  simp only [putWord, putWord?, if_pos h, Option.getD_some, writeAt]

/-- The word at `off` is read from the eight bytes there. -/
private theorem word_of_bytes {a : Arena} {off : Nat} (g : Nat → UInt8) (h : off + 8 ≤ a.size)
    (hb : ∀ k < 8, a.bytes.get! (off + k) = g k) :
    a.word off = (List.range 8).foldr (fun k (acc : UInt64) => (acc <<< 8) ||| (g k).toUInt64) 0 := by
  simp only [word, word?, if_pos h, Option.getD_some, List.range_succ, List.range_zero,
    List.nil_append, List.cons_append, List.foldr_cons, List.foldr_nil]
  rw [hb 0 (by omega), hb 1 (by omega), hb 2 (by omega), hb 3 (by omega), hb 4 (by omega),
    hb 5 (by omega), hb 6 (by omega), hb 7 (by omega)]

/-- Two buffers of one size with the same eight bytes at `off` hold the same
word there. -/
theorem word_congr {a a' : Arena} (off : Nat) (hs : off + 8 ≤ a'.size ↔ off + 8 ≤ a.size)
    (hb : ∀ k < 8, a'.bytes.get! (off + k) = a.bytes.get! (off + k)) :
    a'.word off = a.word off := by
  by_cases h : off + 8 ≤ a.size
  · rw [word_of_bytes _ (hs.mpr h) hb, word_of_bytes _ h fun _ _ => rfl]
  · have h' : ¬ off + 8 ≤ a'.size := fun h' => h (hs.mp h')
    simp only [word, word?, if_neg h, if_neg h', Option.getD_none]

@[simp] theorem size_putWord : (a.putWord off w).size = a.size := by
  by_cases h : off + 8 ≤ a.size
  · rw [putWord_eq h]
    exact size_writeAt ..
  · simp only [putWord, putWord?, if_neg h, Option.getD_none]

/-- A word written inside the buffer reads back. -/
theorem word_putWord_self (h : off + 8 ≤ a.size) : (a.putWord off w).word off = w := by
  have hin : ∀ k ∈ List.range 8, off + k < a.bytes.size := fun k hk => by
    have := List.mem_range.mp hk
    simp only [size] at h
    omega
  have h' : off + 8 ≤ (a.putWord off w).size := by rw [size_putWord]; exact h
  -- each byte read is the byte written
  rw [word_of_bytes (fun k => (w >>> (8 * k).toUInt64).toUInt8) h', foldr_bytes]
  intro k hk
  rw [putWord_eq h]
  exact get!_writeAt_of_mem _ _ _ (List.mem_range.mpr hk) hin

/-- A write leaves the words whose bytes it does not touch. -/
theorem word_putWord_of_disjoint {off' : Nat} (h : off' + 8 ≤ off ∨ off + 8 ≤ off') :
    (a.putWord off w).word off' = a.word off' := by
  by_cases hin : off + 8 ≤ a.size
  · apply word_congr off' (by rw [size_putWord])
    intro k hk
    rw [putWord_eq hin]
    apply get!_writeAt_of_not_mem
    intro k' hk'
    have := List.mem_range.mp hk'
    omega
  · simp only [putWord, putWord?, if_neg hin, Option.getD_none]

@[simp] theorem size_release (m : Int) : (a.release m).size = a.size := by
  unfold release; split <;> rfl

@[simp] theorem word_release (m : Int) : (a.release m).word off = a.word off := by
  unfold release; split <;> rfl

/-! ## Buffers that agree on some bytes -/

/-- Eight bytes read as a word give back each byte. -/
private theorem byte_foldr (g : Nat → UInt8) {k : Nat} (hk : k < 8) :
    (((List.range 8).foldr (fun k (acc : UInt64) => (acc <<< 8) ||| (g k).toUInt64) 0) >>>
      (8 * k).toUInt64).toUInt8 = g k := by
  apply UInt8.toNat_inj.mp
  have hdigits : ∀ d ∈ (List.range 8).map fun k => (g k).toNat, d < 256 := by
    simp only [List.mem_map]
    rintro _ ⟨j, -, rfl⟩
    exact (g j).toNat_lt
  rw [byte_toNat _ hk, foldr_or_bytes_toNat _ _ (by simp),
    ofDigits_div_pow_mod hdigits (by simpa using hk), List.getElem_map, List.getElem_range]

/-- A word inside the buffer is made of the bytes there. -/
theorem byte_word (h : off + 8 ≤ a.size) {k : Nat} (hk : k < 8) :
    ((a.word off) >>> (8 * k).toUInt64).toUInt8 = a.bytes.get! (off + k) := by
  rw [word_of_bytes (fun k => a.bytes.get! (off + k)) h fun _ _ => rfl]
  exact byte_foldr _ hk

/-- A write inside the buffer puts the bytes of its word. -/
theorem get!_putWord_of_lt (h : off + 8 ≤ a.size) {k : Nat} (hk : k < 8) :
    (a.putWord off w).bytes.get! (off + k) = (w >>> (8 * k).toUInt64).toUInt8 := by
  have hin : ∀ k ∈ List.range 8, off + k < a.bytes.size := fun k hk => by
    have := List.mem_range.mp hk
    simp only [size] at h
    omega
  rw [putWord_eq h]
  exact get!_writeAt_of_mem _ _ _ (List.mem_range.mpr hk) hin

theorem get!_putWord_of_outside {i : Nat} (hi : i < off ∨ off + 8 ≤ i) :
    (a.putWord off w).bytes.get! i = a.bytes.get! i := by
  by_cases hin : off + 8 ≤ a.size
  · rw [putWord_eq hin]
    apply get!_writeAt_of_not_mem
    intro k hk
    have := List.mem_range.mp hk
    omega
  · simp only [putWord, putWord?, if_neg hin, Option.getD_none]

/-- A write changes the bytes only. -/
theorem putWord_rest (b : ByteArray) : { a.putWord off w with bytes := b } = { a with bytes := b } := by
  by_cases hin : off + 8 ≤ a.size
  · rw [putWord_eq hin]
  · simp only [putWord, putWord?, if_neg hin, Option.getD_none]

/-- `a'` is `a` but for its bytes outside the indices `Q`: the same buffer
length and bookkeeping, and the same bytes at `Q`. -/
structure Agree (Q : Nat → Prop) (a a' : Arena) : Prop where
  rest : ∀ b, { a' with bytes := b } = { a with bytes := b }
  size : a'.size = a.size
  bytes : ∀ i, Q i → a'.bytes.get! i = a.bytes.get! i

namespace Agree

variable {Q Q' : Nat → Prop} {a' : Arena}

theorem refl (Q : Nat → Prop) (a : Arena) : Agree Q a a := ⟨fun _ => rfl, rfl, fun _ _ => rfl⟩

theorem mono (h : Agree Q a a') (hQ : ∀ i, Q' i → Q i) : Agree Q' a a' :=
  ⟨h.rest, h.size, fun i hi => h.bytes i (hQ i hi)⟩

/-- The same write keeps two buffers agreeing. -/
theorem putWord (h : Agree Q a a') (off : Nat) (w : UInt64) :
    Agree Q (a.putWord off w) (a'.putWord off w) where
  rest b := by rw [putWord_rest, putWord_rest, h.rest]
  size := by rw [size_putWord, size_putWord, h.size]
  bytes i hi := by
    by_cases hin : off ≤ i ∧ i < off + 8
    · obtain ⟨k, rfl⟩ : ∃ k, i = off + k := ⟨i - off, by omega⟩
      by_cases hsz : off + 8 ≤ a.size
      · rw [get!_putWord_of_lt hsz (by omega), get!_putWord_of_lt (h.size ▸ hsz) (by omega)]
      · have hsz' : ¬ off + 8 ≤ a'.size := by rw [h.size]; exact hsz
        simp only [Arena.putWord, putWord?, if_neg hsz, if_neg hsz', Option.getD_none]
        exact h.bytes _ hi
    · rw [get!_putWord_of_outside (by omega), get!_putWord_of_outside (by omega)]
      exact h.bytes i hi

/-- A write into the second buffer at bytes outside `Q` keeps the two agreeing
on `Q`. -/
theorem putWord_right (h : Agree Q a a') (hQ : ∀ i, Q i → i < off ∨ off + 8 ≤ i) :
    Agree Q a (a'.putWord off w) where
  rest b := by rw [putWord_rest, h.rest]
  size := by rw [size_putWord, h.size]
  bytes i hi := by rw [get!_putWord_of_outside (hQ i hi)]; exact h.bytes i hi

/-- A word whose bytes agree reads alike. -/
theorem word (h : Agree Q a a') (hQ : ∀ k < 8, Q (off + k)) : a'.word off = a.word off :=
  word_congr off (by rw [h.size]) fun k hk => h.bytes _ (hQ k hk)

/-- Buffers that agree on every byte are equal. -/
theorem eq (h : Agree (fun _ => True) a a') : a' = a := by
  have hbytes : a'.bytes = a.bytes := by
    apply ByteArray.ext
    apply Array.ext h.size
    intro i hi hi'
    have := h.bytes i trivial
    simp only [ByteArray.get!, getElem!_pos a'.bytes.data i hi, getElem!_pos a.bytes.data i hi'] at this
    exact this
  calc a' = { a with bytes := a'.bytes } := h.rest a'.bytes
    _ = a := by rw [hbytes]

end Agree

/-! ## Allocation -/

/-- Doubling a positive size at most `fuel` times stops at the first size
that holds the need, when one does. -/
theorem grownSize_go_spec (need : Nat) :
    ∀ fuel s, 0 < s → need ≤ s * 2 ^ fuel →
      ∃ k, grownSize.go need s fuel = s * 2 ^ k ∧ need ≤ s * 2 ^ k ∧
        (k = 0 ∨ s * 2 ^ (k - 1) < need)
  | 0, s, _, h => ⟨0, by simp [grownSize.go], by simpa using h, .inl rfl⟩
  | fuel + 1, s, hs, h => by
    unfold grownSize.go
    split
    · rename_i hlt
      obtain ⟨k, hgo, hneed, hmin⟩ :=
        grownSize_go_spec need fuel (2 * s) (by omega) (by rw [Nat.pow_succ] at h; linarith)
      have hk : s * 2 ^ (k + 1) = 2 * s * 2 ^ k := by ring
      refine ⟨k + 1, by rw [hgo, hk], by rw [hk]; exact hneed, .inr ?_⟩
      rw [Nat.add_sub_cancel]
      -- one doubling fewer than the call made was still too small
      cases k with
      | zero => simpa using hlt
      | succ j =>
        rcases hmin with h0 | hmin
        · exact absurd h0 (Nat.succ_ne_zero j)
        · rw [Nat.add_sub_cancel] at hmin
          rw [Nat.pow_succ]
          linarith
    · rename_i hge
      exact ⟨0, by simp, by simpa using Nat.le_of_not_lt hge, .inl rfl⟩

/-- A buffer too small for a need within a ceiling of at most `2 ^ 64`
grows by the fewest doublings that hold the need, capped at the ceiling. -/
theorem grownSize_doubles {s need ceiling : Nat} (hs : 0 < s) (hlt : s < need)
    (hneed : need ≤ ceiling) (hceil : ceiling ≤ 2 ^ 64) :
    ∃ k, 0 < k ∧ s * 2 ^ (k - 1) < need ∧ need ≤ s * 2 ^ k ∧
      grownSize s need ceiling = min (s * 2 ^ k) ceiling := by
  have hfuel : need ≤ s * 2 ^ 64 := by
    have : 1 * 2 ^ 64 ≤ s * 2 ^ 64 := Nat.mul_le_mul_right _ hs
    omega
  obtain ⟨k, hgo, hk, hmin⟩ := grownSize_go_spec need 64 s hs hfuel
  have hk0 : 0 < k := by
    rcases Nat.eq_zero_or_pos k with rfl | hpos
    · simp at hk
      omega
    · exact hpos
  refine ⟨k, hk0, hmin.resolve_left (by omega), hk, ?_⟩
  rw [grownSize, hgo]

/-- The grown buffer holds the need and stays within the ceiling. -/
theorem grownSize_bounds {s need ceiling : Nat} (hs : 0 < s) (hlt : s < need)
    (hneed : need ≤ ceiling) (hceil : ceiling ≤ 2 ^ 64) :
    need ≤ grownSize s need ceiling ∧ grownSize s need ceiling ≤ ceiling := by
  obtain ⟨k, -, -, hk, hg⟩ := grownSize_doubles hs hlt hneed hceil
  rw [hg]
  exact ⟨le_min hk hneed, min_le_right _ _⟩

/-- Room made for `stop` bytes: the buffer is at least that long and keeps
the bytes it had. -/
theorem makeRoom_spec {a a' : Arena} {stop : Nat} (h : a.makeRoom stop = .ok a')
    (hpos : 0 < a.size) (hceil : a.ceiling ≤ 2 ^ 64) :
    stop ≤ a'.size ∧ a.size ≤ a'.size ∧ ∀ i < a.size, a'.bytes.get! i = a.bytes.get! i := by
  unfold makeRoom at h
  split at h
  · split at h
    · cases h
    · rename_i hgt hle
      injection h with h
      subst h
      have hn := grownSize_bounds hpos hgt (by omega) hceil
      have hsz : (a.bytes ++ ByteArray.mk (Array.replicate (grownSize a.size stop a.ceiling - a.size) 0)).size
          = grownSize a.size stop a.ceiling :=
        size_append_zeros a.bytes (show a.size ≤ grownSize a.size stop a.ceiling by omega)
      show stop ≤ (a.bytes ++ _).size ∧ a.size ≤ (a.bytes ++ _).size ∧ _
      rw [hsz]
      exact ⟨hn.1, by omega, fun i hi => get!_append_left _ _ hi⟩
  · cases h
    exact ⟨by omega, le_refl _, fun _ _ => rfl⟩

/-- An allocation of `size` bytes aligned to 8 hands out a region at or above
the old top that lies inside the buffer, and keeps every word below the old
top. -/
theorem allocate_spec {size : Int} {a' : Arena} (h : a.allocate size 8 = .ok (off, a'))
    (hpos : 0 < a.size) (hceil : a.ceiling ≤ 2 ^ 64) (htop : a.top ≤ a.size) :
    a.top ≤ off ∧ off + size.toNat ≤ a'.size ∧ ∀ o, o + 8 ≤ a.top → a'.word o = a.word o := by
  have hpow : isPow2 8 = true := by decide
  simp only [allocate, hpow, Bool.not_true, Bool.false_eq_true, if_false] at h
  split at h
  · cases h
  · rename_i a₁ hroom
    injection h with h
    obtain ⟨rfl, rfl⟩ := Prod.mk.inj h
    obtain ⟨hstop, hgrow, hkeep⟩ := makeRoom_spec hroom hpos hceil
    have hoff : a.top ≤ alignUp a.top (8 : Int).toNat := by
      have h8 : (8 : Int).toNat = 8 := rfl
      simp only [alignUp, h8]
      omega
    have hzero : ∀ stop, zeroRange a₁.bytes (alignUp a.top (8 : Int).toNat) stop =
        writeAt a₁.bytes (alignUp a.top (8 : Int).toNat) (fun _ => 0) (List.range (stop - alignUp a.top (8 : Int).toNat)) :=
      fun _ => rfl
    refine ⟨hoff, ?_, ?_⟩
    · show _ ≤ (zeroRange a₁.bytes _ _).size
      rw [hzero, size_writeAt]
      exact hstop
    · intro o ho
      -- the zeroed bytes start at or above the old top; growing keeps the old bytes
      apply word_congr o
      · show o + 8 ≤ (zeroRange a₁.bytes _ _).size ↔ _
        rw [hzero, size_writeAt]
        constructor
        · intro _; omega
        · intro _; exact le_trans (by omega) hgrow
      · intro k hk
        show (zeroRange a₁.bytes _ _).get! (o + k) = _
        rw [hzero, get!_writeAt_of_not_mem _ _ _ _ fun k' _ => by omega]
        exact hkeep (o + k) (by omega)

/-- Zeroing a range keeps the buffer's size. -/
@[simp] theorem size_zeroRange (b : ByteArray) (off stop : Nat) : (zeroRange b off stop).size = b.size :=
  size_writeAt _ _ _ _

/-- Zeroing a range leaves the bytes below it. -/
theorem get!_zeroRange_of_lt (b : ByteArray) {off stop i : Nat} (h : i < off) :
    (zeroRange b off stop).get! i = b.get! i :=
  get!_writeAt_of_not_mem _ _ _ _ fun _ _ => by omega

/-- Zeroing a range inside the buffer zeroes each of its bytes. -/
theorem get!_zeroRange (b : ByteArray) {off stop i : Nat} (hoff : off ≤ i) (hi : i < stop)
    (hstop : stop ≤ b.size) : (zeroRange b off stop).get! i = 0 := by
  have h := get!_writeAt_of_mem b off (fun _ => 0) (List.mem_range.mpr (show i - off < stop - off by omega))
    fun k hk => by have := List.mem_range.mp hk; omega
  rwa [Nat.add_sub_cancel' hoff] at h

/-- An allocation never shrinks the buffer. -/
theorem size_le_allocate {size : Int} {a' : Arena} (h : a.allocate size 8 = .ok (off, a'))
    (hpos : 0 < a.size) (hceil : a.ceiling ≤ 2 ^ 64) : a.size ≤ a'.size := by
  have hpow : isPow2 8 = true := by decide
  simp only [allocate, hpow, Bool.not_true, Bool.false_eq_true, if_false] at h
  split at h
  · cases h
  · rename_i a₁ hroom
    injection h with h
    obtain ⟨rfl, rfl⟩ := Prod.mk.inj h
    obtain ⟨-, hgrow, -⟩ := makeRoom_spec hroom hpos hceil
    show _ ≤ (writeAt a₁.bytes _ (fun _ => 0) _).size
    rw [size_writeAt]
    exact hgrow

end Arena

end HotLoop
