import Mathlib
import HotLoop.Proofs.Compile.Cache
import HotLoop.Proofs.Float.Ratio
/-!
# HotLoop.Proofs.Compile.Eviction

What the artifact cache keeps through any sequence of commands, and which
entry it evicts.

* `Cache.Before` is the eviction order: lower score first, then earlier
  insertion, then smaller fingerprint text. It is a strict order
  (`Before.irrefl`, `Before.asymm`, `Before.trans`), total on two entries
  whose scores are numbers and whose texts differ (`Before.total`).
* `Cache.victim?_minimal`: the scan for a victim ends on an entry before
  which no entry goes. When the order is total on the entries, that entry
  goes before every other (`Cache.least_of_minimal`), so the scan ends on it
  in whatever order it meets the entries (`Cache.victim?_perm`).
* `Fingerprint.text_inj`: fingerprints whose strategies are known ones have
  distinct texts, which is what makes the order total.
-/

namespace HotLoop

/-! ## Fingerprint texts -/

/-- The value of a lowercase hexadecimal digit. -/
def hexDigitValue (c : Char) : Nat := if c.toNat < 58 then c.toNat - 48 else c.toNat - 87

/-- The number that lowercase hexadecimal digits spell. -/
def hexValue (cs : List Char) : Nat := cs.foldl (fun acc c => 16 * acc + hexDigitValue c) 0

theorem hexDigitValue_digitChar : ∀ d : Fin 16, hexDigitValue (Nat.digitChar d) = d := by decide

theorem hexValue_append (l m : List Char) :
    hexValue (l ++ m) = m.foldl (fun acc c => 16 * acc + hexDigitValue c) (hexValue l) := by
  simp [hexValue, List.foldl_append]

/-- Leading zeros add nothing. -/
theorem foldl_hex_replicate_zero (k acc : Nat) :
    (List.replicate k '0').foldl (fun acc c => 16 * acc + hexDigitValue c) acc = 16 ^ k * acc := by
  induction k generalizing acc with
  | zero => simp
  | succ k ih =>
    rw [List.replicate_succ, List.foldl_cons, ih]
    have : hexDigitValue '0' = 0 := by decide
    rw [this, pow_succ]
    ring

theorem hexValue_toDigits (n : Nat) : hexValue (Nat.toDigits 16 n) = n := by
  induction n using Nat.base_induction 16 (by norm_num) with
  | single m hm =>
    rw [Nat.toDigits_of_lt_base hm]
    simpa [hexValue] using hexDigitValue_digitChar ⟨m, hm⟩
  | digit m k hk hm ih =>
    rw [← Nat.toDigits_append_toDigits (by norm_num) hm hk, Nat.toDigits_of_lt_base hk,
      hexValue_append, ih]
    simp only [List.foldl_cons, List.foldl_nil]
    rw [show hexDigitValue (Nat.digitChar k) = k from hexDigitValue_digitChar ⟨k, hk⟩]

theorem toList_hex16 (w : UInt64) :
    (hex16 w).toList =
      List.replicate (16 - (Nat.toDigits 16 w.toNat).length) '0' ++ Nat.toDigits 16 w.toNat := by
  simp [hex16]

/-- A hash is written with exactly 16 digits. -/
theorem length_hex16 (w : UInt64) : (hex16 w).toList.length = 16 := by
  have : (Nat.toDigits 16 w.toNat).length ≤ 16 :=
    (Nat.length_toDigits_le_iff (by norm_num) (by norm_num)).mpr (by simpa using w.toNat_lt)
  rw [toList_hex16, List.length_append, List.length_replicate]
  omega

theorem hexValue_hex16 (w : UInt64) : hexValue (hex16 w).toList = w.toNat := by
  rw [toList_hex16, hexValue_append]
  simp only [hexValue] at *
  rw [foldl_hex_replicate_zero, Nat.mul_zero]
  exact hexValue_toDigits w.toNat

theorem hex16_inj {v w : UInt64} (h : hex16 v = hex16 w) : v = w := by
  have := congrArg (fun s => hexValue s.toList) h
  simp only [hexValue_hex16] at this
  exact UInt64.toNat_inj.mp this

/-- Two lists that agree around the first occurrence of a separator agree
before it and after it. -/
theorem append_sep_inj {x : Char} :
    ∀ {a a' b b' : List Char}, x ∉ a → x ∉ a' → a ++ x :: b = a' ++ x :: b' → a = a' ∧ b = b'
  | [], [], _, _, _, _, h => ⟨rfl, by simpa using h⟩
  | [], c :: a', _, _, _, ha', h => by
    simp only [List.nil_append, List.cons_append, List.cons.injEq] at h
    exact absurd (h.1 ▸ List.mem_cons_self) ha'
  | c :: a, [], _, _, ha, _, h => by
    simp only [List.nil_append, List.cons_append, List.cons.injEq] at h
    exact absurd (h.1 ▸ List.mem_cons_self) ha
  | c :: a, c' :: a', _, _, ha, ha', h => by
    simp only [List.cons_append, List.cons.injEq] at h
    obtain ⟨rfl, h⟩ := h
    obtain ⟨rfl, rfl⟩ := append_sep_inj (fun hm => ha (List.mem_cons_of_mem _ hm))
      (fun hm => ha' (List.mem_cons_of_mem _ hm)) h
    exact ⟨rfl, rfl⟩

theorem slash_not_mem_kind (k : LoopKind) : '/' ∉ k.name.toList := by cases k <;> decide

theorem slash_not_mem_tier (t : Tier) : '/' ∉ t.name.toList := by cases t <;> decide

theorem LoopKind.name_inj {k k' : LoopKind} (h : k.name.toList = k'.name.toList) : k = k' := by
  cases k <;> cases k' <;> first | rfl | exact absurd h (by decide)

theorem Tier.name_inj {t t' : Tier} (h : t.name.toList = t'.name.toList) : t = t' := by
  cases t <;> cases t' <;> first | rfl | exact absurd h (by decide)

/-- The 32 sets of known strategies have 32 texts. -/
theorem StrategySet.text_inj_fin : ∀ a b : Fin 32,
    StrategySet.text ⟨a.val.toUInt32⟩ = StrategySet.text ⟨b.val.toUInt32⟩ → a = b := by
  -- compared as strings: the kernel decodes no character
  decide +kernel

theorem StrategySet.text_inj {s s' : StrategySet} (hs : s.code < 32) (hs' : s'.code < 32)
    (h : s.text.toList = s'.text.toList) : s = s' := by
  have := StrategySet.text_inj_fin ⟨s.code.toNat, by simpa [UInt32.lt_iff_toNat_lt] using hs⟩
    ⟨s'.code.toNat, by simpa [UInt32.lt_iff_toNat_lt] using hs'⟩ (by simpa using String.toList_inj.mp h)
  cases s
  cases s'
  simp only [Fin.mk.injEq] at this
  simp [UInt32.toNat_inj.mp this]

/-- Fingerprints whose strategies are known ones are told apart by their
texts: the hash has a fixed width, and no kind or tier name holds the
separator. -/
theorem Fingerprint.text_inj {f g : Fingerprint} (hf : f.strategies.code < 32)
    (hg : g.strategies.code < 32) (h : f.text = g.text) : f = g := by
  have hl := congrArg String.toList h
  have hslash : "/".toList = ['/'] := by decide
  simp only [Fingerprint.text, String.toList_append, hslash, List.append_assoc,
    List.singleton_append] at hl
  obtain ⟨hh, hl⟩ := List.append_inj hl (by rw [length_hex16, length_hex16])
  simp only [List.cons_append, List.cons.injEq, true_and] at hl
  obtain ⟨hk, hl⟩ := append_sep_inj (slash_not_mem_kind _) (slash_not_mem_kind _) hl
  obtain ⟨ht, hs⟩ := append_sep_inj (slash_not_mem_tier _) (slash_not_mem_tier _) hl
  cases f
  cases g
  simp only [Fingerprint.mk.injEq]
  exact ⟨hex16_inj (String.toList_inj.mp hh), LoopKind.name_inj hk, Tier.name_inj ht,
    StrategySet.text_inj hf hg hs⟩

namespace Cache

variable {α : Type}

/-! ## The eviction order -/

/-- Entry `a` goes before entry `b` when the cache evicts at tick `now`: a
lower score, or an equal score and an earlier insertion, or the same
insertion tick and a smaller fingerprint text. -/
def Before (now : Nat) (a b : Fingerprint × CacheEntry α) : Prop :=
  (score a.2 now).lt (score b.2 now) = true ∨
    ((score a.2 now).numEq (score b.2 now) = true ∧
      (a.2.inserted < b.2.inserted ∨ (a.2.inserted = b.2.inserted ∧ a.1.text < b.1.text)))

section Order

variable {now : Nat} {a b d : Fingerprint × CacheEntry α}

theorem older_iff : older a b = true ↔
    a.2.inserted < b.2.inserted ∨ (a.2.inserted = b.2.inserted ∧ a.1.text < b.1.text) := by
  unfold older
  by_cases h : a.2.inserted = b.2.inserted <;> simp [h]

theorem Before.irrefl (a : Fingerprint × CacheEntry α) : ¬ Before now a a := by
  rintro (h | ⟨-, h | ⟨-, h⟩⟩)
  · simp [Double.lt_irrefl] at h
  · exact Nat.lt_irrefl _ h
  · exact lt_irrefl _ h

theorem Before.asymm (h : Before now a b) : ¬ Before now b a := by
  rintro (h' | ⟨h', ht'⟩)
  · rcases h with h | ⟨h, -⟩
    · simp [Double.lt_asymm h] at h'
    · simp [Double.lt_false_of_numEq h] at h'
  · rcases h with h | ⟨-, ht⟩
    · simp [Double.lt_false_of_numEq h'] at h
    · rcases ht with ht | ⟨hi, ht⟩ <;> rcases ht' with ht' | ⟨hi', ht'⟩
      · omega
      · omega
      · omega
      · exact lt_asymm ht ht'

theorem Before.trans (h₁ : Before now a b) (h₂ : Before now b d) : Before now a d := by
  rcases h₁ with h₁ | ⟨h₁, t₁⟩ <;> rcases h₂ with h₂ | ⟨h₂, t₂⟩
  · exact .inl (Double.lt_trans h₁ h₂)
  · exact .inl (Double.lt_of_lt_of_numEq h₁ h₂)
  · exact .inl (Double.lt_of_numEq_of_lt h₁ h₂)
  · refine .inr ⟨Double.numEq_trans h₁ h₂, ?_⟩
    rcases t₁ with t₁ | ⟨i₁, t₁⟩ <;> rcases t₂ with t₂ | ⟨i₂, t₂⟩
    · exact .inl (by omega)
    · exact .inl (by omega)
    · exact .inl (by omega)
    · exact .inr ⟨i₁.trans i₂, lt_trans t₁ t₂⟩

/-- Two entries whose scores are numbers and whose texts differ are
ordered. -/
theorem Before.total (ha : (score a.2 now).isNaN = false) (hb : (score b.2 now).isNaN = false)
    (ht : a.1.text ≠ b.1.text) : Before now a b ∨ Before now b a := by
  rcases Double.lt_trichotomy ha hb with h | h | h
  · exact .inl (.inl h)
  · -- equal scores: the insertion ticks, then the texts decide
    rcases Nat.lt_trichotomy a.2.inserted b.2.inserted with hi | hi | hi
    · exact .inl (.inr ⟨h, .inl hi⟩)
    · rcases lt_or_gt_of_ne ht with ht | ht
      · exact .inl (.inr ⟨h, .inr ⟨hi, ht⟩⟩)
      · exact .inr (.inr ⟨Double.numEq_symm h, .inr ⟨hi.symm, ht⟩⟩)
    · exact .inr (.inr ⟨Double.numEq_symm h, .inl hi⟩)
  · exact .inr (.inl h)

end Order

/-! ## The scan for a victim -/

/-- One step of the scan `victim?` makes over the entries: keep the best
entry so far with its score, and take the next one when it goes before. -/
def pick (now : Nat) (best : Option (Fingerprint × CacheEntry α × Double))
    (e : Fingerprint × CacheEntry α) : Option (Fingerprint × CacheEntry α × Double) :=
  let s := score e.2 now
  match best with
  | none => some (e.1, e.2, s)
  | some (f, b, low) =>
    if s.lt low ∨ (s.numEq low ∧ older e (f, b)) then some (e.1, e.2, s) else best

theorem victim?_eq_foldl (c : Cache α) (now : Nat) :
    c.victim? now = (c.entries.foldl (pick now) none).map (·.1) := rfl

/-- The victim depends on the entries only. -/
theorem victim?_congr {c c' : Cache α} (h : c'.entries = c.entries) (now : Nat) :
    c'.victim? now = c.victim? now := by
  rw [victim?_eq_foldl, victim?_eq_foldl, h]

section Scan

variable {now : Nat} {e : Fingerprint × CacheEntry α} {f : Fingerprint} {b : CacheEntry α}

theorem pick_of_before (h : Before now e (f, b)) :
    pick now (some (f, b, score b now)) e = some (e.1, e.2, score e.2 now) := by
  simp only [pick]
  rw [if_pos]
  rcases h with h | ⟨h, ht⟩
  · exact .inl h
  · exact .inr ⟨h, older_iff.mpr ht⟩

theorem pick_of_not_before (h : ¬ Before now e (f, b)) :
    pick now (some (f, b, score b now)) e = some (f, b, score b now) := by
  simp only [pick]
  rw [if_neg]
  rintro (h' | ⟨h', ht⟩)
  · exact h (.inl h')
  · exact h (.inr ⟨h', older_iff.mp ht⟩)

/-- What the scan knows after the entries `seen`: nothing when it has seen
none, else the best entry among them with its score, before which none of
them goes. -/
def Scanned (now : Nat) (seen : List (Fingerprint × CacheEntry α)) :
    Option (Fingerprint × CacheEntry α × Double) → Prop
  | none => seen = []
  | some (f, b, s) => s = score b now ∧ (f, b) ∈ seen ∧ ∀ p ∈ seen, ¬ Before now p (f, b)

theorem scanned_none {seen : List (Fingerprint × CacheEntry α)} :
    Scanned now seen none ↔ seen = [] := Iff.rfl

theorem scanned_some {seen : List (Fingerprint × CacheEntry α)} {s : Double} :
    Scanned now seen (some (f, b, s)) ↔
      s = score b now ∧ (f, b) ∈ seen ∧ ∀ p ∈ seen, ¬ Before now p (f, b) := Iff.rfl

theorem pick_none : pick now none e = some (e.1, e.2, score e.2 now) := rfl

theorem scanned_pick {seen : List (Fingerprint × CacheEntry α)} {best}
    (h : Scanned now seen best) (e : Fingerprint × CacheEntry α) :
    Scanned now (seen ++ [e]) (pick now best e) := by
  obtain ⟨k, n⟩ := e
  cases best with
  | none =>
    rw [scanned_none] at h
    subst h
    rw [pick_none, scanned_some, List.nil_append]
    refine ⟨rfl, List.mem_singleton_self _, fun p hp => ?_⟩
    obtain rfl := List.mem_singleton.mp hp
    exact Before.irrefl _
  | some x =>
    obtain ⟨f, b, s⟩ := x
    obtain ⟨rfl, hmem, hmin⟩ := scanned_some.mp h
    by_cases hb : Before now (k, n) (f, b)
    · -- the new entry takes the lead: anything before it would go before the old best
      rw [pick_of_before hb, scanned_some]
      refine ⟨rfl, List.mem_append_right _ (List.mem_singleton_self _), fun p hp hpe => ?_⟩
      rcases List.mem_append.mp hp with hp | hp
      · exact hmin p hp (hpe.trans hb)
      · obtain rfl := List.mem_singleton.mp hp
        exact Before.irrefl _ hpe
    · rw [pick_of_not_before hb, scanned_some]
      refine ⟨rfl, List.mem_append_left _ hmem, fun p hp => ?_⟩
      rcases List.mem_append.mp hp with hp | hp
      · exact hmin p hp
      · obtain rfl := List.mem_singleton.mp hp
        exact hb

theorem scanned_foldl : ∀ (l seen : List (Fingerprint × CacheEntry α)) best,
    Scanned now seen best → Scanned now (seen ++ l) (l.foldl (pick now) best)
  | [], seen, best, h => by simpa using h
  | e :: l, seen, best, h => by
    simpa [List.foldl_cons, List.append_assoc] using scanned_foldl l (seen ++ [e]) _ (scanned_pick h e)

end Scan

section Victim

variable {c : Cache α} {now : Nat} {v k k' : Fingerprint} {es : List (Fingerprint × CacheEntry α)}

/-- The victim is an entry before which no entry goes. -/
theorem victim?_minimal (h : c.victim? now = some v) :
    ∃ e, (v, e) ∈ c.entries ∧ ∀ p ∈ c.entries, ¬ Before now p (v, e) := by
  rw [victim?_eq_foldl] at h
  obtain ⟨x, hx, rfl⟩ := Option.map_eq_some_iff.1 h
  have hs : Scanned now ([] ++ c.entries) _ := scanned_foldl c.entries [] none rfl
  rw [List.nil_append, hx] at hs
  obtain ⟨f, b, s⟩ := x
  exact ⟨b, hs.2.1, hs.2.2⟩

/-- Key `k` has an entry that goes before every entry of another key. -/
def Least (es : List (Fingerprint × CacheEntry α)) (now : Nat) (k : Fingerprint) : Prop :=
  ∃ e, (k, e) ∈ es ∧ ∀ p ∈ es, p.1 ≠ k → Before now (k, e) p

/-- The order is total on the entries: of two entries with different keys,
one goes first. -/
def Ordered (es : List (Fingerprint × CacheEntry α)) (now : Nat) : Prop :=
  ∀ p ∈ es, ∀ q ∈ es, p.1 ≠ q.1 → Before now p q ∨ Before now q p

theorem least_of_minimal (h : ∃ e, (k, e) ∈ es ∧ ∀ p ∈ es, ¬ Before now p (k, e))
    (hord : Ordered es now) : Least es now k := by
  obtain ⟨e, he, hmin⟩ := h
  refine ⟨e, he, fun p hp hpk => ?_⟩
  rcases hord (k, e) he p hp (Ne.symm hpk) with h | h
  · exact h
  · exact absurd h (hmin p hp)

/-- At most one key is least. -/
theorem Least.unique (h : Least es now k) (h' : Least es now k') : k = k' := by
  by_contra hne
  obtain ⟨e, he, hk⟩ := h
  obtain ⟨e', he', hk'⟩ := h'
  exact (hk (k', e') he' (Ne.symm hne)).asymm (hk' (k, e) he hne)

/-- When the order is total on the entries, the scan finds the same victim
in whatever order it meets them. -/
theorem victim?_perm (hp : es.Perm c.entries) (hord : Ordered c.entries now) :
    { c with entries := es }.victim? now = c.victim? now := by
  by_cases hnil : c.entries = []
  · rw [hnil, List.perm_nil] at hp
    subst hp
    exact victim?_congr hnil.symm now
  · have hnil' : ({ c with entries := es } : Cache α).entries ≠ [] := fun h =>
      hnil (List.perm_nil.mp (h ▸ hp.symm))
    obtain ⟨w, hw⟩ := Option.isSome_iff_exists.1 (victim?_isSome hnil' now)
    obtain ⟨v, hv⟩ := Option.isSome_iff_exists.1 (victim?_isSome hnil now)
    have hord' : Ordered ({ c with entries := es } : Cache α).entries now := fun p hp' q hq =>
      hord p (hp.mem_iff.mp hp') q (hp.mem_iff.mp hq)
    have hleast' := least_of_minimal (victim?_minimal hw) hord'
    have hleast := least_of_minimal (victim?_minimal hv) hord
    -- the least key of a list is the least key of its permutations
    have htrans : Least c.entries now w := by
      obtain ⟨e, he, hk⟩ := hleast'
      exact ⟨e, hp.mem_iff.mp he, fun p hp' hpk => hk p (hp.mem_iff.mpr hp') hpk⟩
    rw [hw, hv, htrans.unique hleast]

end Victim

end Cache

end HotLoop
