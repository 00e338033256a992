import Mathlib
import HotLoop.Proofs.Compile.Eviction
/-!
# HotLoop.Proofs.Compile.CacheRuns

What holds of the artifact cache after any sequence of commands from a new
cache.

* `Cache.step_cases` says once what a command can do to the cache: nothing,
  a lookup, an insertion, an insertion after a missed lookup, or a purge.
  Every invariant below is derived from it.
* `Cache.Healthy`: a positive capacity, at most `capacity` entries with
  distinct keys, one tick per hit or miss, and no entry used or hit after
  the current tick. Every command keeps it (`Healthy.step`); commands other
  than purge also keep `Sound`, whose counters account for every entry.
* While the clock is below `2 ^ 63`, every score of a healthy cache is
  positive and finite (`Healthy.score_pos_finite`), so the eviction order is
  total on its entries when their fingerprints are known ones
  (`Healthy.ordered`).
* A key that a command other than purge drops is the victim of the scan at
  the tick of the insertion that dropped it (`Healthy.victim_of_dropped`).
* A compile request runs the compiler once on a miss and never on a hit
  (`compiles_getOrCompile`); a failed compile keeps the entries.
-/

namespace HotLoop

namespace Cache

variable {α ε : Type} {c c' : Cache α} {fp k v : Fingerprint} {a : α} {now : Nat}

/-! ## Runs of commands -/

/-- Lookups a command makes: one for a lookup or a compile request. -/
def Command.lookups : Command α ε → Nat
  | .lookup _ => 1
  | .getOrCompile _ _ => 1
  | _ => 0

/-- Lookups a sequence of commands makes. -/
def lookups (cmds : List (Command α ε)) : Nat := (cmds.map Command.lookups).sum

/-- The cache after a sequence of commands. -/
def run (c : Cache α) (cmds : List (Command α ε)) : Cache α :=
  cmds.foldl (fun c cmd => (c.step cmd).2) c

@[simp] theorem run_nil (c : Cache α) : c.run ([] : List (Command α ε)) = c := rfl

@[simp] theorem run_cons (c : Cache α) (cmd : Command α ε) (cmds : List (Command α ε)) :
    c.run (cmd :: cmds) = (c.step cmd).2.run cmds := rfl

@[simp] theorem lookups_nil : lookups ([] : List (Command α ε)) = 0 := rfl

@[simp] theorem lookups_cons (cmd : Command α ε) (cmds : List (Command α ε)) :
    lookups (cmd :: cmds) = cmd.lookups + lookups cmds := by
  simp [lookups]

theorem Command.lookups_le_one (cmd : Command α ε) : cmd.lookups ≤ 1 := by
  cases cmd <;> simp [Command.lookups]

/-! ## What a command does -/

theorem contains_iff : c.contains fp = true ↔ fp ∈ c.keys := by
  simp [contains, keys]

theorem lookup_ticks : (c.lookup fp).2.ticks = c.ticks + 1 := by
  cases h : c.entries.find? (·.1 = fp) with
  | some ke => simp [lookup_of_find?_some h]
  | none => simp [lookup_of_find?_none h]

/-- A missed lookup leaves the entries as they are. -/
theorem lookup_entries_of_not_mem (hfp : fp ∉ c.keys) : (c.lookup fp).2.entries = c.entries := by
  have h : c.entries.find? (·.1 = fp) = none :=
    List.find?_eq_none.2 fun p hp hpf => hfp (List.mem_map.2 ⟨p, hp, by simpa using hpf⟩)
  rw [lookup_of_find?_none h]

/-- A lookup that finds an item finds the item of the fingerprint's entry. -/
theorem lookup_found (h : (c.lookup fp).1 = some a) : ∃ e, (fp, e) ∈ c.entries ∧ e.item = a := by
  cases hf : c.entries.find? (·.1 = fp) with
  | some ke =>
    obtain ⟨k, e⟩ := ke
    have hk : k = fp := by simpa using List.find?_some hf
    subst hk
    rw [lookup_of_find?_some hf] at h
    exact ⟨e, List.mem_of_find?_eq_some hf, Option.some.inj h⟩
  | none => simp [lookup_of_find?_none hf] at h

theorem insert_of_contains (h : c.contains fp = true) :
    c.insert fp a = { c with entries := c.entries.map fun p =>
      if p.1 = fp then (fp, { p.2 with item := a, inserted := c.ticks, lastUsed := c.ticks })
      else p } := by
  simp [insert, h]

theorem insert_of_room (h : c.contains fp = false) (hr : c.entries.length < c.capacity) :
    c.insert fp a = { c with
      entries := c.entries ++ [(fp, { item := a, lastUsed := c.ticks, inserted := c.ticks })],
      insertions := c.insertions + 1 } := by
  simp [insert, h, Nat.not_le.mpr hr]

theorem insert_of_full (h : c.contains fp = false) (hf : c.capacity ≤ c.entries.length)
    (hv : c.victim? c.ticks = some v) :
    c.insert fp a = { c with
      entries := c.entries.filter (·.1 ≠ v) ++ [(fp, { item := a, lastUsed := c.ticks, inserted := c.ticks })],
      insertions := c.insertions + 1, evictions := c.evictions + 1 } := by
  simp [insert, h, hf, hv]

/-- An insertion changes neither the capacity nor the clock, and counts no
hit or miss. -/
theorem insert_counters (c : Cache α) (fp : Fingerprint) (a : α) :
    (c.insert fp a).capacity = c.capacity ∧ (c.insert fp a).ticks = c.ticks ∧
      (c.insert fp a).hits = c.hits ∧ (c.insert fp a).misses = c.misses := by
  unfold insert
  dsimp only
  split
  · exact ⟨rfl, rfl, rfl, rfl⟩
  · split
    · split <;> exact ⟨rfl, rfl, rfl, rfl⟩
    · exact ⟨rfl, rfl, rfl, rfl⟩

theorem step_getOrCompile_hit (o : Except ε α) (h : c.lookup fp = (some a, c')) :
    c.step (.getOrCompile fp o) = (.got (.ok (a, true)) false, c') := by
  simp only [step, getOrCompile, h]
  rfl

theorem step_getOrCompile_error (err : ε) (h : c.lookup fp = (none, c')) :
    c.step (.getOrCompile fp (.error err : Except ε α)) = (.got (.error err) true, c') := by
  simp only [step, getOrCompile, h]
  rfl

theorem step_getOrCompile_ok (h : c.lookup fp = (none, c')) :
    c.step (.getOrCompile fp (.ok a : Except ε α)) =
      (.got (.ok (a, false)) true, c'.insert fp a) := by
  simp only [step, getOrCompile, h]
  rfl

/-- What one command leaves of the cache: the cache itself, its lookup of a
fingerprint, an insertion into it, an insertion of a fingerprint it does not
hold after the lookup that missed it, or nothing at all. -/
theorem step_cases (c : Cache α) (cmd : Command α ε) :
    (cmd.lookups = 0 ∧ (c.step cmd).2 = c) ∨
    (cmd.lookups = 1 ∧ ∃ fp, (c.step cmd).2 = (c.lookup fp).2) ∨
    (cmd.lookups = 0 ∧ ∃ fp a, (c.step cmd).2 = c.insert fp a) ∨
    (cmd.lookups = 1 ∧ ∃ fp a, fp ∉ c.keys ∧ (c.step cmd).2 = (c.lookup fp).2.insert fp a) ∨
    (cmd = .purge ∧ (c.step cmd).2 = c.purge) := by
  cases cmd with
  | insert fp a => exact .inr (.inr (.inl ⟨rfl, fp, a, rfl⟩))
  | lookup fp => exact .inr (.inl ⟨rfl, fp, rfl⟩)
  | contains fp => exact .inl ⟨rfl, rfl⟩
  | getOrCompile fp o =>
    -- a hit, or a miss that the compiler fails or that it fills
    rcases hl : c.lookup fp with ⟨_ | a, c'⟩
    · have hfp : fp ∉ c.keys := by
        simpa [hl] using lookup_isSome c fp
      cases o with
      | error err => exact .inr (.inl ⟨rfl, fp, by rw [step_getOrCompile_error err hl, hl]⟩)
      | ok a =>
        exact .inr (.inr (.inr (.inl ⟨rfl, fp, a, hfp, by rw [step_getOrCompile_ok hl, hl]⟩)))
    · exact .inr (.inl ⟨rfl, fp, by rw [step_getOrCompile_hit o hl, hl]⟩)
  | purge => exact .inr (.inr (.inr (.inr ⟨rfl, rfl⟩)))
  | stats => exact .inl ⟨rfl, rfl⟩
  | items => exact .inl ⟨rfl, rfl⟩

/-- The clock ticks once per lookup a command makes. -/
theorem ticks_step (c : Cache α) (cmd : Command α ε) :
    (c.step cmd).2.ticks = c.ticks + cmd.lookups := by
  rcases step_cases c cmd with ⟨hl, h⟩ | ⟨hl, fp, h⟩ | ⟨hl, fp, a, h⟩ | ⟨hl, fp, a, -, h⟩ | ⟨rfl, h⟩
    <;> rw [h]
  · rw [hl, Nat.add_zero]
  · rw [hl, lookup_ticks]
  · rw [hl, Nat.add_zero, (insert_counters c fp a).2.1]
  · rw [hl, (insert_counters _ fp a).2.1, lookup_ticks]
  · rfl

theorem ticks_run (c : Cache α) (cmds : List (Command α ε)) :
    (c.run cmds).ticks = c.ticks + lookups cmds := by
  induction cmds generalizing c with
  | nil => rfl
  | cons cmd cmds ih =>
    rw [run_cons, ih, ticks_step, lookups_cons]
    omega

/-- Rewriting entries in place, each under its own key, keeps the keys. -/
theorem keys_map_entries {g : Fingerprint × CacheEntry α → Fingerprint × CacheEntry α}
    (hg : ∀ p, (g p).1 = p.1) : ({ c with entries := c.entries.map g } : Cache α).keys = c.keys := by
  simp only [keys, List.map_map]
  exact List.map_congr_left fun p _ => hg p

theorem keys_insert_of_contains (h : c.contains fp = true) : (c.insert fp a).keys = c.keys := by
  rw [insert_of_contains h]
  exact keys_map_entries fun p => by by_cases hp : p.1 = fp <;> simp [hp]

/-- An insertion leaves its fingerprint cached. -/
theorem mem_keys_insert (c : Cache α) (fp : Fingerprint) (a : α) : fp ∈ (c.insert fp a).keys := by
  cases hc : c.contains fp with
  | true => rw [keys_insert_of_contains hc]; exact contains_iff.mp hc
  | false =>
    -- whatever the insertion evicts, the new entry comes last
    unfold insert
    simp only [hc, Bool.false_eq_true, ↓reduceIte, keys, List.map_append, List.map_cons,
      List.map_nil]
    exact List.mem_append_right _ (List.mem_singleton_self _)

/-! ## The items cached -/

/-- `fp` is cached with item `a`. -/
def Holds (c : Cache α) (fp : Fingerprint) (a : α) : Prop := ∃ x ∈ c.entries, x.1 = fp ∧ x.2.item = a

/-- Every cached item satisfies `P` together with its fingerprint. -/
def Every (P : Fingerprint → α → Prop) (c : Cache α) : Prop := ∀ x ∈ c.entries, P x.1 x.2.item

/-- A lookup that finds an item leaves it cached. -/
theorem holds_lookup (h : (c.lookup fp).1 = some a) : (c.lookup fp).2.Holds fp a := by
  cases hf : c.entries.find? (·.1 = fp) with
  | some ke =>
    obtain ⟨k, e⟩ := ke
    have hk : k = fp := by simpa using List.find?_some hf
    subst hk
    rw [lookup_of_find?_some hf] at h ⊢
    refine ⟨_, List.mem_map_of_mem (List.mem_of_find?_eq_some hf), ?_⟩
    simpa using Option.some.inj h
  | none => simp [lookup_of_find?_none hf] at h

/-- An insertion leaves its item cached under its fingerprint. -/
theorem holds_insert (c : Cache α) (fp : Fingerprint) (a : α) : (c.insert fp a).Holds fp a := by
  cases hc : c.contains fp with
  | true =>
    rw [insert_of_contains hc]
    obtain ⟨x, hx, hxf⟩ := List.mem_map.1 (contains_iff.mp hc)
    exact ⟨_, List.mem_map_of_mem hx, by simp [hxf]⟩
  | false =>
    unfold insert
    simp only [hc, Bool.false_eq_true, ↓reduceIte]
    exact ⟨_, List.mem_append_right _ (List.mem_singleton_self _), rfl, rfl⟩

section Every

variable {P : Fingerprint → α → Prop}

/-- A lookup changes no item. -/
theorem Every.lookup (h : c.Every P) (fp : Fingerprint) : (c.lookup fp).2.Every P := by
  intro x hx
  cases hf : c.entries.find? (·.1 = fp) with
  | none =>
    rw [lookup_of_find?_none hf] at hx
    exact h x hx
  | some ke =>
    obtain ⟨k, e⟩ := ke
    have hk : k = fp := by simpa using List.find?_some hf
    subst hk
    rw [lookup_of_find?_some hf] at hx
    obtain ⟨y, hy, rfl⟩ := List.mem_map.1 hx
    by_cases hyk : y.1 = k
    · simp only [hyk, if_true]
      exact h _ (List.mem_of_find?_eq_some hf)
    · simp only [hyk, if_false]
      exact h y hy

/-- An insertion adds one item, under its fingerprint, and drops others. -/
theorem Every.insert (h : c.Every P) (ha : P fp a) : (c.insert fp a).Every P := by
  intro x hx
  cases hc : c.contains fp with
  | true =>
    rw [insert_of_contains hc] at hx
    obtain ⟨y, hy, rfl⟩ := List.mem_map.1 hx
    by_cases hyf : y.1 = fp
    · simp only [hyf, if_true]
      exact ha
    · simp only [hyf, if_false]
      exact h y hy
  | false =>
    -- the entries kept after a possible eviction, then the new one
    unfold Cache.insert at hx
    simp only [hc, Bool.false_eq_true, ↓reduceIte, List.mem_append, List.mem_singleton] at hx
    rcases hx with hx | rfl
    · refine h x ?_
      split at hx
      · split at hx
        · exact List.mem_of_mem_filter hx
        · exact hx
      · exact hx
    · exact ha

end Every

/-! ## The invariant of every run -/

/-- A cache as every run from a new one leaves it: a positive capacity, at
most `capacity` entries with distinct keys, one tick per hit or miss, and no
entry used or hit after the current tick. -/
structure Healthy (c : Cache α) : Prop where
  capacity_pos : 0 < c.capacity
  bounded : c.entries.length ≤ c.capacity
  distinct : c.keys.Nodup
  clock : c.hits + c.misses = c.ticks
  recent : ∀ p ∈ c.entries, p.2.lastUsed ≤ c.ticks ∧ p.2.hits ≤ c.ticks

theorem healthy_new (n : Int) : (new n : Cache α).Healthy :=
  have h := sound_new (α := α) n
  ⟨h.capacity_pos, h.bounded, h.distinct, rfl, fun _ hp => nomatch hp⟩

theorem Healthy.lookup (h : c.Healthy) (fp : Fingerprint) : (c.lookup fp).2.Healthy := by
  obtain ⟨hhit, hmiss, -, -, hcap⟩ := lookup_counts c fp
  refine ⟨hcap ▸ h.capacity_pos, ?_, ?_, ?_, ?_⟩
  · rw [lookup_length, hcap]
    exact h.bounded
  · rw [lookup_keys]
    exact h.distinct
  · rw [hhit, hmiss, lookup_ticks, ← h.clock]
    split <;> omega
  · rw [lookup_ticks]
    cases hf : c.entries.find? (·.1 = fp) with
    | none =>
      rw [lookup_of_find?_none hf]
      intro p hp
      have := h.recent p hp
      omega
    | some ke =>
      -- a hit touches the entry it found, which was used and hit at most `ticks` times
      have he := h.recent ke (List.mem_of_find?_eq_some hf)
      rw [lookup_of_find?_some hf]
      simp only [List.mem_map]
      rintro p ⟨q, hq, rfl⟩
      have hq' := h.recent q hq
      split
      · exact ⟨le_rfl, Nat.succ_le_succ he.2⟩
      · exact ⟨by omega, by omega⟩

/-- A fresh entry appended to part of a healthy cache's entries keeps it
healthy, whatever the insertion counters say. -/
theorem Healthy.append_fresh (h : c.Healthy) {kept : List (Fingerprint × CacheEntry α)}
    (hs : kept.Sublist c.entries) (hfp : fp ∉ c.keys) (hlen : kept.length < c.capacity)
    (i e : Nat) :
    ({ c with
        entries := kept ++ [(fp, { item := a, lastUsed := c.ticks, inserted := c.ticks })],
        insertions := i, evictions := e } : Cache α).Healthy where
  capacity_pos := h.capacity_pos
  bounded := by
    simp only [List.length_append, List.length_singleton]
    omega
  distinct := by
    simp only [keys, List.map_append, List.map_cons, List.map_nil]
    refine List.nodup_append.2 ⟨h.distinct.sublist (hs.map _), List.nodup_singleton _, ?_⟩
    intro x hx y hy
    obtain rfl := List.mem_singleton.mp hy
    rintro rfl
    exact hfp ((hs.map _).subset hx)
  clock := h.clock
  recent := by
    intro p hp
    rcases List.mem_append.mp hp with hp | hp
    · exact h.recent p (hs.subset hp)
    · obtain rfl := List.mem_singleton.mp hp
      exact ⟨le_rfl, Nat.zero_le _⟩

theorem Healthy.insert (h : c.Healthy) (fp : Fingerprint) (a : α) : (c.insert fp a).Healthy := by
  cases hc : c.contains fp with
  | false =>
    have hfp : fp ∉ c.keys := fun hm => by simp [contains_iff.mpr hm] at hc
    by_cases hr : c.entries.length < c.capacity
    · rw [insert_of_room hc hr]
      exact h.append_fresh (List.Sublist.refl _) hfp hr _ _
    · -- full: the victim is a key, and dropping it makes room
      have hne : c.entries ≠ [] := fun he => by
        have := h.capacity_pos
        simp [he] at hr
        omega
      obtain ⟨v, hv⟩ := Option.isSome_iff_exists.1 (victim?_isSome hne c.ticks)
      have hlen := length_filter_ne_key h.distinct (victim?_mem hv)
      have hb := h.bounded
      rw [insert_of_full hc (Nat.not_lt.mp hr) hv]
      exact h.append_fresh List.filter_sublist hfp (by omega) _ _
  | true =>
    have hk := keys_insert_of_contains (a := a) hc
    rw [insert_of_contains hc] at hk ⊢
    refine ⟨h.capacity_pos, by simpa using h.bounded, hk ▸ h.distinct, h.clock, ?_⟩
    simp only [List.mem_map]
    rintro p ⟨q, hq, rfl⟩
    have hq' := h.recent q hq
    split
    · exact ⟨le_rfl, hq'.2⟩
    · exact hq'

theorem Healthy.purge (h : c.Healthy) : c.purge.Healthy :=
  ⟨h.capacity_pos, Nat.zero_le _, List.nodup_nil, h.clock, fun _ hp => nomatch hp⟩

/-- Every command keeps a cache healthy. -/
theorem Healthy.step (h : c.Healthy) (cmd : Command α ε) : (c.step cmd).2.Healthy := by
  rcases step_cases c cmd with ⟨-, h'⟩ | ⟨-, fp, h'⟩ | ⟨-, fp, a, h'⟩ | ⟨-, fp, a, -, h'⟩ | ⟨-, h'⟩
    <;> rw [h']
  · exact h
  · exact h.lookup fp
  · exact h.insert fp a
  · exact (h.lookup fp).insert fp a
  · exact h.purge

theorem Healthy.run (h : c.Healthy) (cmds : List (Command α ε)) : (c.run cmds).Healthy := by
  induction cmds generalizing c with
  | nil => exact h
  | cons cmd cmds ih => exact ih (h.step cmd)

/-- Re-inserting a cached fingerprint keeps the cache sound. -/
theorem Sound.insert_cached (h : c.Sound) (hfp : fp ∈ c.keys) (a : α) : (c.insert fp a).Sound := by
  have hc : c.contains fp = true := contains_iff.mpr hfp
  have hk := keys_insert_of_contains (a := a) hc
  rw [insert_of_contains hc] at hk ⊢
  exact ⟨h.capacity_pos, by simpa using h.bounded, hk ▸ h.distinct, by simpa using h.accounted⟩

/-- Every command but purge keeps a cache sound. -/
theorem Sound.step (h : c.Sound) {cmd : Command α ε} (hcmd : cmd ≠ .purge) :
    (c.step cmd).2.Sound := by
  rcases step_cases c cmd with ⟨-, h'⟩ | ⟨-, fp, h'⟩ | ⟨-, fp, a, h'⟩ | ⟨-, fp, a, hfp, h'⟩ | ⟨rfl, -⟩
  · rw [h']
    exact h
  · rw [h']
    exact h.lookup fp
  · rw [h']
    by_cases hfp : fp ∈ c.keys
    · exact h.insert_cached hfp a
    · exact (h.insert hfp a).1
  · rw [h']
    exact ((h.lookup fp).insert (by rwa [lookup_keys]) a).1
  · exact absurd rfl hcmd

theorem Sound.run (h : c.Sound) {cmds : List (Command α ε)} (hp : Command.purge ∉ cmds) :
    (c.run cmds).Sound := by
  induction cmds generalizing c with
  | nil => exact h
  | cons cmd cmds ih =>
    rw [List.mem_cons, not_or] at hp
    exact ih (h.step (Ne.symm hp.1)) hp.2

/-! ## Scores and evictions -/

/-- Scores are positive and finite while hits and the clock fit in 63
bits. -/
theorem score_pos_finite (e : CacheEntry α) (hh : e.hits ≤ 2 ^ 63) (hn : now ≤ 2 ^ 63) :
    Double.lt ⟨0⟩ (score e now) = true ∧ Double.lt (score e now) ⟨Float.infBits false⟩ = true :=
  Double.div_ofUInt64_pos_finite (by omega) (by omega) (by omega) (by omega)

theorem Healthy.score_pos_finite (h : c.Healthy) {p : Fingerprint × CacheEntry α}
    (hp : p ∈ c.entries) (ht : c.ticks ≤ now) (hn : now ≤ 2 ^ 63) :
    Double.lt ⟨0⟩ (score p.2 now) = true ∧
      Double.lt (score p.2 now) ⟨Float.infBits false⟩ = true :=
  Cache.score_pos_finite p.2 (by have := (h.recent p hp).2; omega) hn

/-- While the clock fits in 63 bits, the eviction order is total on the
entries of a healthy cache whose fingerprints have known strategies. -/
theorem Healthy.ordered (h : c.Healthy) (ht : c.ticks ≤ now) (hn : now ≤ 2 ^ 63)
    (hkeys : ∀ f ∈ c.keys, f.strategies.code < 32) : Ordered c.entries now := by
  intro p hp q hq hpq
  have hsp := (h.score_pos_finite hp ht hn).1
  have hsq := (h.score_pos_finite hq ht hn).1
  refine Before.total (Double.isNaN_of_lt hsp).2 (Double.isNaN_of_lt hsq).2 fun htext => hpq ?_
  exact Fingerprint.text_inj (hkeys _ (List.mem_map_of_mem hp)) (hkeys _ (List.mem_map_of_mem hq)) htext

/-- A key an insertion drops is the victim of the scan at the insertion's
tick. -/
theorem victim_of_insert_drop (hk : k ∈ c.keys) (hk' : k ∉ (c.insert fp a).keys) :
    c.victim? c.ticks = some k := by
  cases hc : c.contains fp with
  | true =>
    rw [keys_insert_of_contains hc] at hk'
    exact absurd hk hk'
  | false =>
    obtain ⟨p, hp, rfl⟩ := List.mem_map.1 hk
    by_cases hr : c.entries.length < c.capacity
    · rw [insert_of_room hc hr] at hk'
      exact absurd (List.mem_map.2 ⟨p, List.mem_append_left _ hp, rfl⟩) hk'
    · -- full: every key but the victim stays
      obtain ⟨v, hv⟩ := Option.isSome_iff_exists.1 (victim?_isSome (List.ne_nil_of_mem hp) c.ticks)
      rw [insert_of_full hc (Nat.not_lt.mp hr) hv] at hk'
      rw [hv]
      by_contra hpv
      have hne : p.1 ≠ v := fun h => hpv (by rw [h])
      have hkept : p ∈ c.entries.filter (·.1 ≠ v) := List.mem_filter.2 ⟨hp, by simpa using hne⟩
      exact hk' (List.mem_map.2 ⟨p, List.mem_append_left _ hkept, rfl⟩)

/-- A key that a command other than purge drops is the victim of the scan
over the entries at the tick the command leaves. -/
theorem victim_of_dropped {cmd : Command α ε} (hcmd : cmd ≠ .purge) (hk : k ∈ c.keys)
    (hk' : k ∉ (c.step cmd).2.keys) : c.victim? (c.step cmd).2.ticks = some k := by
  rcases step_cases c cmd with ⟨-, h'⟩ | ⟨-, fp, h'⟩ | ⟨-, fp, a, h'⟩ | ⟨-, fp, a, hfp, h'⟩ | ⟨rfl, -⟩
  · rw [h'] at hk'
    exact absurd hk hk'
  · rw [h', lookup_keys] at hk'
    exact absurd hk hk'
  · rw [h'] at hk' ⊢
    rw [(insert_counters c fp a).2.1]
    exact victim_of_insert_drop hk hk'
  · -- the insertion after a miss scans the entries the lookup left as they were
    rw [h'] at hk' ⊢
    rw [(insert_counters _ fp a).2.1, ← victim?_congr (lookup_entries_of_not_mem hfp)]
    exact victim_of_insert_drop (by rwa [lookup_keys]) hk'
  · exact absurd rfl hcmd

/-! ## Compile requests -/

theorem lookup_miss (hfp : fp ∉ c.keys) : (c.lookup fp).1 = none := by
  simpa [hfp] using lookup_isSome c fp

/-- A compile request runs the compiler, here one that counts its calls,
once on a miss and never on a hit. -/
theorem compiles_getOrCompile (c : Cache α) (fp : Fingerprint) (o : Except ε α) :
    ((c.getOrCompile fp (modify (· + 1) *> pure o : StateM Nat (Except ε α))).run 0).2 =
      if fp ∈ c.keys then 0 else 1 := by
  rcases hl : c.lookup fp with ⟨_ | a, c'⟩
  · have hfp : fp ∉ c.keys := by simpa [hl] using lookup_isSome c fp
    rw [if_neg hfp]
    cases o <;> simp only [getOrCompile, hl] <;> rfl
  · have hfp : fp ∈ c.keys := by simpa [hl] using lookup_isSome c fp
    rw [if_pos hfp]
    simp only [getOrCompile, hl]
    rfl

/-- A compile request for a cached fingerprint answers with its item, from
the cache, and does not compile. -/
theorem getOrCompile_cached (hfp : fp ∈ c.keys) (o : Except ε α) :
    ∃ e, (fp, e) ∈ c.entries ∧ (c.step (.getOrCompile fp o)).1 = .got (.ok (e.item, true)) false := by
  rcases hl : c.lookup fp with ⟨_ | b, c'⟩
  · have := lookup_isSome c fp
    simp [hl, hfp] at this
  · obtain ⟨e, he, rfl⟩ := lookup_found (by rw [hl])
    exact ⟨e, he, by rw [step_getOrCompile_hit o hl]⟩

/-- A failed compile caches nothing: the entries and the insertions stay. -/
theorem getOrCompile_failed (hfp : fp ∉ c.keys) (err : ε) :
    (c.step (.getOrCompile fp (.error err : Except ε α))).1 = .got (.error err) true ∧
      (c.step (.getOrCompile fp (.error err : Except ε α))).2.entries = c.entries ∧
      (c.step (.getOrCompile fp (.error err : Except ε α))).2.insertions = c.insertions := by
  have he := lookup_entries_of_not_mem hfp
  have hi := (lookup_counts c fp).2.2.1
  have hl : c.lookup fp = (none, (c.lookup fp).2) := by rw [← lookup_miss hfp]
  rw [step_getOrCompile_error err hl]
  exact ⟨rfl, he, hi⟩

/-- A successful compile leaves its fingerprint cached. -/
theorem getOrCompile_compiled (hfp : fp ∉ c.keys) (a : α) :
    (c.step (.getOrCompile fp (.ok a : Except ε α))).1 = .got (.ok (a, false)) true ∧
      fp ∈ (c.step (.getOrCompile fp (.ok a : Except ε α))).2.keys := by
  have hl : c.lookup fp = (none, (c.lookup fp).2) := by rw [← lookup_miss hfp]
  rw [step_getOrCompile_ok hl]
  exact ⟨rfl, mem_keys_insert _ fp a⟩

/-! ## The laws of every run -/

/-- What holds after any sequence of commands on a new cache, of any
capacity: the entries fit; every lookup, direct or by a compile request,
counts one hit or miss; without purge the counters account for every entry;
no entry was used after the current tick, so scores are positive and finite
while the clock fits in 63 bits; a key the next command drops is the victim,
before which no entry goes, and with known fingerprints it goes before every
other entry and the scan finds it in whatever order it meets the entries;
and a compile request compiles exactly on a miss, answers a hit from the
cache, keeps the entries when the compiler fails and caches what it
compiles. -/
theorem run_laws (n : Int) (cmds : List (Command α ε)) :
    let c := (new n : Cache α).run cmds
    c.entries.length ≤ c.capacity ∧
    c.hits + c.misses = lookups cmds ∧
    (Command.purge ∉ cmds → c.entries.length + c.evictions = c.insertions) ∧
    (∀ p ∈ c.entries, p.2.lastUsed ≤ c.ticks ∧
      (lookups cmds < 2 ^ 63 → Double.lt ⟨0⟩ (score p.2 c.ticks) = true ∧
        Double.lt (score p.2 c.ticks) ⟨Float.infBits false⟩ = true)) ∧
    (∀ (cmd : Command α ε) k, cmd ≠ .purge → k ∈ c.keys → k ∉ (c.step cmd).2.keys →
      c.victim? (c.step cmd).2.ticks = some k ∧
      (∃ e, (k, e) ∈ c.entries ∧ ∀ p ∈ c.entries, ¬ Before (c.step cmd).2.ticks p (k, e)) ∧
      (lookups cmds < 2 ^ 63 → (∀ f ∈ c.keys, f.strategies.code < 32) →
        Least c.entries (c.step cmd).2.ticks k ∧
        ∀ es, es.Perm c.entries →
          ({ c with entries := es } : Cache α).victim? (c.step cmd).2.ticks = some k)) ∧
    (∀ fp (o : Except ε α),
      ((c.getOrCompile fp (modify (· + 1) *> pure o : StateM Nat (Except ε α))).run 0).2 =
        if fp ∈ c.keys then 0 else 1) ∧
    (∀ fp (o : Except ε α), fp ∈ c.keys → ∃ e, (fp, e) ∈ c.entries ∧
      (c.step (.getOrCompile fp o)).1 = .got (.ok (e.item, true)) false) ∧
    (∀ fp (err : ε), fp ∉ c.keys →
      (c.step (.getOrCompile fp (.error err : Except ε α))).1 = .got (.error err) true ∧
      (c.step (.getOrCompile fp (.error err : Except ε α))).2.entries = c.entries ∧
      (c.step (.getOrCompile fp (.error err : Except ε α))).2.insertions = c.insertions) ∧
    (∀ fp (a : α), fp ∉ c.keys →
      (c.step (.getOrCompile fp (.ok a : Except ε α))).1 = .got (.ok (a, false)) true ∧
      fp ∈ (c.step (.getOrCompile fp (.ok a : Except ε α))).2.keys) := by
  intro c
  have hh : c.Healthy := (healthy_new n).run cmds
  have ht : c.ticks = lookups cmds := by
    rw [ticks_run]
    exact Nat.zero_add _
  refine ⟨hh.bounded, hh.clock.trans ht, fun hp => ((sound_new n).run hp).accounted,
    fun p hp => ⟨(hh.recent p hp).1, fun hb => hh.score_pos_finite hp le_rfl (by omega)⟩,
    fun cmd k hcmd hk hk' => ?_, compiles_getOrCompile c, fun fp o hfp => getOrCompile_cached hfp o,
    fun fp err hfp => getOrCompile_failed hfp err, fun fp a hfp => getOrCompile_compiled hfp a⟩
  -- the eviction happens at the tick the command leaves, at most one past the run's
  have hv := victim_of_dropped hcmd hk hk'
  have hnow : (c.step cmd).2.ticks = c.ticks + cmd.lookups := ticks_step c cmd
  have hle := cmd.lookups_le_one
  refine ⟨hv, victim?_minimal hv, fun hb hkeys => ?_⟩
  have hord : Ordered c.entries (c.step cmd).2.ticks := hh.ordered (by omega) (by omega) hkeys
  exact ⟨least_of_minimal (victim?_minimal hv) hord, fun es hp => (victim?_perm hp hord).trans hv⟩

/-- Three fingerprints inserted at the same tick into a cache of three
slots tie on score and on insertion tick; the next insertion evicts the one
whose text comes first, the second inserted, in whatever order the entries
are met. -/
theorem run_laws_tied :
    let fp : UInt64 → Fingerprint := fun h => ⟨h, .counted, .trivial, {}⟩
    let c := (new 3 : Cache Nat).run [(.insert (fp 2) 20 : Command Nat Unit), .insert (fp 1) 10, .insert (fp 3) 30]
    (∀ p ∈ c.entries, ∀ q ∈ c.entries,
      (score p.2 c.ticks).numEq (score q.2 c.ticks) = true ∧ p.2.inserted = q.2.inserted) ∧
    c.victim? 0 = some (fp 1) ∧ Least c.entries 0 (fp 1) ∧
    ∀ es, es.Perm c.entries → ({ c with entries := es } : Cache Nat).victim? 0 = some (fp 1) := by
  -- the fourth insertion drops the first fingerprint's text
  have h := (run_laws 3 [(.insert ⟨2, .counted, .trivial, {}⟩ 20 : Command Nat Unit),
    .insert ⟨1, .counted, .trivial, {}⟩ 10, .insert ⟨3, .counted, .trivial, {}⟩ 30]).2.2.2.2.1
    (.insert ⟨4, .counted, .trivial, {}⟩ 40) ⟨1, .counted, .trivial, {}⟩ (by simp) (by decide +kernel)
    (by decide +kernel)
  obtain ⟨hleast, hperm⟩ := h.2.2 (by decide) (by decide +kernel)
  exact ⟨by decide +kernel, h.1, hleast, hperm⟩

end Cache

end HotLoop
