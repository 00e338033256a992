import Mathlib.Data.List.Nodup
import HotLoop.Compile.Cache
/-!
# HotLoop.Proofs.Compile.Cache

The counters of the artifact cache tell its contents.

* A lookup counts a hit when its fingerprint is cached and a miss when it
  is not, and changes no key.
* A *sound* cache has a positive capacity, distinct keys, at most
  `capacity` entries, and every insertion either still cached or evicted.
  Lookups keep a cache sound, and so does inserting a fingerprint it does
  not hold, which counts one insertion: when the cache is full, the victim
  is one of its keys, and dropping it drops exactly one entry.
-/

namespace HotLoop

namespace Cache

variable {α : Type} {c : Cache α} {fp v : Fingerprint} {a : α} {now : Nat}

/-- The fingerprints cached, in order of insertion. -/
def keys (c : Cache α) : List Fingerprint := c.entries.map (·.1)

/-- A cache whose counters tell its contents. -/
structure Sound (c : Cache α) : Prop where
  capacity_pos : 0 < c.capacity
  bounded : c.entries.length ≤ c.capacity
  distinct : c.keys.Nodup
  accounted : c.entries.length + c.evictions = c.insertions

theorem sound_new (n : Int) : (Cache.new n : Cache α).Sound where
  capacity_pos := by
    simp only [Cache.new]
    split
    · simp [defaultCapacity]
    · omega
  bounded := Nat.zero_le _
  distinct := List.nodup_nil
  accounted := rfl

theorem contains_eq_false (hfp : fp ∉ c.keys) : c.contains fp = false := by
  simp only [contains, keys, List.mem_map] at hfp ⊢
  simpa using fun e he h => hfp ⟨e, he, h⟩

/-! ## Lookups -/

theorem lookup_of_find?_none (h : c.entries.find? (·.1 = fp) = none) :
    c.lookup fp = (none, { c with ticks := c.ticks + 1, misses := c.misses + 1 }) := by
  simp only [lookup, h]

theorem lookup_of_find?_some {k : Fingerprint} {e : CacheEntry α}
    (h : c.entries.find? (·.1 = fp) = some (k, e)) :
    c.lookup fp = (some e.item, { c with
      ticks := c.ticks + 1, hits := c.hits + 1,
      entries := c.entries.map fun p =>
        if p.1 = fp then (fp, { e with lastUsed := c.ticks + 1, hits := e.hits + 1 }) else p }) := by
  simp only [lookup, h]

/-- Whether a fingerprint is cached: a lookup finds it. -/
theorem lookup_isSome (c : Cache α) (fp : Fingerprint) : (c.lookup fp).1.isSome = decide (fp ∈ c.keys) := by
  cases h : c.entries.find? (·.1 = fp) with
  | some ke =>
    obtain ⟨k, e⟩ := ke
    have hfe : k = fp := by simpa using List.find?_some h
    have : fp ∈ c.keys := List.mem_map.2 ⟨_, List.mem_of_find?_eq_some h, hfe⟩
    simp [lookup_of_find?_some h, this]
  | none =>
    have : fp ∉ c.keys := by
      simp only [keys, List.mem_map, not_exists, not_and]
      intro e he hfe
      exact absurd (List.find?_eq_none.1 h e he) (by simp [hfe])
    simp [lookup_of_find?_none h, this]

theorem lookup_keys : (c.lookup fp).2.keys = c.keys := by
  cases h : c.entries.find? (·.1 = fp) with
  | some ke =>
    rw [lookup_of_find?_some h]
    simp only [keys, List.map_map]
    congr 1
    funext e
    simp only [Function.comp]
    split <;> simp_all
  | none => rw [lookup_of_find?_none h]; rfl

theorem lookup_length : (c.lookup fp).2.entries.length = c.entries.length := by
  cases h : c.entries.find? (·.1 = fp) with
  | some ke => simp [lookup_of_find?_some h]
  | none => simp [lookup_of_find?_none h]

/-- A lookup counts a hit or a miss, whichever it is. -/
theorem lookup_counts (c : Cache α) (fp : Fingerprint) :
    (c.lookup fp).2.hits = c.hits + (if (c.lookup fp).1.isSome then 1 else 0) ∧
      (c.lookup fp).2.misses = c.misses + (if (c.lookup fp).1.isSome then 0 else 1) ∧
      (c.lookup fp).2.insertions = c.insertions ∧ (c.lookup fp).2.evictions = c.evictions ∧
      (c.lookup fp).2.capacity = c.capacity := by
  cases h : c.entries.find? (·.1 = fp) with
  | some ke => simp [lookup_of_find?_some h]
  | none => simp [lookup_of_find?_none h]

theorem Sound.lookup (h : c.Sound) (fp : Fingerprint) : (c.lookup fp).2.Sound := by
  obtain ⟨-, -, hins, hev, hcap⟩ := lookup_counts c fp
  exact ⟨hcap ▸ h.capacity_pos, by rw [lookup_length, hcap]; exact h.bounded,
    by rw [lookup_keys]; exact h.distinct, by rw [lookup_length, hev, hins]; exact h.accounted⟩

/-! ## Eviction -/

/-- Whatever a fold of picks ends with is what it started with or the pick
of an element. -/
theorem foldl_pick_mem {β : Type} (f : β → Fingerprint)
    (pick : Option β → Fingerprint × CacheEntry α → Option β)
    (hpick : ∀ best e, pick best e = best ∨ ∃ x, pick best e = some x ∧ f x = e.1) :
    ∀ (l : List (Fingerprint × CacheEntry α)) (init : Option β) (x : β), l.foldl pick init = some x →
      (init = some x ∨ ∃ e ∈ l, f x = e.1)
  | [], _, _, h => .inl h
  | e :: rest, init, x, h => by
    rcases foldl_pick_mem f pick hpick rest (pick init e) x h with h' | ⟨e', he', hx⟩
    · rcases hpick init e with hkeep | ⟨y, hy, hye⟩
      · exact .inl (hkeep ▸ h')
      · rw [hy] at h'
        cases h'
        exact .inr ⟨e, List.mem_cons_self .., hye⟩
    · exact .inr ⟨e', List.mem_cons_of_mem _ he', hx⟩

theorem foldl_pick_isSome {β : Type} (pick : Option β → Fingerprint × CacheEntry α → Option β)
    (hpick : ∀ best e, (pick best e).isSome) :
    ∀ (l : List (Fingerprint × CacheEntry α)) (init : Option β), l ≠ [] → (l.foldl pick init).isSome
  | [], _, h => absurd rfl h
  | [e], init, _ => hpick init e
  | _ :: e' :: rest, _, _ => foldl_pick_isSome pick hpick (e' :: rest) _ (List.cons_ne_nil _ _)

/-- The victim of a cache is one of its keys. -/
theorem victim?_mem (h : c.victim? now = some v) : v ∈ c.keys := by
  unfold victim? at h
  obtain ⟨x, hx, rfl⟩ := Option.map_eq_some_iff.1 h
  refine (foldl_pick_mem (·.1) _ (fun best e => ?_) c.entries none x hx).elim (fun h => nomatch h)
    fun ⟨e, he, hxe⟩ => List.mem_map.2 ⟨e, he, hxe.symm⟩
  cases best with
  | none => exact .inr ⟨_, rfl, rfl⟩
  | some b =>
    simp only
    split
    · exact .inr ⟨_, rfl, rfl⟩
    · exact .inl rfl

/-- A cache with entries has a victim. -/
theorem victim?_isSome (h : c.entries ≠ []) (now : Nat) : (c.victim? now).isSome := by
  unfold victim?
  rw [Option.isSome_map]
  refine foldl_pick_isSome _ (fun best e => ?_) c.entries none h
  cases best with
  | none => rfl
  | some b =>
    simp only
    split <;> rfl

/-- Dropping the entry of a cached key drops exactly one entry, the keys
being distinct. -/
theorem length_filter_ne_key (hd : c.keys.Nodup) (hv : v ∈ c.keys) :
    (c.entries.filter (·.1 ≠ v)).length + 1 = c.entries.length := by
  have hcount : (c.entries.filter (·.1 = v)).length = 1 := by
    have h1 := List.count_eq_one_of_mem hd hv
    rw [keys, List.count, List.countP_map] at h1
    rw [← List.countP_eq_length_filter, ← h1]
    exact List.countP_congr fun e _ => by simp
  have hsplit := List.length_eq_length_filter_add (l := c.entries) (fun e => decide (e.1 ≠ v))
  simp only [decide_not, Bool.not_not] at hsplit
  simp only [ne_eq, decide_not]
  omega

/-! ## Insertion -/

/-- Inserting a fingerprint not cached keeps the cache sound and counts one
insertion, and no hit or miss. -/
theorem Sound.insert (h : c.Sound) (hfp : fp ∉ c.keys) (a : α) :
    (c.insert fp a).Sound ∧ (c.insert fp a).insertions = c.insertions + 1 ∧
      (c.insert fp a).hits = c.hits ∧ (c.insert fp a).misses = c.misses := by
  have hc := contains_eq_false hfp
  unfold Cache.insert
  simp only [hc, Bool.false_eq_true, ↓reduceIte]
  split
  · -- full: the victim is a key, and it makes room for exactly one entry
    rename_i hfull
    have hne : c.entries ≠ [] := by
      intro he
      have := h.capacity_pos
      rw [he] at hfull
      simp at hfull
      omega
    obtain ⟨w, hw⟩ := Option.isSome_iff_exists.1 (victim?_isSome hne c.ticks)
    have hwmem := victim?_mem hw
    have hlen := length_filter_ne_key h.distinct hwmem
    rw [hw]
    refine ⟨⟨h.capacity_pos, ?_, ?_, ?_⟩, rfl, rfl, rfl⟩
    · simp only [List.length_append, List.length_singleton]
      have := h.bounded
      omega
    · simp only [keys, List.map_append, List.map_cons, List.map_nil]
      refine List.nodup_append.2 ⟨?_, List.nodup_singleton _, ?_⟩
      · exact h.distinct.sublist (List.filter_sublist.map _)
      · intro x hx y hy
        simp only [List.mem_singleton] at hy
        subst hy
        simp only [List.mem_map, List.mem_filter] at hx
        obtain ⟨e, ⟨he, -⟩, rfl⟩ := hx
        exact fun heq => hfp (List.mem_map.2 ⟨e, he, heq⟩)
    · simp only [List.length_append, List.length_singleton]
      have := h.accounted
      omega
  · -- room to spare
    rename_i hroom
    refine ⟨⟨h.capacity_pos, ?_, ?_, ?_⟩, rfl, rfl, rfl⟩
    · simp only [List.length_append, List.length_singleton]
      omega
    · simp only [keys, List.map_append, List.map_cons, List.map_nil]
      refine List.nodup_append.2 ⟨h.distinct, List.nodup_singleton _, ?_⟩
      intro x hx y hy
      simp only [List.mem_singleton] at hy
      subst hy
      exact fun heq => hfp (heq ▸ hx)
    · simp only [List.length_append, List.length_singleton]
      have := h.accounted
      omega

end Cache

end HotLoop
