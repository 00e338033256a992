import Mathlib
import HotLoop.Proofs.Dispatch.Lifecycle
import HotLoop.Proofs.Compile.Cache
/-!
# HotLoop.Proofs.Dispatch.Counters

The monitor's counters agree with the cache and with the transitions the
dispatcher makes, over every sequence of runs from a fresh dispatcher.

* The monitor counts the cache's hits and misses, every miss is one
  compile attempt, every attempt ends in one of three outcomes, and every
  success is one insertion into the cache (`Monitor.Agrees`).
* The monitor's table of transitions lists each edge once, and the count of
  an edge is the number of transitions logged on it (`Dispatcher.Logged`);
  a compile attempt is exactly a move into compiling, and its outcome the
  move out of it.

Both are kept by every step the interpreter takes: the first because no
site is compiling between steps, so a move into compiling is always the
start of an attempt (`Dispatcher.Lifecycle.notCompiling`).
-/

namespace HotLoop

namespace SiteState

/-- Every state. -/
def all : List SiteState := [.interpreted, .profiling, .compiling, .compiled, .permanentlyInterpreted]

/-- The text the monitor keys the edge `a → b` by. -/
def edge (a b : SiteState) : String := a.name ++ " -> " ++ b.name

theorem mem_all (a : SiteState) : a ∈ all := by cases a <;> decide

/-- Distinct edges have distinct texts. -/
theorem edge_inj {a b c d : SiteState} : edge a b = edge c d ↔ a = c ∧ b = d := by
  constructor
  · -- the kernel compares the texts of the 625 pairs of edges once
    have hall : ∀ a ∈ all, ∀ b ∈ all, ∀ c ∈ all, ∀ d ∈ all,
        edge a b = edge c d → a = c ∧ b = d := by
      decide +kernel
    exact hall a (mem_all a) b (mem_all b) c (mem_all c) d (mem_all d)
  · rintro ⟨rfl, rfl⟩
    rfl

end SiteState

namespace Monitor

open SiteState

variable {m : Monitor} {a b c d : SiteState} {o : CompileOutcome}

/-- How often the monitor has counted the edge `a → b`. -/
def count (m : Monitor) (a b : SiteState) : Nat :=
  ((m.transitions.find? (·.1 = edge a b)).map (·.2)).getD 0

/-- How often the monitor has counted a move into `b`, from any state. -/
def into (m : Monitor) (b : SiteState) : Nat := (all.map fun a => m.count a b).sum

/-- Changing the counts of a table, keeping its texts, changes what each
text finds by the same change. -/
theorem find?_map_text {l : List (String × Nat)} {f : String × Nat → String × Nat}
    (hf : ∀ x, (f x).1 = x.1) (k : String) :
    (l.map f).find? (·.1 = k) = (l.find? (·.1 = k)).map f := by
  have hp : ((fun x => decide (x.1 = k)) ∘ f) = fun x => decide (x.1 = k) := by
    funext x
    simp [hf]
  rw [List.find?_map, hp]

/-- After counting a move, the text of its edge finds one more than the
monitor had counted of it, and every other text finds what it found. -/
theorem find?_moved (k : String) :
    (m.moved a b).transitions.find? (·.1 = k) =
      if k = edge a b then some (k, m.count a b + 1) else m.transitions.find? (·.1 = k) := by
  simp only [moved]
  split
  · -- the edge is listed: its entries count one more
    rename_i hany
    rw [find?_map_text]
    · by_cases hk : k = edge a b
      · rw [if_pos hk]
        subst hk
        obtain ⟨x, hx⟩ : ∃ x, m.transitions.find? (·.1 = edge a b) = some x :=
          Option.isSome_iff_exists.1 (List.find?_isSome.2 (List.any_eq_true.1 hany))
        have hxk : x.1 = edge a b := by simpa using List.find?_some hx
        simp only [edge] at hx hxk
        simp [count, edge, hx, hxk]
      · rw [if_neg hk]
        simp only [edge] at hk
        cases hx : m.transitions.find? (·.1 = k) with
        | none => rfl
        | some x =>
          obtain ⟨e, n⟩ := x
          have hek : e = k := by simpa using List.find?_some hx
          subst hek
          simp [hk]
    · intro x
      split <;> rfl
  · -- the edge is new: it is appended with a count of one
    rename_i hnew
    rw [List.find?_append]
    by_cases hk : k = edge a b
    · rw [if_pos hk]
      subst hk
      have hnone : m.transitions.find? (·.1 = edge a b) = none := by
        rw [List.find?_eq_none]
        intro x hx hxk
        exact hnew (List.any_eq_true.2 ⟨x, hx, hxk⟩)
      simp only [edge] at hnone
      simp [count, hnone, edge]
    · rw [if_neg hk]
      simp only [edge] at hk
      simp [Ne.symm hk]

/-- Counting a move counts one more of its edge and none of the others. -/
theorem count_moved : (m.moved a b).count c d = m.count c d + if a = c ∧ b = d then 1 else 0 := by
  have hkey : edge c d = edge a b ↔ a = c ∧ b = d := by
    rw [edge_inj]
    exact ⟨fun ⟨h₁, h₂⟩ => ⟨h₁.symm, h₂.symm⟩, fun ⟨h₁, h₂⟩ => ⟨h₁.symm, h₂.symm⟩⟩
  rw [count, find?_moved]
  by_cases h : a = c ∧ b = d
  · obtain ⟨rfl, rfl⟩ := h
    simp
  · rw [if_neg (fun hk => h (hkey.1 hk)), if_neg h]
    rfl
/-- Counting a move lists the text of its edge, once. -/
theorem texts_moved :
    (m.moved a b).transitions.map (·.1) =
      if edge a b ∈ m.transitions.map (·.1) then m.transitions.map (·.1)
      else m.transitions.map (·.1) ++ [edge a b] := by
  simp only [moved]
  split
  · rename_i hany
    have hmem : edge a b ∈ m.transitions.map (·.1) := by
      obtain ⟨x, hx, hxk⟩ := List.any_eq_true.1 hany
      exact List.mem_map.2 ⟨x, hx, by simpa [edge] using hxk⟩
    rw [if_pos hmem, List.map_map]
    congr 1
    funext x
    simp only [Function.comp]
    split <;> rfl
  · rename_i hnew
    have hmem : edge a b ∉ m.transitions.map (·.1) := by
      rintro hmem
      obtain ⟨x, hx, hxk⟩ := List.mem_map.1 hmem
      exact hnew (List.any_eq_true.2 ⟨x, hx, by simpa [edge] using hxk⟩)
    rw [if_neg hmem, List.map_append]
    rfl

/-- The table lists each text once, and only texts of edges. -/
structure Tabled (m : Monitor) : Prop where
  distinct : (m.transitions.map (·.1)).Nodup
  edges : ∀ t ∈ m.transitions.map (·.1), ∃ a b, t = edge a b

theorem Tabled.moved (h : m.Tabled) (a b : SiteState) : (m.moved a b).Tabled := by
  constructor <;> rw [texts_moved] <;> split
  · exact h.distinct
  · rename_i hnew
    refine List.nodup_append.2 ⟨h.distinct, List.nodup_singleton _, ?_⟩
    rintro x hx y hy rfl
    exact hnew ((List.mem_singleton.1 hy) ▸ hx)
  · exact h.edges
  · intro t ht
    rcases List.mem_append.1 ht with ht | ht
    · exact h.edges t ht
    · exact ⟨a, b, List.mem_singleton.1 ht⟩

@[simp] theorem moved_counters :
    (m.moved a b).compileAttempts = m.compileAttempts ∧
      (m.moved a b).compileSuccesses = m.compileSuccesses ∧
      (m.moved a b).compileUnsupported = m.compileUnsupported ∧
      (m.moved a b).compileInternal = m.compileInternal ∧
      (m.moved a b).cacheHits = m.cacheHits ∧ (m.moved a b).cacheMisses = m.cacheMisses := by
  simp only [moved]
  split <;> exact ⟨rfl, rfl, rfl, rfl, rfl, rfl⟩

@[simp] theorem compiled_counters (t : Int) :
    (m.compiled o t).compileAttempts = m.compileAttempts + 1 ∧ (m.compiled o t).cacheHits = m.cacheHits ∧
      (m.compiled o t).cacheMisses = m.cacheMisses := by
  cases o <;> exact ⟨rfl, rfl, rfl⟩

@[simp] theorem compiled_ok (t : Int) :
    (m.compiled .ok t).compileSuccesses = m.compileSuccesses + 1 ∧
      (m.compiled .ok t).compileUnsupported = m.compileUnsupported ∧
      (m.compiled .ok t).compileInternal = m.compileInternal :=
  ⟨rfl, rfl, rfl⟩

/-- A failed attempt counts one failure of either kind, and no success. -/
theorem compiled_failed (ho : o ≠ .ok) (t : Int) :
    (m.compiled o t).compileSuccesses = m.compileSuccesses ∧
      (m.compiled o t).compileUnsupported + (m.compiled o t).compileInternal =
        m.compileUnsupported + m.compileInternal + 1 := by
  cases o with
  | ok => exact absurd rfl ho
  | unsupported => exact ⟨rfl, by simp only [compiled]; omega⟩
  | internal => exact ⟨rfl, by simp only [compiled]; omega⟩

@[simp] theorem lookedUp_counters (hit : Bool) :
    (m.lookedUp hit).compileAttempts = m.compileAttempts ∧
      (m.lookedUp hit).compileSuccesses = m.compileSuccesses ∧
      (m.lookedUp hit).compileUnsupported = m.compileUnsupported ∧
      (m.lookedUp hit).compileInternal = m.compileInternal ∧
      (m.lookedUp hit).cacheHits = m.cacheHits + (if hit then 1 else 0) ∧
      (m.lookedUp hit).cacheMisses = m.cacheMisses + (if hit then 0 else 1) := by
  cases hit <;> exact ⟨rfl, rfl, rfl, rfl, rfl, rfl⟩

@[simp] theorem transitions_compiled (o : CompileOutcome) (t : Int) :
    (m.compiled o t).transitions = m.transitions := by
  cases o <;> rfl

@[simp] theorem transitions_lookedUp (hit : Bool) : (m.lookedUp hit).transitions = m.transitions := by
  cases hit <;> rfl

@[simp] theorem transitions_ran (x : Bool) (n : Nat) (t : Int) : (m.ran x n t).transitions = m.transitions := by
  cases x <;> rfl

@[simp] theorem ran_counters (x : Bool) (n : Nat) (t : Int) :
    (m.ran x n t).compileAttempts = m.compileAttempts ∧
      (m.ran x n t).compileSuccesses = m.compileSuccesses ∧
      (m.ran x n t).compileUnsupported = m.compileUnsupported ∧
      (m.ran x n t).compileInternal = m.compileInternal ∧
      (m.ran x n t).cacheHits = m.cacheHits ∧ (m.ran x n t).cacheMisses = m.cacheMisses := by
  cases x <;> exact ⟨rfl, rfl, rfl, rfl, rfl, rfl⟩

theorem count_of_transitions {m' : Monitor} (h : m'.transitions = m.transitions) (a b : SiteState) :
    m'.count a b = m.count a b := by
  simp only [count, h]

theorem into_of_transitions {m' : Monitor} (h : m'.transitions = m.transitions) (b : SiteState) :
    m'.into b = m.into b := by
  simp only [into, count_of_transitions h]

theorem Tabled.of_transitions {m' : Monitor} (hm : m.Tabled) (h : m'.transitions = m.transitions) :
    m'.Tabled := by
  constructor
  · rw [h]
    exact hm.distinct
  · rw [h]
    exact hm.edges

@[simp] theorem count_compiled (t : Int) : (m.compiled o t).count a b = m.count a b :=
  count_of_transitions (transitions_compiled o t) a b

@[simp] theorem count_lookedUp (hit : Bool) : (m.lookedUp hit).count a b = m.count a b :=
  count_of_transitions (transitions_lookedUp hit) a b

@[simp] theorem count_ran (x : Bool) (n : Nat) (t : Int) : (m.ran x n t).count a b = m.count a b :=
  count_of_transitions (transitions_ran x n t) a b

@[simp] theorem into_compiled (t : Int) : (m.compiled o t).into b = m.into b :=
  into_of_transitions (transitions_compiled o t) b

@[simp] theorem into_lookedUp (hit : Bool) : (m.lookedUp hit).into b = m.into b :=
  into_of_transitions (transitions_lookedUp hit) b

@[simp] theorem into_ran (x : Bool) (n : Nat) (t : Int) : (m.ran x n t).into b = m.into b :=
  into_of_transitions (transitions_ran x n t) b

/-- Counting a move into `b` counts one more move into `b`, whatever it
came from. -/
theorem into_moved : (m.moved a b).into c = m.into c + if b = c then 1 else 0 := by
  simp only [into, all, List.map_cons, List.map_nil, List.sum_cons, List.sum_nil, count_moved]
  by_cases hbc : b = c <;> cases a <;> simp [hbc] <;> omega

/-! ## The monitor against the cache -/

variable {α : Type} {c : Cache α} {fp : Fingerprint}

/-- The monitor's counters agree with a cache, and its transition counts
with its compile counts. -/
structure Agrees (m : Monitor) (c : Cache α) : Prop where
  sound : c.Sound
  hits : m.cacheHits = c.hits
  misses : m.cacheMisses = c.misses
  /-- Every miss is one compile attempt. -/
  attempts : m.compileAttempts = c.misses
  outcomes : m.compileAttempts = m.compileSuccesses + m.compileUnsupported + m.compileInternal
  /-- Every success is one insertion. -/
  insertions : m.compileSuccesses = c.insertions
  tabled : m.Tabled
  /-- Every attempt is one move into compiling ... -/
  intoCompiling : m.into .compiling = m.compileAttempts
  /-- ... and its outcome the move out of it. -/
  compiled : m.count .compiling .compiled = m.compileSuccesses
  failed : m.count .compiling .permanentlyInterpreted = m.compileUnsupported + m.compileInternal

theorem agrees_new (n : Int) : ({} : Monitor).Agrees (Cache.new n : Cache α) where
  sound := Cache.sound_new n
  hits := rfl
  misses := rfl
  attempts := rfl
  outcomes := rfl
  insertions := rfl
  tabled := ⟨List.nodup_nil, nofun⟩
  intoCompiling := rfl
  compiled := rfl
  failed := rfl

/-- A move that neither enters nor leaves compiling keeps the agreement. -/
theorem Agrees.moved (h : m.Agrees c) (ha : a ≠ .compiling) (hb : b ≠ .compiling) : (m.moved a b).Agrees c where
  sound := h.sound
  hits := by simp [h.hits]
  misses := by simp [h.misses]
  attempts := by simp [h.attempts]
  outcomes := by simp [h.outcomes]
  insertions := by simp [h.insertions]
  tabled := h.tabled.moved a b
  intoCompiling := by simp [into_moved, hb, h.intoCompiling]
  compiled := by simp [count_moved, ha, h.compiled]
  failed := by simp [count_moved, ha, h.failed]

theorem Agrees.ran (h : m.Agrees c) (x : Bool) (n : Nat) (t : Int) : (m.ran x n t).Agrees c where
  sound := h.sound
  hits := by simp [h.hits]
  misses := by simp [h.misses]
  attempts := by simp [h.attempts]
  outcomes := by simp [h.outcomes]
  insertions := by simp [h.insertions]
  tabled := h.tabled.of_transitions (transitions_ran x n t)
  intoCompiling := by simp [h.intoCompiling]
  compiled := by simp [h.compiled]
  failed := by simp [h.failed]

/-- A lookup that hits counts one hit on both sides. -/
theorem Agrees.hit (h : m.Agrees c) (hl : (c.lookup fp).1.isSome) : (m.lookedUp true).Agrees (c.lookup fp).2 := by
  obtain ⟨hhits, hmisses, hins, -, -⟩ := Cache.lookup_counts c fp
  rw [hl] at hhits hmisses
  exact {
    sound := h.sound.lookup fp
    hits := by simp [hhits, h.hits]
    misses := by simp [hmisses, h.misses]
    attempts := by simp [hmisses, h.attempts]
    outcomes := by simp [h.outcomes]
    insertions := by simp [hins, h.insertions]
    tabled := h.tabled.of_transitions (transitions_lookedUp true)
    intoCompiling := by simp [h.intoCompiling]
    compiled := by simp [h.compiled]
    failed := by simp [h.failed] }

/-- The lookup of a fingerprint not cached misses, and the fingerprint is
still not cached. -/
theorem lookup_miss (hl : (c.lookup fp).1 = none) :
    fp ∉ (c.lookup fp).2.keys ∧ (c.lookup fp).2.hits = c.hits ∧ (c.lookup fp).2.misses = c.misses + 1 ∧
      (c.lookup fp).2.insertions = c.insertions := by
  obtain ⟨hhits, hmisses, hins, -, -⟩ := Cache.lookup_counts c fp
  have hkey := Cache.lookup_isSome c fp
  rw [hl] at hhits hmisses hkey
  rw [Cache.lookup_keys]
  exact ⟨by simpa using hkey.symm, by simpa using hhits, by simpa using hmisses, hins⟩

/-- A miss that builds an artifact: one move into compiling and one out of
it to compiled, one attempt, one success, one miss and one insertion. -/
theorem Agrees.built (h : m.Agrees c) (ha : a ≠ .compiling) (hl : (c.lookup fp).1 = none) (x : α) (t : Int) :
    ((((m.moved a .compiling).compiled .ok t).lookedUp false).moved .compiling .compiled).Agrees
      ((c.lookup fp).2.insert fp x) := by
  obtain ⟨hfp, hhits, hmisses, hins⟩ := lookup_miss hl
  obtain ⟨hsound, hins', hhits', hmisses'⟩ := (h.sound.lookup fp).insert hfp x
  exact {
    sound := hsound
    hits := by simp [hhits', hhits, h.hits]
    misses := by simp [hmisses', hmisses, h.misses]
    attempts := by simp [hmisses', hmisses, h.attempts]
    outcomes := by simp [h.outcomes]; omega
    insertions := by simp [hins', hins, h.insertions]
    tabled := (((h.tabled.moved a .compiling).of_transitions (transitions_compiled .ok t)).of_transitions
      (transitions_lookedUp false)).moved .compiling .compiled
    intoCompiling := by simp [into_moved, h.intoCompiling]
    compiled := by simp [count_moved, ha, h.compiled]
    failed := by simp [count_moved, ha, h.failed] }

/-- A miss whose artifact fails to build: one move into compiling and one
out of it to permanent interpretation, one attempt, one failure and one
miss. -/
theorem Agrees.build_failed (h : m.Agrees c) (ha : a ≠ .compiling) (hl : (c.lookup fp).1 = none) (ho : o ≠ .ok)
    (t : Int) :
    ((((m.moved a .compiling).compiled o t).lookedUp false).moved .compiling .permanentlyInterpreted).Agrees
      (c.lookup fp).2 := by
  obtain ⟨-, hhits, hmisses, hins⟩ := lookup_miss hl
  obtain ⟨hsucc, hfail⟩ := compiled_failed (m := m.moved a .compiling) ho t
  simp only [moved_counters] at hsucc hfail
  exact {
    sound := h.sound.lookup fp
    hits := by simp [hhits, h.hits]
    misses := by simp [hmisses, h.misses]
    attempts := by simp [hmisses, h.attempts]
    outcomes := by
      have := h.outcomes
      simp only [moved_counters, lookedUp_counters, compiled_counters]
      omega
    insertions := by simp [hsucc, hins, h.insertions]
    tabled := (((h.tabled.moved a .compiling).of_transitions (transitions_compiled o t)).of_transitions
      (transitions_lookedUp false)).moved .compiling .permanentlyInterpreted
    intoCompiling := by simp [into_moved, h.intoCompiling]
    compiled := by simp [count_moved, ha, hsucc, h.compiled]
    failed := by
      have := h.failed
      simp only [count_moved, count_lookedUp, count_compiled, moved_counters, lookedUp_counters]
      simp [ha]
      omega }

end Monitor

/-! ## The steps of the dispatcher -/

namespace Dispatcher

variable {d : Dispatcher} {p : Nat} {s : Site} {b : SiteState}

theorem monitor_move (hs : d.heap[p]? = some s) (hb : s.state ≠ b) :
    (d.move p b).monitor = d.monitor.moved s.state b := by
  rw [move_of_ne hs hb]

/-- Moving a site neither from nor into compiling keeps the monitor in
agreement with the cache. -/
theorem agrees_move (h : d.monitor.Agrees d.cache) (hs : d.heap[p]? = some s) (ha : s.state ≠ .compiling)
    (hb : b ≠ .compiling) : (d.move p b).monitor.Agrees (d.move p b).cache := by
  by_cases hsb : s.state = b
  · rw [move_of_eq hs hsb]
    exact h
  · rw [move_cache, monitor_move hs hsb]
    exact h.moved ha hb

end Dispatcher

namespace Dispatch

open Dispatcher

variable {d : Dispatcher} {p : Nat} {s : Site}

/-- Acquiring the artifact of a site in the middle of its life keeps the
monitor in agreement with the cache, whether the artifact is cached, built
or fails to build. -/
theorem acquire_agrees (h : d.monitor.Agrees d.cache) (hs : d.heap[p]? = some s) (ho : s.state.Open) :
    ((acquire p).run d).2.monitor.Agrees ((acquire p).run d).2.cache := by
  have hs₁ := heap_move_self hs .compiling
  cases hl : d.cache.lookup s.fingerprint with
  | mk r c =>
    have hc : (d.cache.lookup s.fingerprint).2 = c := by rw [hl]
    cases r with
    | some a =>
      have hhit : (d.cache.lookup s.fingerprint).1.isSome := by rw [hl]; rfl
      rw [acquire_hit hs hl]
      exact agrees_move (hc ▸ h.hit hhit) hs ho.1 nofun
    | none =>
      have hmiss : (d.cache.lookup s.fingerprint).1 = none := by rw [hl]
      have hm₁ : (d.move p .compiling).monitor = d.monitor.moved s.state .compiling := monitor_move hs ho.1
      cases hb : s.build with
      | ok a =>
        rw [acquire_ok hs hl hb]
        simp only
        rw [move_cache, monitor_move (s := { s with state := .compiling }) ?_ ?_, hm₁, ← hc]
        · exact h.built ho.1 hmiss a _
        · exact hs₁
        · simp
      | error e =>
        have hfail : CompileOutcome.of s.build ≠ .ok := by
          rw [hb, CompileOutcome.of]
          split <;> nofun
        rw [acquire_fail hs hl hb]
        simp only
        rw [move_cache, monitor_move (s := { s with state := .compiling }) ?_ ?_, hm₁, ← hc]
        · exact h.build_failed ho.1 hmiss hfail _
        · exact hs₁
        · simp

/-- Promoting a site in the middle of its life keeps the monitor in
agreement with the cache. -/
theorem promote_agrees (h : d.monitor.Agrees d.cache) (hs : d.heap[p]? = some s) (ho : s.state.Open) :
    ((promote p).run d).2.monitor.Agrees ((promote p).run d).2.cache := by
  have hs₁ : ({ d with heap := d.heap.set p (s.planned d) } : Dispatcher).heap[p]? = some (s.planned d) :=
    heap_set_self hs _
  have ho₁ : (s.planned d).state.Open := ho
  rw [promote_run hs]
  split
  · exact agrees_move h hs₁ ho.1 nofun
  · exact acquire_agrees h hs₁ ho₁

/-- Settling a site after a good interpreted execution keeps the monitor in
agreement with the cache. -/
theorem afterRun_agrees (h : d.monitor.Agrees d.cache) (hs : d.heap[p]? = some s) (hc : s.state ≠ .compiling) :
    ((afterRun p).run d).2.monitor.Agrees ((afterRun p).run d).2.cache := by
  by_cases hperm : s.state = .permanentlyInterpreted
  · rw [afterRun_perm hs hperm]
    exact h
  -- first the move to profiling, then perhaps the promotion
  have hfirst : ∃ d₁ s₁, (if s.state = .interpreted then d.move p .profiling else d) = d₁ ∧
      d₁.monitor.Agrees d₁.cache ∧ d₁.heap[p]? = some s₁ ∧ s₁.state.Open := by
    by_cases hi : s.state = .interpreted
    · exact ⟨_, _, if_pos hi, agrees_move h hs hc nofun, heap_move_self hs .profiling, ⟨nofun, nofun⟩⟩
    · exact ⟨d, s, if_neg hi, h, hs, ⟨hc, hperm⟩⟩
  obtain ⟨d₁, s₁, hd₁, h₁, hs₁, ho₁⟩ := hfirst
  rw [afterRun_run hs hperm]
  simp only [hd₁]
  split
  · exact promote_agrees h₁ hs₁ ho₁
  · exact h₁

end Dispatch

namespace Dispatcher

variable {o : DispatchOptions} {d : Dispatcher} {runs : String → Nat}

/-- Every step the interpreter may take keeps the monitor in agreement with
the cache. -/
theorem Lifecycle.agrees_step (hl : d.Lifecycle o runs) (h : d.monitor.Agrees d.cache) {st : Dispatch.Step}
    (ha : st.Allowed d) : (st.apply d).monitor.Agrees (st.apply d).cache := by
  cases st with
  | meet l =>
    obtain ⟨hc, hm, -⟩ := (met_meet hl.mapped l).aside
    show ((Dispatch.meet l).run d).2.monitor.Agrees ((Dispatch.meet l).run d).2.cache
    rw [hc, hm]
    exact h
  | acquire p =>
    obtain ⟨s, hs, hcomp⟩ := ha
    exact Dispatch.acquire_agrees h hs (by rw [hcomp]; exact ⟨nofun, nofun⟩)
  | afterRun p =>
    show ((Dispatch.afterRun p).run d).2.monitor.Agrees ((Dispatch.afterRun p).run d).2.cache
    cases hs : d.heap[p]? with
    | none =>
      rw [Dispatch.afterRun_none hs]
      exact h
    | some s => exact Dispatch.afterRun_agrees h hs (stateAt_of_some hs ▸ hl.notCompiling p)
  | fail p e =>
    -- leaving compiled for permanent interpretation is no compile attempt
    obtain ⟨s, -, hs, hcomp, -⟩ := ha
    show ((Dispatch.fail p e).run d).2.monitor.Agrees ((Dispatch.fail p e).run d).2.cache
    rw [Dispatch.fail_run hs]
    exact agrees_move (d := { d with failed := d.failed ++ [(s.fingerprint, e)] }) h hs
      (by rw [hcomp]; nofun) nofun
  | record id c n => exact h.ran c n _

/-- In every dispatcher the interpreter reaches, the monitor agrees with the
cache. -/
theorem Reach.agrees (h : d.Reach o runs) : d.monitor.Agrees d.cache := by
  induction h with
  | start => exact Monitor.agrees_new o.cacheCapacity
  | step hr ha ih => exact hr.lifecycle.agrees_step ih ha
  | clear _ ih => exact ih

/-! ## Transitions logged and counted -/

variable {d₁ d₂ d' : Dispatcher} {p : Nat} {s : Site} {b : SiteState}

/-- `d'` has logged, after the transitions of `d`, transitions that its
monitor counted: each edge counts in `d'` what it counted in `d` and the
new transitions on it. -/
def Logged (d d' : Dispatcher) : Prop :=
  ∃ es : List (String × SiteState × SiteState), d'.log.toList = d.log.toList ++ es ∧
    ∀ a b, d'.monitor.count a b = d.monitor.count a b + es.countP (·.2 = (a, b))

theorem Logged.refl (d : Dispatcher) : Logged d d :=
  ⟨[], by simp, fun a b => by simp⟩

theorem Logged.trans (h₁ : Logged d d₁) (h₂ : Logged d₁ d₂) : Logged d d₂ := by
  obtain ⟨es₁, hl₁, hc₁⟩ := h₁
  obtain ⟨es₂, hl₂, hc₂⟩ := h₂
  refine ⟨es₁ ++ es₂, by rw [hl₂, hl₁, List.append_assoc], fun a b => ?_⟩
  rw [hc₂, hc₁, List.countP_append, Nat.add_assoc]

/-- A change that keeps the log and the monitor's table logs nothing. -/
theorem Logged.aside (hl : d'.log = d.log) (ht : d'.monitor.transitions = d.monitor.transitions) :
    Logged d d' :=
  ⟨[], by simp [hl], fun a b => by simp [Monitor.count_of_transitions ht]⟩

/-- A move logs the transition it counts, if any. -/
theorem logged_move (d : Dispatcher) (p : Nat) (b : SiteState) : Logged d (d.move p b) := by
  cases hs : d.heap[p]? with
  | none =>
    rw [move_of_none hs]
    exact .refl d
  | some s =>
    by_cases hb : s.state = b
    · rw [move_of_eq hs hb]
      exact .refl d
    · refine ⟨[(s.id, s.state, b)], ?_, fun a c => ?_⟩
      · rw [move_of_ne hs hb]
        simp
      · rw [monitor_move hs hb, Monitor.count_moved]
        simp

end Dispatcher

namespace Dispatch

open Dispatcher

/-- Acquiring, promoting and settling log every transition they count. -/
theorem logged_closed : Closed Logged where
  refl := Logged.refl
  trans := Logged.trans
  move := logged_move
  plan _ _ _ := Logged.aside rfl rfl
  hit _ _ := Logged.aside rfl (by simp)
  built _ _ _ := Logged.aside rfl (by simp)
  failed _ _ _ _ _ := Logged.aside rfl (by simp)

end Dispatch

namespace Dispatcher

variable {o : DispatchOptions} {d d' : Dispatcher} {runs : String → Nat}

/-- Every step logs what the monitor counts. -/
theorem Logged.step (hmap : d.Mapped) (st : Dispatch.Step) : Logged d (st.apply d) := by
  cases st with
  | meet l =>
    have hm := met_meet hmap l
    exact Logged.aside hm.log (congrArg Monitor.transitions hm.aside.2.1)
  | acquire p => exact Dispatch.logged_closed.acquire d p
  | afterRun p => exact Dispatch.logged_closed.afterRun d p
  | fail p e =>
    cases hs : d.heap[p]? with
    | none =>
      show Logged d ((Dispatch.fail p e).run d).2
      rw [Dispatch.fail_none hs]
      exact .refl d
    | some s =>
      show Logged d ((Dispatch.fail p e).run d).2
      rw [Dispatch.fail_run hs]
      exact (Logged.aside rfl rfl).trans (logged_move _ p _)
  | record id c n => exact Logged.aside rfl (Monitor.transitions_ran c n _)

/-- From a reached dispatcher, whatever steps follow log what the monitor
counts. -/
theorem Reach.logged (h : d.Reach o runs) (hr : d.Reaches d') : Logged d d' := by
  induction hr with
  | refl => exact .refl d
  | tail hr₁ hnext ih =>
    obtain ⟨st, -, rfl⟩ := hnext
    obtain ⟨runs₁, h₁⟩ := h.of_reaches hr₁
    exact ih.trans (Logged.step h₁.lifecycle.mapped st)

end Dispatcher

/-! ## Runs of programs -/

namespace Machine

variable {o : DispatchOptions} {m : Machine} {d : Dispatcher} {runs : String → Nat}

/-- The calls of the transition hook on the edge `a → b` that the last run
on a machine made: the transitions on that edge its dispatcher logged. -/
def calls (m : Machine) (a b : SiteState) : Nat :=
  (m.dispatcher.map fun d => d.log.toList.countP (·.2 = (a, b))).getD 0

theorem execAll_cons (prog : List Stmt) (globals : Bindings) (rest : List (List Stmt × Bindings)) :
    m.execAll ((prog, globals) :: rest) = m.exec prog globals :: (m.exec prog globals).2.execAll rest :=
  rfl

/-- A run on a machine whose dispatcher is reached counts, on every edge,
the calls of the hook it made. -/
theorem exec_counts (hm : m.dispatcher = some d) (h : d.Reach o runs) (prog : List Stmt) (globals : Bindings) :
    ∃ d' runs', (m.exec prog globals).2.dispatcher = some d' ∧ d'.Reach o runs' ∧
      ∀ a b, d'.monitor.count a b = d.monitor.count a b + (m.exec prog globals).2.calls a b := by
  rcases m.exec_reaches prog globals with ⟨h₀, -⟩ | ⟨d₀, d', h₀, h', hr⟩
  · simp [hm] at h₀
  · simp only [hm, Option.map_some, Option.some.injEq] at h₀
    subst h₀
    obtain ⟨runs', h''⟩ := h.clear.of_reaches hr
    -- the run starts from an empty log, so its log is what it logged
    obtain ⟨es, hlog, hcount⟩ := h.clear.logged hr
    refine ⟨d', runs', h', h'', fun a b => ?_⟩
    rw [hcount, calls, h', Option.map_some, Option.getD_some, hlog]
    simp

/-- Runs of programs one after another, from a machine whose dispatcher is
reached, count on every edge the calls of the hook they made. -/
theorem execAll_counts (progs : List (List Stmt × Bindings)) :
    ∀ (m : Machine) (d : Dispatcher) (runs : String → Nat), m.dispatcher = some d → d.Reach o runs →
      ∀ pre r post, m.execAll progs = pre ++ r :: post →
        ∃ d' runs', r.2.dispatcher = some d' ∧ d'.Reach o runs' ∧
          ∀ a b, d'.monitor.count a b = d.monitor.count a b + ((pre ++ [r]).map fun x => x.2.calls a b).sum := by
  induction progs with
  | nil =>
    intro m d runs _ _ pre r post hrun
    simp [execAll] at hrun
  | cons pg rest ih =>
    intro m d runs hm h pre r post hrun
    obtain ⟨prog, globals⟩ := pg
    obtain ⟨d₁, runs₁, h₁, hreach₁, hcount₁⟩ := exec_counts hm h prog globals
    rw [execAll_cons] at hrun
    cases pre with
    | nil =>
      obtain ⟨rfl, -⟩ := List.cons.inj hrun
      exact ⟨d₁, runs₁, h₁, hreach₁, fun a b => by simp [hcount₁]⟩
    | cons x pre =>
      obtain ⟨rfl, hrest⟩ := List.cons.inj hrun
      obtain ⟨d', runs', h', hreach', hcount'⟩ := ih _ d₁ runs₁ h₁ hreach₁ pre r post hrest
      refine ⟨d', runs', h', hreach', fun a b => ?_⟩
      rw [hcount', hcount₁]
      simp [Nat.add_assoc]

/-- The monitor's counters agree with the cache and with the calls of the
transition hook. After every run of a sequence of programs on a machine that
dispatches through a fresh dispatcher, with `pre` the runs before it:
* the monitor counts the cache's hits and misses, every miss is one compile
  attempt, every attempt has one of three outcomes, and every success is
  one insertion;
* the cache holds its insertions less its evictions, within its capacity;
* the monitor's table lists edges only, each once, and counts on each edge
  the calls of the hook on it over all the runs so far;
* the moves into compiling are the attempts, those from compiling to
  compiled the successes, and those from compiling to permanent
  interpretation the failures. -/
theorem execAll_counters_agree (o : DispatchOptions) (progs : List (List Stmt × Bindings))
    {pre post : List (Except Error Signal × Machine)} {r : Except Error Signal × Machine}
    (hrun : (Machine.dispatching o).execAll progs = pre ++ r :: post) :
    ∃ d, r.2.dispatcher = some d ∧
      d.monitor.cacheHits = d.cache.hits ∧
      d.monitor.cacheMisses = d.cache.misses ∧ d.cache.misses = d.monitor.compileAttempts ∧
      d.monitor.compileAttempts =
        d.monitor.compileSuccesses + d.monitor.compileUnsupported + d.monitor.compileInternal ∧
      d.monitor.compileSuccesses = d.cache.insertions ∧
      d.cache.entries.length = d.cache.insertions - d.cache.evictions ∧
      d.cache.entries.length ≤ d.cache.capacity ∧
      (d.monitor.transitions.map (·.1)).Nodup ∧
      (∀ t ∈ d.monitor.transitions.map (·.1), ∃ a b, t = SiteState.edge a b) ∧
      (∀ a b, d.monitor.count a b = ((pre ++ [r]).map fun x => x.2.calls a b).sum) ∧
      d.monitor.into .compiling = d.monitor.compileAttempts ∧
      d.monitor.count .compiling .compiled = d.monitor.compileSuccesses ∧
      d.monitor.count .compiling .permanentlyInterpreted =
        d.monitor.compileUnsupported + d.monitor.compileInternal := by
  obtain ⟨d, runs, hd, hreach, hcount⟩ := execAll_counts progs _ _ _ rfl .start pre r post hrun
  have h := hreach.agrees
  have hacc := h.sound.accounted
  refine ⟨d, hd, h.hits, h.misses, h.attempts.symm, h.outcomes, h.insertions, by omega, h.sound.bounded,
    h.tabled.distinct, h.tabled.edges, fun a b => ?_, h.intoCompiling, h.compiled, h.failed⟩
  -- a fresh monitor has counted nothing
  rw [hcount]
  simp [Monitor.count, Dispatcher.new]

/-- `for r in 0..3 { sum loop; double loop }` at 1:1: the two loops of the
evicting run, three times each. -/
def evictingProgram : List Stmt :=
  [.loop 2 ⟨1, 1⟩ (.range "r" (.int ⟨1, 15⟩ 0) (.int ⟨1, 18⟩ 3) none)
    [Dispatch.sumLoop.toStmt, Dispatch.doubleLoop.toStmt]]

/-- The evicting program run twice on one machine, each loop compiled after
its first execution into a cache of one entry. In the first run the two inner
loops are compiled again on every round, each compilation evicting the other
loop's artifact, and the outer loop is compiled at its end: seven
compilations and six evictions. The second run finds the outer loop's
artifact in the cache. After it the counters agree, and the monitor counts
on each edge the hook's calls of both runs. -/
theorem execAll_counters_agree_evicting :
    let globals : Bindings := [("s", .int 0), ("t", .int 0)]
    let first := (Machine.dispatching Dispatch.eagerOptions).exec evictingProgram globals
    let second := first.2.exec evictingProgram globals
    (Machine.dispatching Dispatch.eagerOptions).execAll [(evictingProgram, globals), (evictingProgram, globals)] =
      [first] ++ second :: [] ∧
    second.2.dispatcher.map (fun d => (d.monitor.compileSuccesses, d.cache.evictions, d.cache.hits)) =
      some (7, 6, 1) ∧
    ∃ d, second.2.dispatcher = some d ∧
      d.monitor.cacheHits = d.cache.hits ∧
      d.monitor.cacheMisses = d.cache.misses ∧ d.cache.misses = d.monitor.compileAttempts ∧
      d.monitor.compileAttempts =
        d.monitor.compileSuccesses + d.monitor.compileUnsupported + d.monitor.compileInternal ∧
      d.monitor.compileSuccesses = d.cache.insertions ∧
      d.cache.entries.length = d.cache.insertions - d.cache.evictions ∧
      d.cache.entries.length ≤ d.cache.capacity ∧
      (d.monitor.transitions.map (·.1)).Nodup ∧
      (∀ t ∈ d.monitor.transitions.map (·.1), ∃ a b, t = SiteState.edge a b) ∧
      (∀ a b, d.monitor.count a b = ([first, second].map fun x => x.2.calls a b).sum) ∧
      d.monitor.into .compiling = d.monitor.compileAttempts ∧
      d.monitor.count .compiling .compiled = d.monitor.compileSuccesses ∧
      d.monitor.count .compiling .permanentlyInterpreted =
        d.monitor.compileUnsupported + d.monitor.compileInternal := by
  intro globals first second
  have hrun : (Machine.dispatching Dispatch.eagerOptions).execAll
      [(evictingProgram, globals), (evictingProgram, globals)] = [first] ++ second :: [] := rfl
  refine ⟨hrun, ?_, execAll_counters_agree Dispatch.eagerOptions _ hrun⟩
  -- the kernel runs both programs for the counts
  unfold second first globals
  decide +kernel

end Machine

end HotLoop
