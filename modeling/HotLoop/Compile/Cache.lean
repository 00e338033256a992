import HotLoop.Compile.Code
import HotLoop.Float.Double
/-!
# HotLoop.Compile.Cache

Compiled loops by fingerprint, at most `capacity` of them. A logical clock
ticks once per lookup. Every entry counts its hits and remembers the tick of
its last hit or insertion; its score, `(hits + 1) / (1 + idle ticks)`,
favours entries hit often and used recently. A full cache evicts the entry
of least score; among equal scores the one inserted first, then the one
whose fingerprint text is smallest. Eviction is therefore deterministic.

The cache is generic in what it stores, so it can hold artifacts as well
as plain tags.
-/

namespace HotLoop

/-- A cached item with its use counters. -/
structure CacheEntry (α : Type) where
  item : α
  hits : Nat := 0
  /-- Tick of the last hit or insertion. -/
  lastUsed : Nat
  /-- Tick of the insertion. -/
  inserted : Nat

/-- Counters of a cache. -/
structure CacheStats where
  entries : Nat
  capacity : Nat
  hits : Nat
  misses : Nat
  insertions : Nat
  evictions : Nat
  deriving Repr

/-- Hits over lookups, 0 before the first lookup. -/
def CacheStats.hitRate (s : CacheStats) : Double :=
  if s.hits + s.misses = 0 then ⟨0⟩
  else Double.div (Double.ofUInt64 s.hits.toUInt64) (Double.ofUInt64 (s.hits + s.misses).toUInt64)

/-- A bounded map from fingerprints to items. -/
structure Cache (α : Type) where
  entries : List (Fingerprint × CacheEntry α) := []
  capacity : Nat
  ticks : Nat := 0
  hits : Nat := 0
  misses : Nat := 0
  insertions : Nat := 0
  evictions : Nat := 0

instance {α : Type} : Inhabited (Cache α) := ⟨{ capacity := 0 }⟩

/-- The capacity a fresh cache takes when none is given. -/
def Cache.defaultCapacity : Nat := 256

namespace Cache

variable {α : Type}

/-- An empty cache; a capacity of zero or less takes the default. -/
def new (capacity : Int) : Cache α :=
  { capacity := if capacity ≤ 0 then defaultCapacity else capacity.toNat }

/-- The score of an entry at tick `now`. -/
def score (e : CacheEntry α) (now : Nat) : Double :=
  Double.div (Double.ofUInt64 (e.hits + 1).toUInt64) (Double.ofUInt64 (1 + (now - e.lastUsed)).toUInt64)

/-- Whether entry `a` goes before entry `b` when their scores tie. -/
def older (a : Fingerprint × CacheEntry α) (b : Fingerprint × CacheEntry α) : Bool :=
  if a.2.inserted ≠ b.2.inserted then a.2.inserted < b.2.inserted
  else a.1.text < b.1.text

/-- The entry to evict at tick `now`. -/
def victim? (c : Cache α) (now : Nat) : Option Fingerprint :=
  let pick (best : Option (Fingerprint × CacheEntry α × Double)) (e : Fingerprint × CacheEntry α) :=
    let s := score e.2 now
    match best with
    | none => some (e.1, e.2, s)
    | some (f, b, low) =>
      if s.lt low ∨ (s.numEq low ∧ older e (f, b)) then some (e.1, e.2, s) else best
  (c.entries.foldl pick none).map (·.1)

/-- The item of a fingerprint; counts a hit or a miss and ticks. -/
def lookup (c : Cache α) (fp : Fingerprint) : Option α × Cache α :=
  let now := c.ticks + 1
  let c := { c with ticks := now }
  match c.entries.find? (·.1 = fp) with
  | some (_, e) =>
    let e := { e with lastUsed := now, hits := e.hits + 1 }
    (some e.item, { c with entries := c.entries.map (fun p => if p.1 = fp then (fp, e) else p),
                           hits := c.hits + 1 })
  | none => (none, { c with misses := c.misses + 1 })

/-- Whether a fingerprint is cached; counts nothing. -/
def contains (c : Cache α) (fp : Fingerprint) : Bool := c.entries.any (·.1 = fp)

/-- Store an item, replacing the item of a cached fingerprint, else
evicting first when full. -/
def insert (c : Cache α) (fp : Fingerprint) (a : α) : Cache α :=
  let now := c.ticks
  if c.contains fp then
    { c with entries := c.entries.map fun p =>
        if p.1 = fp then (fp, { p.2 with item := a, inserted := now, lastUsed := now }) else p }
  else
    let c := if c.entries.length ≥ c.capacity then
        match c.victim? now with
        | some v => { c with entries := c.entries.filter (·.1 ≠ v), evictions := c.evictions + 1 }
        | none => c
      else c
    { c with entries := c.entries ++ [(fp, { item := a, lastUsed := now, inserted := now })],
             insertions := c.insertions + 1 }

/-- The cached item of `fp`, or the result of `compile`, stored when it
succeeds. The flag tells whether the item came from the cache. -/
def getOrCompile {m : Type → Type} [Monad m] {ε : Type} (c : Cache α) (fp : Fingerprint)
    (compile : m (Except ε α)) : m (Except ε (α × Bool) × Cache α) := do
  match c.lookup fp with
  | (some a, c) => return (.ok (a, true), c)
  | (none, c) =>
    match ← compile with
    | .error e => return (.error e, c)
    | .ok a => return (.ok (a, false), c.insert fp a)

/-- The cached items ordered by fingerprint text. -/
def items (c : Cache α) : List (Fingerprint × α) :=
  (c.entries.map fun (f, e) => (f, e.item)).mergeSort fun a b => a.1.text ≤ b.1.text

/-- Drop every entry; the counters stay. -/
def purge (c : Cache α) : Cache α := { c with entries := [] }

/-- The counters. -/
def stats (c : Cache α) : CacheStats :=
  { entries := c.entries.length, capacity := c.capacity, hits := c.hits, misses := c.misses,
    insertions := c.insertions, evictions := c.evictions }

/-! ## Commands -/

/-- What can be asked of a cache. A compile request carries the outcome the
compiler would give, so that the cache's own decisions can be followed step
by step: whether it compiles at all, and what it keeps. -/
inductive Command (α ε : Type) where
  | insert (fp : Fingerprint) (a : α)
  | lookup (fp : Fingerprint)
  | contains (fp : Fingerprint)
  | getOrCompile (fp : Fingerprint) (outcome : Except ε α)
  | purge
  | stats
  | items

/-- The answer to a cache command. -/
inductive Reply (α ε : Type) where
  | size (n : Nat)
  | found (a : Option α)
  | contains (b : Bool)
  /-- The item and whether it was a hit, or the compile failure; and whether
  the compiler ran. -/
  | got (r : Except ε (α × Bool)) (compiled : Bool)
  | stats (s : CacheStats)
  | items (l : List (Fingerprint × α))

/-- Carry out one command. -/
def step {ε : Type} (c : Cache α) : Command α ε → Reply α ε × Cache α
  | .insert fp a => let c := c.insert fp a; (.size c.entries.length, c)
  | .lookup fp => let (a, c) := c.lookup fp; (.found a, c)
  | .contains fp => (.contains (c.contains fp), c)
  | .getOrCompile fp outcome =>
    let compile : StateM Bool (Except ε α) := do
      set true
      return outcome
    let ((r, c), compiled) := (c.getOrCompile fp compile).run false
    (.got r compiled, c)
  | .purge => let c := c.purge; (.size c.entries.length, c)
  | .stats => (.stats c.stats, c)
  | .items => (.items c.items, c)

end Cache

end HotLoop
