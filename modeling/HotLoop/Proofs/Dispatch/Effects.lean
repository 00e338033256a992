import HotLoop.Dispatch.Core
/-!
# HotLoop.Proofs.Dispatch.Effects

What each bookkeeping step does to the dispatcher, as equations that later
proofs rewrite with instead of unfolding the steps.

* Moving a site to a state changes that site's state, counts the move and
  logs it with the state the site held; a site already in the state, or a
  number with no site, is left alone (`move`).
* Acquiring the artifact of a site looks its fingerprint up in the cache.
  On a hit the site becomes compiled. On a miss it goes to compiling, is
  compiled, and becomes compiled with the artifact cached, or permanently
  interpreted with its fingerprint remembered as failed.
* Promoting a site gives it the plan and fingerprint of its profile, then
  sends it to permanent interpretation when that fingerprint failed before,
  and acquires its artifact otherwise.
* After an interpreted execution that ended well, a site that is not
  permanently interpreted starts profiling if it had not, and is promoted
  when hot.
* Meeting a loop returns the site of its identity when it holds that very
  loop, updates it when it holds a loop of the same shape, and otherwise
  makes a fresh site for the identity, dropping the identity's profile
  when a site of another shape held it.
* Recording an execution and compiling a site each read the clock once:
  the time of the step is the clock's reading at the number of steps timed
  so far (`Dispatcher.now`), and that number goes up by one.
* A relation that holds of each change these steps are made of holds of
  whole acquisitions, promotions and settlings (`Dispatch.Closed`).
-/

namespace HotLoop

/-- What compiling a site gives: its loop compiled with its plan under its
fingerprint. -/
def Site.build (s : Site) : Except Error Artifact :=
  s.loop.compile s.shape (s.plan.getD { loop := s.loop.key }) s.fingerprint true

@[simp] theorem Site.build_state (s : Site) (b : SiteState) : ({ s with state := b } : Site).build = s.build :=
  rfl

/-- Site `s` updated for loop `l`: its loop, shape and classification. -/
def Site.renew (s : Site) (l : Loop) : Site :=
  { s with loop := l, shape := l.shape, nodes := l.nodes.toArray, tier := tierOf l.body, access := l.access }

/-- The site a loop gets at its first meeting: interpreted, unplanned. -/
def Loop.site (l : Loop) : Site :=
  { id := l.id, loop := l, shape := l.shape, nodes := l.nodes.toArray, tier := tierOf l.body,
    access := l.access }

/-- Site `s` with the plan and fingerprint that the profile of its identity
in `d` gives it. -/
def Site.planned (s : Site) (d : Dispatcher) : Site :=
  let prof := (d.profiler.get? s.id).getD { id := s.id }
  let sel := Selection.choose d.plan s.loop s.shape prof.tier prof.access
  { s with plan := some sel, fingerprint := Fingerprint.of s.shape prof.tier sel.set }

namespace Dispatcher

/-- The time of the next timed step. -/
def now (d : Dispatcher) : Int64 := (d.clock d.ticks).toInt64

/-- The site of identity `id` with its number. -/
def siteOf? (d : Dispatcher) (id : String) : Option (Nat × Site) :=
  (d.siteAt? id).bind fun p => d.heap[p]?.map (p, ·)

theorem siteOf?_eq_some {d : Dispatcher} {id : String} {p : Nat} {s : Site} :
    d.siteOf? id = some (p, s) ↔ d.siteAt? id = some p ∧ d.heap[p]? = some s := by
  simp only [siteOf?, Option.bind_eq_some_iff, Option.map_eq_some_iff, Prod.mk.injEq]
  constructor
  · rintro ⟨q, hq, t, ht, rfl, rfl⟩
    exact ⟨hq, ht⟩
  · rintro ⟨hq, ht⟩
    exact ⟨p, hq, s, ht, rfl, rfl⟩

/-- The site table with `id` pointing to site `p`. -/
def point (sites : List (String × Nat)) (id : String) (p : Nat) : List (String × Nat) :=
  if sites.any (·.1 = id) then sites.map fun e => if e.1 = id then (e.1, p) else e
  else sites ++ [(id, p)]

/-- The dispatcher with site `s` added under the next number, which its
identity now points to. -/
def adopt (d : Dispatcher) (s : Site) : Dispatcher :=
  { d with heap := d.heap ++ [s], sites := point d.sites s.id d.heap.length }

/-- The dispatcher with site `p` moved to state `b`, the move counted and
logged. -/
def move (d : Dispatcher) (p : Nat) (b : SiteState) : Dispatcher :=
  match d.heap[p]? with
  | some s =>
    if s.state = b then d
    else { d with heap := d.heap.set p { s with state := b }, monitor := d.monitor.moved s.state b,
                  log := d.log.push (s.id, s.state, b) }
  | none => d

variable {d : Dispatcher} {p q : Nat} {b : SiteState} {s : Site}

theorem move_of_ne (hs : d.heap[p]? = some s) (hb : s.state ≠ b) :
    d.move p b = { d with heap := d.heap.set p { s with state := b },
                          monitor := d.monitor.moved s.state b, log := d.log.push (s.id, s.state, b) } := by
  simp only [move, hs, hb, if_false]

theorem move_of_eq (hs : d.heap[p]? = some s) (hb : s.state = b) : d.move p b = d := by
  simp only [move, hs, hb, if_true]

theorem move_of_none (hs : d.heap[p]? = none) : d.move p b = d := by
  simp only [move, hs]

/-- Moving a site changes its state and nothing else of any site. -/
theorem heap_move (d : Dispatcher) (p : Nat) (b : SiteState) (q : Nat) :
    (d.move p b).heap[q]? = if q = p then d.heap[p]?.map ({ · with state := b }) else d.heap[q]? := by
  cases hs : d.heap[p]? with
  | none =>
    rw [move_of_none hs]
    split
    · subst q; exact hs
    · rfl
  | some s =>
    by_cases hb : s.state = b
    · rw [move_of_eq hs hb]
      split
      · subst q; rw [hs, ← hb]; rfl
      · rfl
    · rw [move_of_ne hs hb]
      by_cases hq : q = p
      · subst q
        have hp : p < d.heap.length := (List.getElem?_eq_some_iff.1 hs).1
        simp [hp]
      · simp [hq, List.getElem?_set_ne (Ne.symm hq)]

@[simp] theorem move_sites : (d.move p b).sites = d.sites := by
  unfold move; split
  · split <;> rfl
  · rfl

@[simp] theorem move_length : (d.move p b).heap.length = d.heap.length := by
  unfold move; split
  · split
    · rfl
    · simp only [List.length_set]
  · rfl

@[simp] theorem move_profiler : (d.move p b).profiler = d.profiler := by
  unfold move; split
  · split <;> rfl
  · rfl

@[simp] theorem move_cache : (d.move p b).cache = d.cache := by
  unfold move; split
  · split <;> rfl
  · rfl

@[simp] theorem move_failed : (d.move p b).failed = d.failed := by
  unfold move; split
  · split <;> rfl
  · rfl

@[simp] theorem move_plan : (d.move p b).plan = d.plan := by
  unfold move; split
  · split <;> rfl
  · rfl

@[simp] theorem move_clock : (d.move p b).clock = d.clock := by
  unfold move; split
  · split <;> rfl
  · rfl

@[simp] theorem move_ticks : (d.move p b).ticks = d.ticks := by
  unfold move; split
  · split <;> rfl
  · rfl

end Dispatcher

namespace Dispatch

variable {d : Dispatcher} {p : Nat} {s : Site} {l : Loop}

/-! ### Running steps

A bookkeeping step is a state transformer; these equations run its parts
without going through the monad's general laws. -/

theorem run_bind {α β : Type} (x : Dispatch α) (f : α → Dispatch β) (d : Dispatcher) :
    (x >>= f).run d = (f (x.run d).1).run (x.run d).2 := rfl

theorem run_pure {α : Type} (a : α) (d : Dispatcher) : (pure a : Dispatch α).run d = (a, d) := rfl

theorem run_get (d : Dispatcher) : (get : Dispatch Dispatcher).run d = (d, d) := rfl

/-- Reading the dispatcher substitutes it everywhere, instances included. -/
theorem run_get_bind {β : Type} (f : Dispatcher → Dispatch β) (d : Dispatcher) :
    (get >>= f).run d = (f d).run d := rfl

theorem run_site_bind {β : Type} (p : Nat) (f : Option Site → Dispatch β) (d : Dispatcher) :
    (site? p >>= f).run d = (f d.heap[p]?).run d := rfl

theorem run_set (d d' : Dispatcher) : (set d' : Dispatch Unit).run d = ((), d') := rfl

theorem run_modify (f : Dispatcher → Dispatcher) (d : Dispatcher) :
    (modify f : Dispatch Unit).run d = ((), f d) := rfl

theorem moveTo_run (p : Nat) (b : SiteState) (d : Dispatcher) :
    (moveTo p b).run d = ((), d.move p b) := by
  unfold moveTo Dispatcher.move
  cases hs : d.heap[p]? with
  | none => simp [site?, hs]; rfl
  | some s =>
    by_cases hb : s.state = b
    · simp [site?, hs, hb]; rfl
    · simp [site?, store, hs, hb]; rfl

theorem measure_run (d : Dispatcher) : measure.run d = (d.now, { d with ticks := d.ticks + 1 }) := rfl

theorem site?_run (p : Nat) (d : Dispatcher) : (site? p).run d = (d.heap[p]?, d) := rfl

theorem compile_run (hs : d.heap[p]? = some s) :
    (compile p).run d =
      (s.build, { d with monitor := d.monitor.compiled (.of s.build) d.now.toInt, ticks := d.ticks + 1 }) := by
  simp only [compile, run_bind, site?_run, hs, measure_run, run_modify, run_pure]
  rfl

theorem fail_run (hs : d.heap[p]? = some s) (e : Error) :
    (fail p e).run d =
      ((), { d with failed := d.failed ++ [(s.fingerprint, e)] }.move p .permanentlyInterpreted) := by
  simp [fail, site?, hs, moveTo_run]

theorem fail_none (hs : d.heap[p]? = none) (e : Error) : (fail p e).run d = ((), d) := by
  simp [fail, site?, hs]; rfl

theorem acquire_none (hs : d.heap[p]? = none) : (acquire p).run d = (none, d) := by
  simp [acquire, site?, hs]; rfl

/-- A cached artifact: the site becomes compiled. -/
theorem acquire_hit (hs : d.heap[p]? = some s) {a : Artifact} {c : Cache Artifact}
    (hl : d.cache.lookup s.fingerprint = (some a, c)) :
    (acquire p).run d = (some a, { d with cache := c, monitor := d.monitor.lookedUp true }.move p .compiled) := by
  simp [acquire, site?, hs, Cache.getOrCompile, hl, moveTo_run]; rfl

/-- A site moved to another state keeps everything else. -/
theorem heap_move_self (hs : d.heap[p]? = some s) (b : SiteState) :
    (d.move p b).heap[p]? = some { s with state := b } := by
  rw [Dispatcher.heap_move, if_pos rfl, hs]; rfl

/-- An artifact not cached that builds: the site goes through compiling to
compiled, and the artifact is cached. -/
theorem acquire_ok (hs : d.heap[p]? = some s) {c : Cache Artifact}
    (hl : d.cache.lookup s.fingerprint = (none, c)) {a : Artifact} (hr : s.build = .ok a) :
    (acquire p).run d =
      (some a, let d₁ := d.move p .compiling
               { d₁ with cache := c.insert s.fingerprint a,
                         monitor := (d₁.monitor.compiled .ok d₁.now.toInt).lookedUp false,
                         ticks := d₁.ticks + 1 }.move p .compiled) := by
  have hs' := heap_move_self hs .compiling
  simp only [acquire, site?, run_bind, run_get, run_pure, run_modify, hs, Cache.getOrCompile, hl,
    moveTo_run, compile_run hs', Site.build_state, hr]
  rfl

/-- An artifact not cached that fails to build: the site goes through
compiling to permanent interpretation, and its fingerprint is remembered as
failed. -/
theorem acquire_fail (hs : d.heap[p]? = some s) {c : Cache Artifact}
    (hl : d.cache.lookup s.fingerprint = (none, c)) {e : Error} (hr : s.build = .error e) :
    (acquire p).run d =
      (none, let d₁ := d.move p .compiling
             { d₁ with cache := c, monitor := (d₁.monitor.compiled (.of s.build) d₁.now.toInt).lookedUp false,
                       failed := d₁.failed ++ [(s.fingerprint, e)],
                       ticks := d₁.ticks + 1 }.move p .permanentlyInterpreted) := by
  have hs' := heap_move_self hs .compiling
  simp only [acquire, site?, run_bind, run_get, run_pure, run_modify, hs, Cache.getOrCompile, hl,
    moveTo_run, compile_run hs', Site.build_state, hr, fail, hs']

theorem promote_none (hs : d.heap[p]? = none) : (promote p).run d = ((), d) := by
  simp [promote, site?, hs]; rfl

/-- Promotion plans the site; a fingerprint that failed before sends it to
permanent interpretation, any other is acquired. -/
theorem promote_run (hs : d.heap[p]? = some s) :
    (promote p).run d =
      let d₁ := { d with heap := d.heap.set p (s.planned d) }
      if d.failed.any (·.1 = (s.planned d).fingerprint) then ((), d₁.move p .permanentlyInterpreted)
      else ((), ((acquire p).run d₁).2) := by
  simp only [promote, run_site_bind, hs, run_get_bind]
  simp only [store, run_bind, run_modify]
  by_cases hf : d.failed.any (·.1 = (s.planned d).fingerprint) = true
  · have hf' := hf
    simp only [Site.planned] at hf'
    rw [if_pos hf]
    split
    · simp only [moveTo_run, run_bind, run_pure]
      rfl
    · contradiction
  · have hf' := hf
    simp only [Site.planned] at hf'
    rw [if_neg hf]
    split
    · contradiction
    · simp only [run_bind, run_pure]
      rfl

theorem afterRun_none (hs : d.heap[p]? = none) : (afterRun p).run d = ((), d) := by
  simp [afterRun, site?, hs]; rfl

theorem afterRun_perm (hs : d.heap[p]? = some s) (hb : s.state = .permanentlyInterpreted) :
    (afterRun p).run d = ((), d) := by
  simp [afterRun, site?, hs, hb]; rfl

/-- After a good interpreted execution a site not permanently interpreted
starts profiling if it was interpreted, and is promoted when its identity
is hot. -/
theorem afterRun_run (hs : d.heap[p]? = some s) (hb : s.state ≠ .permanentlyInterpreted) :
    (afterRun p).run d =
      let d₁ := if s.state = .interpreted then d.move p .profiling else d
      if d.profiler.shouldCompile s.id then (promote p).run d₁ else ((), d₁) := by
  by_cases hi : s.state = .interpreted
  · simp only [afterRun, run_site_bind, hs]
    rw [if_neg hb, if_pos hi, run_bind, moveTo_run]
    rw [run_get_bind, Dispatcher.move_profiler, apply_ite (fun x : Dispatch Unit => x.run (d.move p .profiling)),
      if_pos hi]
    rfl
  · simp only [afterRun, run_site_bind, hs]
    rw [if_neg hb, if_neg hi, run_get_bind, apply_ite (fun x : Dispatch Unit => x.run d), if_neg hi]
    rfl

theorem record_run (id : String) (c : Bool) (n : Nat) (d : Dispatcher) :
    (record id c n).run d =
      ((), { d with profiler := d.profiler.record id n.toInt64 d.now, monitor := d.monitor.ran c n d.now.toInt,
                    ticks := d.ticks + 1 }) :=
  rfl

theorem create_run (s : Site) (d : Dispatcher) : (create s).run d = (d.heap.length, d.adopt s) := rfl

theorem siteOf?_def (d : Dispatcher) (id : String) :
    ((d.siteAt? id).bind fun p => d.heap[p]?.map (p, ·)) = d.siteOf? id := rfl

/-- A loop met again: its site is returned as it is. -/
theorem meet_same (hk : d.siteOf? l.id = some (p, s)) (hkey : s.loop.key = l.key) :
    (meet l).run d = ((p, s), d) := by
  simp only [meet, run_get_bind, siteOf?_def, hk, hkey, ↓reduceIte]
  rfl

/-- Another loop of the same shape: the site is renewed for it, keeping
its state, plan and fingerprint. -/
theorem meet_renew (hk : d.siteOf? l.id = some (p, s)) (hkey : s.loop.key ≠ l.key)
    (hh : s.shape.hash = l.shape.hash) :
    (meet l).run d =
      ((p, s.renew l), { d with heap := d.heap.set p (s.renew l),
                                profiler := d.profiler.observe l.id (tierOf l.body) l.access }) := by
  simp only [meet, run_get_bind, siteOf?_def, hk, hkey, hh, ↓reduceIte]
  rfl

/-- A loop of another shape at a known identity: the profile is dropped
and a fresh site takes the identity. -/
theorem meet_reshape (hk : d.siteOf? l.id = some (p, s)) (hkey : s.loop.key ≠ l.key)
    (hh : s.shape.hash ≠ l.shape.hash) :
    (meet l).run d =
      ((d.heap.length, l.site), { d.adopt l.site with
        profiler := (d.profiler.reset l.id).observe l.id (tierOf l.body) l.access }) := by
  simp only [meet, run_get_bind, siteOf?_def, hk, hkey, hh, ↓reduceIte]
  simp only [run_bind, run_modify, create_run, run_pure, store, Dispatcher.adopt,
    List.set_append_right _ _ (Nat.le_refl _), Nat.sub_self, List.set_cons_zero]
  rfl

/-- An identity never met: a fresh site takes it. -/
theorem meet_fresh (hk : d.siteOf? l.id = none) :
    (meet l).run d =
      ((d.heap.length, l.site), { d.adopt l.site with
        profiler := d.profiler.observe l.id (tierOf l.body) l.access }) := by
  simp only [meet, run_get_bind, siteOf?_def, hk]
  simp only [run_bind, run_modify, create_run, run_pure, store, Dispatcher.adopt,
    List.set_append_right _ _ (Nat.le_refl _), Nat.sub_self, List.set_cons_zero]
  rfl

/-- The site meeting returns is the one it leaves under the number it
returns. -/
theorem meet_site (l : Loop) (d : Dispatcher) :
    ((meet l).run d).2.heap[((meet l).run d).1.1]? = some ((meet l).run d).1.2 := by
  cases hk : d.siteOf? l.id with
  | none =>
    rw [meet_fresh hk]
    simp [Dispatcher.adopt]
  | some ps =>
    obtain ⟨p, s⟩ := ps
    have hp : p < d.heap.length := (List.getElem?_eq_some_iff.1 (Dispatcher.siteOf?_eq_some.1 hk).2).1
    by_cases hkey : s.loop.key = l.key
    · rw [meet_same hk hkey]
      exact (Dispatcher.siteOf?_eq_some.1 hk).2
    by_cases hh : s.shape.hash = l.shape.hash
    · rw [meet_renew hk hkey hh]
      simp [hp]
    · rw [meet_reshape hk hkey hh]
      simp [Dispatcher.adopt]


/-! ### Relations that acquiring, promoting and settling keep -/

/-- A relation between dispatchers that holds of each change acquiring,
promoting or settling a site makes of the dispatcher: a move of a site, a
new plan for it, and a cache lookup or build with what the monitor counts
of it. -/
structure Closed (R : Dispatcher → Dispatcher → Prop) : Prop where
  refl : ∀ d, R d d
  trans : ∀ {d₁ d₂ d₃ : Dispatcher}, R d₁ d₂ → R d₂ d₃ → R d₁ d₃
  move : ∀ (d : Dispatcher) p b, R d (d.move p b)
  plan : ∀ (d : Dispatcher) p t, R d { d with heap := d.heap.set p t }
  hit : ∀ (d : Dispatcher) c, R d { d with cache := c, monitor := d.monitor.lookedUp true }
  built : ∀ (d : Dispatcher) c t,
    R d { d with cache := c, monitor := (d.monitor.compiled .ok t).lookedUp false, ticks := d.ticks + 1 }
  failed : ∀ (d : Dispatcher) c r t x,
    R d { d with cache := c, monitor := (d.monitor.compiled r t).lookedUp false, failed := d.failed ++ [x],
                 ticks := d.ticks + 1 }

variable {R : Dispatcher → Dispatcher → Prop}

theorem Closed.acquire (hR : Closed R) (d : Dispatcher) (p : Nat) : R d ((acquire p).run d).2 := by
  cases hs : d.heap[p]? with
  | none =>
    rw [acquire_none hs]
    exact hR.refl d
  | some s =>
    cases hl : d.cache.lookup s.fingerprint with
    | mk r c =>
      cases r with
      | some a =>
        rw [acquire_hit hs hl]
        exact hR.trans (hR.hit d c) (hR.move _ p _)
      | none =>
        cases hb : s.build with
        | ok a =>
          rw [acquire_ok hs hl hb]
          exact hR.trans (hR.move d p .compiling) (hR.trans (hR.built _ _ _) (hR.move _ p _))
        | error e =>
          rw [acquire_fail hs hl hb]
          exact hR.trans (hR.move d p .compiling) (hR.trans (hR.failed _ _ _ _ _) (hR.move _ p _))

theorem Closed.promote (hR : Closed R) (d : Dispatcher) (p : Nat) : R d ((promote p).run d).2 := by
  cases hs : d.heap[p]? with
  | none =>
    rw [promote_none hs]
    exact hR.refl d
  | some s =>
    rw [promote_run hs]
    split
    · exact hR.trans (hR.plan d p _) (hR.move _ p _)
    · exact hR.trans (hR.plan d p _) (hR.acquire _ p)

theorem Closed.afterRun (hR : Closed R) (d : Dispatcher) (p : Nat) : R d ((afterRun p).run d).2 := by
  cases hs : d.heap[p]? with
  | none =>
    rw [afterRun_none hs]
    exact hR.refl d
  | some s =>
    by_cases hperm : s.state = .permanentlyInterpreted
    · rw [afterRun_perm hs hperm]
      exact hR.refl d
    -- first the move to profiling, then perhaps the promotion
    obtain ⟨d₁, hd₁⟩ : ∃ d₁, (if s.state = .interpreted then d.move p .profiling else d) = d₁ := ⟨_, rfl⟩
    have hfirst : R d d₁ := by
      rw [← hd₁]
      split
      · exact hR.move d p _
      · exact hR.refl d
    rw [afterRun_run hs hperm]
    simp only [hd₁]
    split
    · exact hR.trans hfirst (hR.promote _ p)
    · exact hfirst

end Dispatch

end HotLoop
