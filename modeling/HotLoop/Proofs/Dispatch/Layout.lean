import HotLoop.Proofs.Dispatch.Lifecycle
/-!
# HotLoop.Proofs.Dispatch.Layout

Artifacts are shared by fingerprint, and a fingerprint keeps only the hash
of a shape: two shapes with one hash, and different numbers of slots, share
the artifacts of either. An artifact run in a frame it was not laid out for
reports a defect, and the dispatcher then gives up the site that ran it
(`Dispatch.Step.fail`). This module says when that cannot happen to a loop
`l`: when every loop met whose shape hash is `l`'s has `l`'s number of slots
(`Dispatch.Step.SlotsAgree`).

* `Site.Fits l s`: a site of `l`'s shape hash has `l`'s number of slots, and
  a compiled site is fingerprinted by its own shape's hash.
* `Dispatcher.Fits l d`: every site fits, and every artifact the cache holds
  under a fingerprint of `l`'s hash is laid out for `l`'s number of slots.
  A new dispatcher fits, and so does every step that agrees with `l` on the
  slots (`Fits.step`).
* In a dispatcher that fits, an artifact acquired for a compiled site of
  `l`'s shape hash is laid out for `l`'s slots (`Fits.acquired`), and such a
  site is never given up (`Fits.not_fail`).
-/

namespace HotLoop

/-- A compiled loop is laid out for the slots of the shape it was compiled
for. -/
theorem Loop.compile_layout {l : Loop} {shape : Shape} {sel : Selection} {fp : Fingerprint} {b : Bool}
    {a : Artifact} (h : l.compile shape sel fp b = .ok a) : a.layout.length = shape.numSlots := by
  unfold Loop.compile at h
  split at h
  · cases h
  · -- the listing is built or refused; only its text goes into the artifact
    split at h <;> simp only [Except.map] at h <;> (try split at h) <;> cases h <;>
      simp [Shape.layout, Shape.numSlots]

theorem Site.build_layout {s : Site} {a : Artifact} (h : s.build = .ok a) :
    a.layout.length = s.shape.numSlots :=
  Loop.compile_layout h

/-- Site `s` agrees with loop `l` on the slots of `l`'s shape hash, and a
compiled `s` is fingerprinted by the hash of its own shape. -/
def Site.Fits (l : Loop) (s : Site) : Prop :=
  (s.shape.hash = l.shape.hash → s.shape.numSlots = l.shape.numSlots) ∧
    (s.state = .compiled → s.fingerprint.hash = s.shape.hash)

/-- An artifact under fingerprint `fp` is laid out for the slots of `l`
when `fp` has the hash of `l`'s shape. -/
def Loop.Fitting (l : Loop) (fp : Fingerprint) (a : Artifact) : Prop :=
  fp.hash = l.shape.hash → a.layout.length = l.shape.numSlots

/-- Whether a step meets, if it meets a loop, one that has `l`'s number of
slots when it has `l`'s shape hash. -/
def Dispatch.Step.SlotsAgree (l : Loop) : Dispatch.Step → Prop
  | .meet l' => l'.shape.hash = l.shape.hash → l'.shape.numSlots = l.shape.numSlots
  | _ => True

/-- Every site of `d` fits `l`, and every artifact cached under a
fingerprint of `l`'s shape hash is laid out for `l`'s slots. -/
structure Dispatcher.Fits (l : Loop) (d : Dispatcher) : Prop where
  sites : ∀ s ∈ d.heap, s.Fits l
  cached : d.cache.Every l.Fitting

namespace Dispatcher

variable {l : Loop} {d : Dispatcher} {p : Nat} {s t : Site} {b : SiteState}

theorem fits_new (o : DispatchOptions) (l : Loop) : (Dispatcher.new o).Fits l :=
  ⟨fun _ hs => by simp [Dispatcher.new] at hs, fun _ hx => by simp [Dispatcher.new, Cache.new] at hx⟩

/-- A site the dispatcher holds fits. -/
theorem Fits.site (h : d.Fits l) (hs : d.heap[p]? = some s) : s.Fits l :=
  h.sites s (List.mem_of_getElem? hs)

/-- The sites after a move are the sites before, and the moved one in its
new state. -/
theorem mem_move (ht : t ∈ (d.move p b).heap) : t ∈ d.heap ∨ ∃ s, d.heap[p]? = some s ∧ t = { s with state := b } := by
  unfold move at ht
  split at ht
  · rename_i s hs
    split at ht
    · exact .inl ht
    · exact (List.mem_or_eq_of_mem_set ht).imp_right fun ht => ⟨s, hs, ht⟩
  · exact .inl ht

/-- A move keeps a dispatcher fitting, when a site moved to compiled is
fingerprinted by its shape's hash. -/
theorem Fits.move (h : d.Fits l)
    (hb : ∀ s, d.heap[p]? = some s → b = .compiled → s.fingerprint.hash = s.shape.hash) :
    (d.move p b).Fits l := by
  refine ⟨fun t ht => ?_, move_cache (d := d) ▸ h.cached⟩
  rcases mem_move ht with ht | ⟨s, hs, rfl⟩
  · exact h.sites t ht
  · exact ⟨(h.site hs).1, hb s hs⟩

/-- A move to a state other than compiled keeps a dispatcher fitting. -/
theorem Fits.move_ne (h : d.Fits l) (hb : b ≠ .compiled) : (d.move p b).Fits l :=
  h.move fun _ _ hc => absurd hc hb

/-- A site overwritten with one that fits keeps a dispatcher fitting. -/
theorem Fits.set (h : d.Fits l) (ht : t.Fits l) : ({ d with heap := d.heap.set p t } : Dispatcher).Fits l :=
  ⟨fun _ hs => (List.mem_or_eq_of_mem_set hs).elim (h.sites _) fun he => he ▸ ht, h.cached⟩

/-- A new site that fits keeps a dispatcher fitting. -/
theorem Fits.adopt (h : d.Fits l) (ht : t.Fits l) : (d.adopt t).Fits l := by
  refine ⟨fun s hs => ?_, h.cached⟩
  rcases List.mem_append.1 hs with hs | hs
  · exact h.sites s hs
  · rw [List.mem_singleton.1 hs]
    exact ht

end Dispatcher

namespace Dispatch

open Dispatcher

variable {l : Loop} {d : Dispatcher} {p : Nat} {s : Site}

/-- Acquiring the artifact of a site fingerprinted by its shape's hash
keeps a dispatcher fitting: a cached artifact stays as it is, and a built
one is laid out for the site's shape. -/
theorem Fits.acquire (h : d.Fits l) (hs : d.heap[p]? = some s) (hkey : s.fingerprint.hash = s.shape.hash) :
    ((acquire p).run d).2.Fits l := by
  have hkeyed : ∀ s', d.heap[p]? = some s' → s'.fingerprint.hash = s'.shape.hash := by
    intro s' hs'
    rw [hs] at hs'
    cases hs'
    exact hkey
  cases hl : d.cache.lookup s.fingerprint with
  | mk r c =>
    have hc : c.Every l.Fitting := by
      have hlookup := h.cached.lookup s.fingerprint
      rw [hl] at hlookup
      exact hlookup
    cases r with
    | some a =>
      rw [acquire_hit hs hl]
      exact Fits.move ⟨h.sites, hc⟩ fun s' hs' _ => hkeyed s' hs'
    | none =>
      have h₁ := h.move_ne (p := p) (b := .compiling) nofun
      have hs₁ := heap_move_self hs .compiling
      cases hb : s.build with
      | ok a =>
        -- the artifact built is laid out for the site's shape
        have hfit : l.Fitting s.fingerprint a := fun hfp => by
          rw [Site.build_layout hb]
          exact (h.site hs).1 (hkey ▸ hfp)
        rw [acquire_ok hs hl hb]
        exact Fits.move ⟨h₁.sites, hc.insert hfit⟩ fun s' hs' _ => by
          rw [hs₁] at hs'
          cases hs'
          exact hkey
      | error e =>
        rw [acquire_fail hs hl hb]
        exact Fits.move_ne ⟨h₁.sites, hc⟩ nofun

/-- Planning a site fingerprints it by its shape's hash. -/
theorem planned_fits (hsite : s.Fits l) (d : Dispatcher) : (s.planned d).Fits l :=
  ⟨hsite.1, fun _ => rfl⟩

theorem Fits.promote (h : d.Fits l) (hs : d.heap[p]? = some s) : ((promote p).run d).2.Fits l := by
  have hplan := h.set (p := p) (planned_fits (h.site hs) d)
  rw [promote_run hs]
  split
  · exact hplan.move_ne nofun
  · exact Fits.acquire hplan (heap_set_self hs _) rfl

theorem Fits.afterRun (h : d.Fits l) : ((afterRun p).run d).2.Fits l := by
  cases hs : d.heap[p]? with
  | none =>
    rw [afterRun_none hs]
    exact h
  | some s =>
    by_cases hperm : s.state = .permanentlyInterpreted
    · rw [afterRun_perm hs hperm]
      exact h
    -- first the move to profiling, then perhaps the promotion
    rw [afterRun_run hs hperm]
    dsimp only
    by_cases hi : s.state = .interpreted
    · rw [if_pos hi]
      split
      · exact Fits.promote (h.move_ne nofun) (heap_move_self hs .profiling)
      · exact h.move_ne nofun
    · rw [if_neg hi]
      split
      · exact Fits.promote h hs
      · exact h

/-- Meeting a loop that agrees with `l` on the slots keeps a dispatcher
fitting: the site it makes or renews has that loop's shape, and a renewed
site keeps a fingerprint of its shape's hash. -/
theorem Fits.meet (h : d.Fits l) {l' : Loop}
    (hagree : l'.shape.hash = l.shape.hash → l'.shape.numSlots = l.shape.numSlots) :
    ((meet l').run d).2.Fits l := by
  have hfresh : l'.site.Fits l := ⟨hagree, nofun⟩
  cases hk : d.siteOf? l'.id with
  | none =>
    rw [meet_fresh hk]
    exact ⟨(h.adopt hfresh).sites, (h.adopt hfresh).cached⟩
  | some ps =>
    obtain ⟨q, s⟩ := ps
    by_cases hkey : s.loop.key = l'.key
    · rw [meet_same hk hkey]
      exact h
    by_cases hh : s.shape.hash = l'.shape.hash
    · -- the renewed site keeps its state and fingerprint, of the same hash
      have hrenew : (s.renew l').Fits l :=
        ⟨hagree, fun hc => ((h.site (siteOf?_eq_some.1 hk).2).2 hc).trans hh⟩
      have hset := h.set (p := q) hrenew
      rw [meet_renew hk hkey hh]
      exact ⟨hset.sites, hset.cached⟩
    · rw [meet_reshape hk hkey hh]
      exact ⟨(h.adopt hfresh).sites, (h.adopt hfresh).cached⟩

theorem Fits.fail (h : d.Fits l) (hs : d.heap[p]? = some s) (e : Error) : ((fail p e).run d).2.Fits l := by
  rw [fail_run hs]
  exact Fits.move_ne ⟨h.sites, h.cached⟩ nofun

end Dispatch

namespace Dispatcher

variable {l : Loop} {d : Dispatcher} {p : Nat} {s : Site} {a : Artifact}

/-- Every step that agrees with `l` on the slots keeps a dispatcher
fitting. -/
theorem Fits.step (h : d.Fits l) {st : Dispatch.Step} (ha : st.Allowed d) (hagree : st.SlotsAgree l) :
    (st.apply d).Fits l := by
  cases st with
  | meet l' => exact Dispatch.Fits.meet h hagree
  | acquire q =>
    obtain ⟨s, hs, hcomp⟩ := ha
    exact Dispatch.Fits.acquire h hs ((h.site hs).2 hcomp)
  | fail q e =>
    obtain ⟨s, -, hs, -⟩ := ha
    exact Dispatch.Fits.fail h hs e
  | afterRun q => exact Dispatch.Fits.afterRun h
  | record id c n => exact ⟨h.sites, h.cached⟩

/-- An artifact acquired for a site of `l`'s shape hash fingerprinted by
that hash is laid out for `l`'s slots, whether it was cached or built. -/
theorem Fits.acquired (h : d.Fits l) (hs : d.heap[p]? = some s) (hkey : s.fingerprint.hash = s.shape.hash)
    (hsh : s.shape.hash = l.shape.hash) (ha : ((Dispatch.acquire p).run d).1 = some a) :
    a.layout.length = l.shape.numSlots := by
  -- the artifact is left cached under the site's fingerprint, in a
  -- dispatcher that still fits `l`
  obtain ⟨-, x, hx, hxf, hxa⟩ := Dispatch.acquire_acquired hs ha
  rw [← hxa]
  exact (Dispatch.Fits.acquire h hs hkey).cached x hx (by rw [hxf, hkey, hsh])

/-- A compiled site of `l`'s shape hash is never given up: the artifact
cached under its fingerprint is laid out for its slots. -/
theorem Fits.not_fail (h : d.Fits l) (hs : d.heap[p]? = some s) (hsh : s.shape.hash = l.shape.hash)
    (e : Error) : ¬ (Dispatch.Step.fail p e).Allowed d := by
  rintro ⟨s', a, hs', hcomp, ⟨x, hx, hxf, hxa⟩, hmisfit⟩
  rw [hs] at hs'
  cases hs'
  apply hmisfit
  rw [← hxa, h.cached x hx (by rw [hxf, (h.site hs).2 hcomp, hsh])]
  exact ((h.site hs).1 hsh).symm

end Dispatcher

end HotLoop
