import Mathlib
import HotLoop.Proofs.Dispatch.Layout
/-!
# HotLoop.Proofs.Dispatch.Gating

When a loop starts to run compiled. Follow one loop `l`, the only loop
met at its identity, through every sequence of steps the interpreter may
take, and keep beside the dispatcher its executions so far (newest first):
the iterations each recorded, and whether the interpreter settled it as
having ended well (`Execution`).

* The profile of the identity counts exactly these executions and their
  iterations, and at most the time the clock has measured in all
  (`Dispatcher.spent`).
* The site of the loop is compiled exactly when one of these executions
  ended well, was at least the threshold-th, and brought the iterations to
  at least the minimum (`Execution.hot`), as long as the time measured stays
  below its floor; until then it is interpreted or profiling. A compiled
  site is planned as the dispatcher plans the loop (`Loop.hotSite`), so when
  that plan compiles and its fingerprint never failed, acquiring it always
  gives the artifact, rebuilt if evicted.
* An artifact is shared by every shape of its shape hash. A compiled run of
  an artifact laid out for another number of slots reports a defect, and
  the dispatcher then gives the site up for good. So the loops met must
  agree with `l` on the slots of its shape hash (`Dispatch.Step.SlotsAgree`):
  then the artifact acquired is laid out for `l`, and the site is never
  given up (`Dispatcher.Fits`). Without it a hot loop that compiles can be
  given up (`Machine.shape_collision_gives_up_hot_loop`).

The interpreter runs an execution compiled exactly when the site it meets
is compiled and the artifact is acquired: so the executions up to the first
one that ended well past both gates run interpreted, and every later one
compiled (`Dispatcher.Gated.compiled_iff_hot`). The invariant behind it is
`Dispatcher.Gating`, kept by every step (`Dispatcher.Gating.step`) under
`Dispatcher.GateAssumptions`, which no step takes back (`Dispatcher.Grows`).
-/

namespace HotLoop

/-- An execution of a loop as the dispatcher sees it: the iterations it
recorded, and whether it ended well, which the interpreter tells the
dispatcher by settling the site after it. -/
structure Execution where
  iterations : Nat
  ok : Bool := false
  deriving DecidableEq, Repr

namespace Execution

/-- The iterations of executions, in total. -/
def total (H : List Execution) : Nat := (H.map (·.iterations)).sum

/-- Whether, among the executions `H` (newest first), one ended well that
was at least the `t`-th and brought the iterations to at least `m`. -/
def hot (t m : Nat) : List Execution → Bool
  | [] => false
  | e :: H => hot t m H || (e.ok && decide (t ≤ H.length + 1) && decide (m ≤ total (e :: H)))

/-- The newest execution, settled as ended well. -/
def settle : List Execution → List Execution
  | [] => []
  | e :: H => { e with ok := true } :: H

@[simp] theorem total_nil : total [] = 0 := rfl

@[simp] theorem total_cons (e : Execution) (H : List Execution) : total (e :: H) = e.iterations + total H := by
  simp [total]

@[simp] theorem length_settle (H : List Execution) : (settle H).length = H.length := by
  cases H <;> rfl

@[simp] theorem total_settle (H : List Execution) : total (settle H) = total H := by
  cases H <;> simp [settle]

/-- A new execution that has not ended well makes nothing hot. -/
@[simp] theorem hot_record (t m n : Nat) (H : List Execution) : hot t m (⟨n, false⟩ :: H) = hot t m H := by
  simp [hot]

/-- Settling the newest execution makes the executions hot exactly when
they were, or when they reach both gates. -/
theorem hot_settle {t m : Nat} (ht : 0 < t) (H : List Execution) :
    hot t m (settle H) = (hot t m H || (decide (t ≤ H.length) && decide (m ≤ total H))) := by
  cases H with
  | nil => simp [settle, hot]; omega
  | cons e H =>
    simp only [settle, hot, List.length_cons, total_cons, Bool.true_and]
    cases hot t m H <;> cases e.ok <;> simp

/-- Hot executions have reached both gates. -/
theorem le_of_hot {t m : Nat} : ∀ {H : List Execution}, hot t m H = true → t ≤ H.length ∧ m ≤ total H
  | [], h => by simp [hot] at h
  | e :: H, h => by
    simp only [hot, Bool.or_eq_true, Bool.and_eq_true, decide_eq_true_eq] at h
    rcases h with h | ⟨⟨-, ht⟩, hm⟩
    · have := le_of_hot h
      simp only [List.length_cons, total_cons]
      omega
    · exact ⟨ht, hm⟩

/-- The executions are hot exactly when one of them ended well that was at
least the `t`-th and brought the iterations, with those before it, to at
least `m`. -/
theorem hot_iff {t m : Nat} {H : List Execution} :
    hot t m H = true ↔ ∃ e P, e :: P <:+ H ∧ e.ok = true ∧ t ≤ P.length + 1 ∧ m ≤ total (e :: P) := by
  induction H with
  | nil => simp [hot]
  | cons e H ih =>
    simp only [hot, Bool.or_eq_true, Bool.and_eq_true, decide_eq_true_eq, ih, List.suffix_cons_iff]
    constructor
    · rintro (⟨e', P, hs, hok, ht, hm⟩ | ⟨⟨hok, ht⟩, hm⟩)
      · exact ⟨e', P, .inr hs, hok, ht, hm⟩
      · exact ⟨e, H, .inl rfl, hok, ht, hm⟩
    · rintro ⟨e', P, hs | hs, hok, ht, hm⟩
      · obtain ⟨rfl, rfl⟩ := List.cons.inj hs
        exact .inr ⟨⟨hok, ht⟩, hm⟩
      · exact .inl ⟨e', P, hs, hok, ht, hm⟩

/-- Four iterations, then three in an execution that ended well: hot at a
threshold of two executions and a floor of five iterations. -/
example : hot 2 5 [⟨3, true⟩, ⟨4, false⟩] = true := by decide

end Execution

/-- The site loop `l` has once the dispatcher finds it hot, planned with the
profile that its meeting gave its identity under plan options `po`. -/
def Loop.hotSite (l : Loop) (po : PlanOptions) : Site :=
  let sel := Selection.choose po l l.shape (tierOf l.body) l.access
  { l.site with plan := some sel, fingerprint := Fingerprint.of l.shape (tierOf l.body) sel.set }

/-- The executions of loop `l` after a step: a recorded execution of its
identity is added, and settling the site its identity points to marks the
newest as ended well. -/
def Dispatch.Step.executions (l : Loop) : Dispatch.Step → Dispatcher → List Execution → List Execution
  | .record id _ n, _, H => if id = l.id then ⟨n, false⟩ :: H else H
  | .afterRun p, d, H => if d.siteAt? l.id = some p then Execution.settle H else H
  | _, _, H => H

/-- Whether a step meets the identity of `l` only with `l` itself. -/
def Dispatch.Step.MeetsOnly (l : Loop) : Dispatch.Step → Prop
  | .meet l' => l'.id = l.id → l' = l
  | _ => True

/-- The dispatchers the interpreter reaches from a fresh one made with `o`
while it meets the identity of `l` only with `l`, and meets only loops that
agree with `l` on the slots of its shape hash, with the executions of `l`
so far, newest first. -/
inductive Dispatcher.Gated (o : DispatchOptions) (l : Loop) : Dispatcher → List Execution → Prop
  | start : Gated o l (Dispatcher.new o) []
  | step {d : Dispatcher} {H : List Execution} {st : Dispatch.Step} :
      Gated o l d H → st.Allowed d → st.MeetsOnly l → st.SlotsAgree l →
        Gated o l (st.apply d) (st.executions l d H)
  | clear {d : Dispatcher} {H : List Execution} : Gated o l d H → Gated o l { d with log := #[] } H

/-! ## What no step takes back: the plan options, the failure memory and the time -/

namespace Dispatcher

variable {d d₁ d₂ d' : Dispatcher} {p : Nat} {b : SiteState}

/-- The nanoseconds the clock has measured over the timed steps so far. -/
def spent (d : Dispatcher) : Nat := ∑ i ∈ Finset.range d.ticks, d.clock i

/-- `d'` plans as `d` does, remembers every failure `d` remembers, and has
the clock of `d`, read as often at least. -/
def Grows (d d' : Dispatcher) : Prop :=
  d'.plan = d.plan ∧ (∃ xs, d'.failed = d.failed ++ xs) ∧ d'.clock = d.clock ∧ d.ticks ≤ d'.ticks

theorem Grows.refl (d : Dispatcher) : Grows d d := ⟨rfl, ⟨[], by simp⟩, rfl, le_rfl⟩

theorem Grows.trans (h₁ : Grows d d₁) (h₂ : Grows d₁ d₂) : Grows d d₂ := by
  obtain ⟨hp₁, ⟨xs₁, hf₁⟩, hc₁, ht₁⟩ := h₁
  obtain ⟨hp₂, ⟨xs₂, hf₂⟩, hc₂, ht₂⟩ := h₂
  exact ⟨hp₂.trans hp₁, ⟨xs₁ ++ xs₂, by rw [hf₂, hf₁, List.append_assoc]⟩, hc₂.trans hc₁, ht₁.trans ht₂⟩

theorem Grows.of_eq (hp : d'.plan = d.plan) (hf : d'.failed = d.failed) (hc : d'.clock = d.clock)
    (ht : d.ticks ≤ d'.ticks) : Grows d d' :=
  ⟨hp, ⟨[], by simp [hf]⟩, hc, ht⟩

theorem grows_move (d : Dispatcher) (p : Nat) (b : SiteState) : Grows d (d.move p b) :=
  Grows.of_eq move_plan move_failed move_clock move_ticks.ge

/-- The time measured only grows: the clock is the same, read more often. -/
theorem Grows.spent_le (h : Grows d d') : d.spent ≤ d'.spent := by
  obtain ⟨-, -, hc, ht⟩ := h
  unfold spent
  rw [hc]
  exact Finset.sum_le_sum_of_subset (Finset.range_subset_range.2 ht)

/-- One more timed step measures what the clock reads for it. -/
theorem spent_tick (hc : d'.clock = d.clock) (ht : d'.ticks = d.ticks + 1) :
    d'.spent = d.spent + d.clock d.ticks := by
  unfold spent
  rw [ht, hc, Finset.sum_range_succ]

end Dispatcher

namespace Dispatch

open Dispatcher

/-- Acquiring, promoting and settling keep the plan options and forget no
failure. -/
theorem grows_closed : Closed Grows where
  refl := Grows.refl
  trans := Grows.trans
  move := grows_move
  plan _ _ _ := Grows.of_eq rfl rfl rfl le_rfl
  hit _ _ := Grows.of_eq rfl rfl rfl le_rfl
  built _ _ _ := Grows.of_eq rfl rfl rfl (Nat.le_succ _)
  failed _ _ _ _ x := ⟨rfl, ⟨[x], rfl⟩, rfl, Nat.le_succ _⟩

theorem grows_meet (d : Dispatcher) (l : Loop) : Grows d ((meet l).run d).2 := by
  cases hk : d.siteOf? l.id with
  | none =>
    rw [meet_fresh hk]
    exact Grows.of_eq rfl rfl rfl le_rfl
  | some ps =>
    obtain ⟨p, s⟩ := ps
    by_cases hkey : s.loop.key = l.key
    · rw [meet_same hk hkey]
      exact .refl d
    by_cases hh : s.shape.hash = l.shape.hash
    · rw [meet_renew hk hkey hh]
      exact Grows.of_eq rfl rfl rfl le_rfl
    · rw [meet_reshape hk hkey hh]
      exact Grows.of_eq rfl rfl rfl le_rfl

theorem grows_fail (d : Dispatcher) (p : Nat) (e : Error) : Grows d ((fail p e).run d).2 := by
  cases hs : d.heap[p]? with
  | none =>
    rw [fail_none hs]
    exact .refl d
  | some s =>
    rw [fail_run hs]
    have hfailed : Grows d { d with failed := d.failed ++ [(s.fingerprint, e)] } :=
      ⟨rfl, ⟨[(s.fingerprint, e)], rfl⟩, rfl, le_rfl⟩
    exact hfailed.trans (grows_move _ p _)

end Dispatch

/-- No step changes the plan options or the clock, none forgets a failure,
and none takes back the time measured. -/
theorem Dispatch.Step.grows (st : Dispatch.Step) (d : Dispatcher) : d.Grows (st.apply d) := by
  cases st with
  | meet l => exact Dispatch.grows_meet d l
  | acquire p => exact Dispatch.grows_closed.acquire d p
  | fail p e => exact Dispatch.grows_fail d p e
  | afterRun p => exact Dispatch.grows_closed.afterRun d p
  | record id c n => exact Dispatcher.Grows.of_eq rfl rfl rfl (Nat.le_succ _)

/-! ## Profiles that count the executions -/

/-- A profile that counts the executions `H`, their number and their
iterations, and at most `T` nanoseconds of time. -/
structure Profile.Counts (q : Profile) (H : List Execution) (T : Nat) : Prop where
  executions : q.executions = H.length.toUInt64
  iterations : q.iterations = (Execution.total H).toUInt64
  elapsed : 0 ≤ q.elapsed.toInt ∧ q.elapsed.toInt ≤ T

namespace Profile

variable {q : Profile} {H : List Execution} {T T' : Nat}

theorem counts_new (id : String) : ({ id := id } : Profile).Counts [] 0 := ⟨rfl, rfl, by simp⟩

theorem Counts.mono (h : q.Counts H T) (hT : T ≤ T') : q.Counts H T' :=
  ⟨h.executions, h.iterations, h.elapsed.1, h.elapsed.2.trans (by exact_mod_cast hT)⟩

theorem Counts.settle (h : q.Counts H T) : q.Counts (Execution.settle H) T :=
  ⟨by rw [h.executions, Execution.length_settle], by rw [h.iterations, Execution.total_settle], h.elapsed⟩

theorem Counts.observe (h : q.Counts H T) (t : Tier) (a : Access) :
    ({ q with tier := t, access := a, observed := true } : Profile).Counts H T :=
  ⟨h.executions, h.iterations, h.elapsed⟩

/-- Recording an execution that no 64-bit counter wraps counts it, with its
time. -/
theorem Counts.record (h : q.Counts H T) {n : Nat} (hn : n < 2 ^ 63) {e : Nat} (he : T + e < 2 ^ 63) :
    (q.record n.toInt64 e.toInt64).Counts (⟨n, false⟩ :: H) (T + e) := by
  have hpos : ¬ n.toInt64 < 0 := by
    rw [Int64.lt_iff_toInt_lt, Int64.toInt_ofNat_of_lt hn]
    simp
  have he' : e.toInt64.toInt = e := Int64.toInt_ofNat_of_lt (by omega)
  refine ⟨?_, ?_, ?_⟩
  · show q.executions + 1 = _
    rw [h.executions, List.length_cons]
    exact (UInt64.ofNat_add _ _).symm
  · show q.iterations + (if n.toInt64 < 0 then 0 else n.toInt64).toUInt64 = _
    rw [if_neg hpos, h.iterations, Int64.toUInt64_ofNat', Execution.total_cons, Nat.add_comm]
    exact (UInt64.ofNat_add _ _).symm
  · -- the time added stays below the sign bit, so it does not wrap
    show 0 ≤ (q.elapsed + e.toInt64).toInt ∧ (q.elapsed + e.toInt64).toInt ≤ _
    obtain ⟨h0, hT⟩ := h.elapsed
    rw [Int64.toInt_add, he', Int.bmod_eq_of_le (by omega) (by omega)]
    omega

end Profile

namespace Profiler

variable {a : Profiler} {id id' : String} {q : Profile} {H : List Execution}

theorem get?_reset_ne (hne : id' ≠ id) : (a.reset id).get? id' = a.get? id' := by
  unfold get? reset
  rw [List.find?_filter]
  congr 1
  funext q
  by_cases hq : q.id = id' <;> simp [hq, hne]

theorem get?_observe_ne (hne : id' ≠ id) (t : Tier) (acc : Access) :
    (a.observe id t acc).get? id' = a.get? id' := by
  rw [observe, get?_update (f := fun q => { q with tier := t, access := acc, observed := true })
    (fun _ => rfl), if_neg hne]

/-- The gate on a profile that counts executions `H` with at most `T`
nanoseconds, when `T` is below the floor of time and the iteration floor is
not negative: the identity is hot exactly when the threshold of executions
and the floor of iterations are reached. -/
theorem shouldCompile_of_counts {T : Nat} (hq : a.get? id = some q) (hc : q.Counts H T)
    (hlen : H.length < 2 ^ 64) (htot : Execution.total H < 2 ^ 64)
    (hmin : 0 ≤ a.gate.minIterations) (hel : (T : Int) < a.gate.minElapsed.toInt) :
    a.shouldCompile id = (decide (a.gate.threshold.toNat ≤ H.length) &&
      decide (a.gate.minIterations.toNatClampNeg ≤ Execution.total H)) := by
  have hiter : a.gate.minIterations.toUInt64 ≤ q.iterations ↔
      a.gate.minIterations.toNatClampNeg ≤ Execution.total H := by
    rw [UInt64.le_iff_toNat_le, hc.iterations, UInt64.toNat_ofNat_of_lt' htot,
      Int64.toNat_toUInt64_of_le hmin]
  have htime : ¬ a.gate.minElapsed ≤ q.elapsed := by
    rw [Int64.le_iff_toInt_le]
    have := hc.elapsed.2
    omega
  unfold shouldCompile
  rw [hq]
  simp only [hc.executions, UInt64.toNat_ofNat_of_lt' hlen, ge_iff_le, hiter, htime, or_false]
  exact Bool.decide_and _ _

end Profiler

/-- Whether the executions `H` of a loop are hot under the gate of a
dispatcher made with `o`. -/
def DispatchOptions.hot (o : DispatchOptions) (H : List Execution) : Bool :=
  Execution.hot (Profiler.new o.gate).gate.threshold.toNat o.gate.minIterations.toNatClampNeg H

theorem DispatchOptions.threshold_pos (o : DispatchOptions) : 0 < (Profiler.new o.gate).gate.threshold.toNat := by
  simp only [Profiler.new]
  split <;> omega

/-- A step adds executions and settles them, and takes nothing back: what
was hot stays hot, and the iterations and executions only grow. -/
theorem Dispatch.Step.executions_grow {o : DispatchOptions} {l : Loop} (st : Dispatch.Step) (d : Dispatcher)
    (H : List Execution) :
    (o.hot H = true → o.hot (st.executions l d H) = true) ∧
      Execution.total H ≤ Execution.total (st.executions l d H) ∧ H.length ≤ (st.executions l d H).length := by
  cases st with
  | record id c n =>
    simp only [Dispatch.Step.executions]
    split
    · simp [DispatchOptions.hot]
    · exact ⟨fun hh => hh, le_rfl, le_rfl⟩
  | afterRun p =>
    simp only [Dispatch.Step.executions]
    split
    · refine ⟨fun hh => ?_, by simp, by simp⟩
      unfold DispatchOptions.hot at hh ⊢
      rw [Execution.hot_settle o.threshold_pos, hh, Bool.true_or]
    · exact ⟨fun hh => hh, le_rfl, le_rfl⟩
  | meet l' => exact ⟨fun hh => hh, le_rfl, le_rfl⟩
  | acquire p => exact ⟨fun hh => hh, le_rfl, le_rfl⟩
  | fail p e => exact ⟨fun hh => hh, le_rfl, le_rfl⟩

/-! ## The site of the loop, cold and hot -/

/-- The site of loop `l` while it is cold (`false`): as its first meeting
made it, interpreted or profiling; and once hot (`true`): compiled, with the
plan the dispatcher makes for `l` under plan options `po`. -/
def Site.Gates (s : Site) (l : Loop) (po : PlanOptions) : Bool → Prop
  | false => s = { l.site with state := .interpreted } ∨ s = { l.site with state := .profiling }
  | true => s = { l.hotSite po with state := .compiled }

/-- Whether the profile of the identity of `l` is the one meeting `l`
observes. -/
def Profiler.Observes (a : Profiler) (l : Loop) : Prop :=
  ∃ q, a.get? l.id = some q ∧ q.tier = tierOf l.body ∧ q.access = l.access

namespace Site

variable {s : Site} {l : Loop} {po : PlanOptions} {b : Bool}

/-- A site of the loop is compiled exactly when the loop is hot. -/
theorem Gates.compiled_iff (h : s.Gates l po b) : s.state = .compiled ↔ b = true := by
  cases b with
  | false => rcases h with rfl | rfl <;> simp
  | true =>
    have hs : s = { l.hotSite po with state := .compiled } := h
    simp [hs]

theorem Gates.cold (h : s.Gates l po false) : s.state = .interpreted ∨ s.state = .profiling := by
  rcases h with rfl | rfl
  · exact .inl rfl
  · exact .inr rfl

/-- A site of the loop holds the loop, under its identity, whether or not
it is planned. -/
theorem Gates.form (h : s.Gates l po b) :
    (s = { l.site with state := s.state } ∨ s = { l.hotSite po with state := s.state }) ∧
      s.loop = l ∧ s.id = l.id := by
  cases b with
  | false => rcases h with rfl | rfl <;> exact ⟨.inl rfl, rfl, rfl⟩
  | true =>
    have hs : s = { l.hotSite po with state := .compiled } := h
    subst hs
    exact ⟨.inr rfl, rfl, rfl⟩

theorem Gates.shape (h : s.Gates l po b) : s.shape = l.shape := by
  cases b with
  | false => rcases h with rfl | rfl <;> rfl
  | true =>
    have hs : s = { l.hotSite po with state := .compiled } := h
    subst hs
    rfl

/-- A compiled site of the loop is fingerprinted by the loop's shape hash. -/
theorem Gates.fingerprint (h : s.Gates l po b) (hc : s.state = .compiled) :
    s.fingerprint.hash = l.shape.hash := by
  have hs : s = { l.hotSite po with state := .compiled } := by
    have hb := h.compiled_iff.1 hc
    subst hb
    exact h
  subst hs
  rfl

theorem Gates.open (h : s.Gates l po b) : s.state.Open := by
  cases b with
  | false => rcases h with rfl | rfl <;> exact ⟨nofun, nofun⟩
  | true =>
    have hs : s = { l.hotSite po with state := .compiled } := h
    subst hs
    exact ⟨nofun, nofun⟩

/-- Planning a site of the loop, with the profile meeting the loop
observed, gives the plan the dispatcher makes for the loop. -/
theorem planned_eq_hotSite {d : Dispatcher} {st : SiteState}
    (hs : s = { l.site with state := st } ∨ s = { l.hotSite po with state := st })
    (hobs : d.profiler.Observes l) (hp : d.plan = po) : s.planned d = { l.hotSite po with state := st } := by
  obtain ⟨q, hq, ht, ha⟩ := hobs
  rcases hs with rfl | rfl <;> simp [Site.planned, Loop.hotSite, Loop.site, hq, ht, ha, hp]

end Site

namespace Dispatcher

variable {d d' : Dispatcher} {p q : Nat} {id : String}

/-- A step on one site leaves every other site as it was. -/
theorem Touches.heap_ne (ht : Touches q d d') (hne : p ≠ q) : d'.heap[p]? = d.heap[p]? := by
  induction ht with
  | refl => rfl
  | move _ _ _ ih => rw [heap_move_ne hne, ih]
  | aside _ hh _ _ _ ih => rw [hh, ih]
  | plan _ _ ih => rw [← ih]; exact List.getElem?_set_ne (Ne.symm hne)

/-- A step on one site leaves every identity that points elsewhere where it
was. -/
theorem Touches.siteOf?_eq (ht : Touches q d d') (hq : d.siteAt? id ≠ some q) :
    d'.siteOf? id = d.siteOf? id := by
  have hat : d'.siteAt? id = d.siteAt? id := by simp only [siteAt?, ht.keeps.2.1]
  unfold siteOf?
  rw [hat]
  cases hp : d.siteAt? id with
  | none => rfl
  | some p =>
    have hne : p ≠ q := fun h => hq (h ▸ hp)
    simp only [Option.bind_some, ht.heap_ne hne]

theorem Grows.unfailed {fp : Fingerprint} (hg : Grows d d') (h : fp ∉ d'.failed.map (·.1)) :
    fp ∉ d.failed.map (·.1) := by
  obtain ⟨-, ⟨xs, hxs⟩, -⟩ := hg
  rw [hxs, List.map_append] at h
  exact fun hm => h (List.mem_append_left _ hm)

end Dispatcher

namespace Dispatch

open Dispatcher

variable {d : Dispatcher} {p : Nat} {s : Site} {l : Loop} {po : PlanOptions} {id : String}

/-- Acquiring a site whose plan builds gives the artifact, cached or built,
and leaves the site compiled. -/
theorem acquire_built (hs : d.heap[p]? = some s) (ho : s.state.Open) {a₀ : Artifact} (hb : s.build = .ok a₀) :
    (∃ a, ((acquire p).run d).1 = some a) ∧ Touches p d ((acquire p).run d).2 ∧
      ((acquire p).run d).2.heap[p]? = some { s with state := .compiled } := by
  have ht := (acquire_touches hs ho).1
  cases hl : d.cache.lookup s.fingerprint with
  | mk r c =>
    cases r with
    | some a =>
      rw [acquire_hit hs hl] at ht ⊢
      exact ⟨⟨a, rfl⟩, ht, by simp [Dispatcher.heap_move, hs]⟩
    | none =>
      rw [acquire_ok hs hl hb] at ht ⊢
      exact ⟨⟨a₀, rfl⟩, ht, by simp [Dispatcher.heap_move, hs]⟩

/-- Promoting a site whose plan never failed and builds leaves it planned
and compiled. -/
theorem promote_built (hs : d.heap[p]? = some s) (ho : s.state.Open)
    (hf : (s.planned d).fingerprint ∉ d.failed.map (·.1)) {a₀ : Artifact} (hb : (s.planned d).build = .ok a₀) :
    Touches p d ((promote p).run d).2 ∧
      ((promote p).run d).2.heap[p]? = some { s.planned d with state := .compiled } := by
  have hnf : d.failed.any (·.1 = (s.planned d).fingerprint) = false := by
    rw [Bool.eq_false_iff]
    intro hany
    obtain ⟨x, hx, hxe⟩ := List.any_eq_true.1 hany
    exact hf (List.mem_map.2 ⟨x, hx, of_decide_eq_true hxe⟩)
  rw [promote_run hs]
  simp only [hnf, Bool.false_eq_true, ↓reduceIte]
  have ho₁ : (s.planned d).state.Open := ho
  obtain ⟨-, ht, hp⟩ :=
    acquire_built (d := { d with heap := d.heap.set p (s.planned d) }) (heap_set_self hs (s.planned d)) ho₁ hb
  exact ⟨(Touches.plan .refl hs).trans ht, hp⟩

/-- Promoting a site of loop `l`, cold or hot, with the profile meeting `l`
observed, compiles it with the plan the dispatcher makes for `l`, when that
plan builds and its fingerprint never failed. -/
theorem promote_hotSite (hs : d.heap[p]? = some s)
    (hform : s = { l.site with state := s.state } ∨ s = { l.hotSite po with state := s.state })
    (ho : s.state.Open) (hobs : d.profiler.Observes l) (hp : d.plan = po)
    (hf : (l.hotSite po).fingerprint ∉ d.failed.map (·.1)) (hb : ∃ a, (l.hotSite po).build = .ok a) :
    ((promote p).run d).2.heap[p]? = some { l.hotSite po with state := .compiled } := by
  have hplanned := Site.planned_eq_hotSite hform hobs hp
  obtain ⟨a, hb⟩ := hb
  rw [(promote_built hs ho (by rw [hplanned]; exact hf) (by rw [hplanned, Site.build_state]; exact hb)).2,
    hplanned]

/-- Meeting a loop leaves the profiles of the other identities as they were. -/
theorem get?_meet_ne (hne : id ≠ l.id) : ((meet l).run d).2.profiler.get? id = d.profiler.get? id := by
  cases hk : d.siteOf? l.id with
  | none =>
    rw [meet_fresh hk]
    exact Profiler.get?_observe_ne hne _ _
  | some ps =>
    obtain ⟨p, s⟩ := ps
    by_cases hkey : s.loop.key = l.key
    · rw [meet_same hk hkey]
    by_cases hh : s.shape.hash = l.shape.hash
    · rw [meet_renew hk hkey hh]
      exact Profiler.get?_observe_ne hne _ _
    · rw [meet_reshape hk hkey hh]
      exact (Profiler.get?_observe_ne hne _ _).trans (Profiler.get?_reset_ne hne)

end Dispatch

/-! ## The invariant -/

namespace Dispatcher

variable {o : DispatchOptions} {l : Loop} {d d' : Dispatcher} {H : List Execution} {p q : Nat} {s : Site}
  {runs : String → Nat}

/-- What holds of a dispatcher the interpreter reaches while it meets the
identity of `l` only with `l`, with `H` the executions of `l` so far. -/
structure Gating (o : DispatchOptions) (l : Loop) (d : Dispatcher) (H : List Execution) : Prop where
  plan : d.plan = o.plan
  /-- The profile of the identity counts the executions, and at most the
  time measured so far. -/
  counted : ((d.profiler.get? l.id).getD { id := l.id }).Counts H d.spent
  /-- Once the loop is met, its identity has the profile meeting it observes. -/
  observed : ∀ p s, d.siteOf? l.id = some (p, s) → d.profiler.Observes l
  /-- Before the loop is met, it is not hot. -/
  fresh : d.siteOf? l.id = none → o.hot H = false
  /-- The site of the identity is the loop's, cold or hot as its executions are. -/
  site : ∀ p s, d.siteOf? l.id = some (p, s) → s.Gates l o.plan (o.hot H)

/-- What exact gating assumes of a dispatcher made with `o` and executions
`H` of `l`: the iteration floor is not negative, as a valid configuration
has it; the time measured so far is below its floor; once hot, the plan the
dispatcher makes for `l` builds; its fingerprint is not remembered as
failed; and no 64-bit counter wraps. -/
structure GateAssumptions (o : DispatchOptions) (l : Loop) (d : Dispatcher) (H : List Execution) : Prop where
  minIterations : 0 ≤ o.gate.minIterations
  elapsed : (d.spent : Int) < o.gate.minElapsed.toInt
  builds : o.hot H = true → ∃ a, (l.hotSite o.plan).build = .ok a
  unfailed : (l.hotSite o.plan).fingerprint ∉ d.failed.map (·.1)
  iterations : Execution.total H < 2 ^ 63
  executions : H.length < 2 ^ 64

theorem gating_new (o : DispatchOptions) (l : Loop) : (Dispatcher.new o).Gating o l [] where
  plan := rfl
  counted := (Profile.counts_new l.id).mono (Nat.zero_le _)
  observed _ _ h := by simp [siteOf?, siteAt?, Dispatcher.new] at h
  fresh _ := rfl
  site _ _ h := by simp [siteOf?, siteAt?, Dispatcher.new] at h

theorem Gating.clear (h : d.Gating o l H) : ({ d with log := #[] } : Dispatcher).Gating o l H :=
  ⟨h.plan, h.counted, h.observed, h.fresh, h.site⟩

/-- A step on another site than the loop's keeps the invariant. -/
theorem Gating.frame (h : d.Gating o l H) (ht : Touches q d d') (hq : d.siteAt? l.id ≠ some q)
    (hg : Grows d d') : d'.Gating o l H := by
  have hk := ht.siteOf?_eq hq
  have hprof := ht.keeps.2.2
  refine ⟨hg.1.trans h.plan, ?_, fun p s hs => ?_, fun hs => h.fresh (hk ▸ hs), fun p s hs => h.site p s (hk ▸ hs)⟩
  · rw [hprof]
    exact h.counted.mono hg.spent_le
  · rw [Profiler.Observes, hprof]
    exact h.observed p s (hk ▸ hs)

/-- A step on the loop's site that keeps the profiles and leaves the site
as the executions `H'` have it keeps the invariant. -/
theorem Gating.retouch (h : d.Gating o l H) (ht : Touches p d d') (hk : d.siteOf? l.id = some (p, s))
    (hgrows : Grows d d') {s' : Site} {H' : List Execution} (hs' : d'.heap[p]? = some s')
    (hg : s'.Gates l o.plan (o.hot H')) (hc : ((d.profiler.get? l.id).getD { id := l.id }).Counts H' d.spent) :
    d'.Gating o l H' := by
  obtain ⟨-, hsites, hprof⟩ := ht.keeps
  have hk' : d'.siteOf? l.id = some (p, s') := by
    refine siteOf?_eq_some.2 ⟨?_, hs'⟩
    simpa only [siteAt?, hsites] using (siteOf?_eq_some.1 hk).1
  refine ⟨hgrows.1.trans h.plan, hprof ▸ hc.mono hgrows.spent_le, fun _ _ _ => ?_, fun hn => absurd (hk'.symm.trans hn) (Option.some_ne_none _),
    fun p₁ s₁ hk₁ => ?_⟩
  · rw [Profiler.Observes, hprof]
    exact h.observed p s hk
  · rw [hk'] at hk₁
    cases hk₁
    exact hg

/-- Recording an execution keeps the invariant: of the loop's identity, it
is counted with its time, and it is not hot before it is settled. -/
theorem Gating.record (h : d.Gating o l H) (id : String) (c : Bool) (n : Nat)
    (hn : Execution.total ((Dispatch.Step.record id c n).executions l d H) < 2 ^ 63)
    (hT : ((Dispatch.Step.record id c n).apply d).spent < 2 ^ 63) :
    ((Dispatch.Step.record id c n).apply d).Gating o l ((Dispatch.Step.record id c n).executions l d H) := by
  change Execution.total (if id = l.id then ⟨n, false⟩ :: H else H) < 2 ^ 63 at hn
  show Gating o l { d with profiler := d.profiler.record id n.toInt64 d.now,
                           monitor := d.monitor.ran c n d.now.toInt, ticks := d.ticks + 1 }
    (if id = l.id then ⟨n, false⟩ :: H else H)
  -- the step reads the clock once more
  have hspent : spent { d with profiler := d.profiler.record id n.toInt64 d.now,
                               monitor := d.monitor.ran c n d.now.toInt, ticks := d.ticks + 1 } =
      d.spent + d.clock d.ticks :=
    spent_tick rfl rfl
  have hget : (d.profiler.record id n.toInt64 d.now).get? l.id = _ :=
    Profiler.get?_update (f := (·.record n.toInt64 d.now)) (fun _ => rfl) l.id
  by_cases hid : id = l.id
  · -- an execution of the loop: counted, and not hot before it is settled
    subst hid
    rw [if_pos rfl] at hn hget ⊢
    have hn' : n < 2 ^ 63 := by
      rw [Execution.total_cons] at hn
      exact lt_of_le_of_lt (Nat.le_add_right _ _) hn
    have hhot : o.hot (⟨n, false⟩ :: H) = o.hot H := by simp [DispatchOptions.hot]
    refine ⟨h.plan, ?_, fun p s hk => ?_, fun hk => hhot ▸ h.fresh hk, fun p s hk => hhot ▸ h.site p s hk⟩
    · show ((d.profiler.record l.id n.toInt64 d.now).get? l.id).getD _ |>.Counts _ _
      rw [hget, hspent]
      exact h.counted.record hn' (by rw [← hspent]; exact hT)
    · obtain ⟨q, hq, ht, ha⟩ := h.observed p s hk
      refine ⟨_, hget, ?_⟩
      rw [hq]
      exact ⟨ht, ha⟩
  · rw [if_neg hid]
    rw [if_neg (Ne.symm hid)] at hget
    refine ⟨h.plan, ?_, fun p s hk => ?_, h.fresh, h.site⟩
    · show ((d.profiler.record id n.toInt64 d.now).get? l.id).getD _ |>.Counts _ _
      rw [hget, hspent]
      exact h.counted.mono (Nat.le_add_right _ _)
    · show ∃ q, (d.profiler.record id n.toInt64 d.now).get? l.id = some q ∧ _
      rw [hget]
      exact h.observed p s hk

/-- Meeting the loop keeps the invariant: met again, its site is returned
as it is; met first, it gets a fresh site, cold, and its profile is
observed. -/
theorem Gating.meet_self (h : d.Gating o l H) : ((Dispatch.meet l).run d).2.Gating o l H := by
  cases hk : d.siteOf? l.id with
  | some ps =>
    obtain ⟨p, s⟩ := ps
    have hloop := (h.site p s hk).form.2.1
    rw [Dispatch.meet_same hk (by rw [hloop])]
    exact h
  | none =>
    rw [Dispatch.meet_fresh hk]
    have hk' : (d.adopt l.site).siteOf? l.id = some (d.heap.length, l.site) := siteOf?_adopt_self
    have hget : (d.profiler.observe l.id (tierOf l.body) l.access).get? l.id = _ :=
      Profiler.get?_update (f := fun q => { q with tier := tierOf l.body, access := l.access, observed := true })
        (fun _ => rfl) l.id
    rw [if_pos rfl] at hget
    refine ⟨h.plan, ?_, fun _ _ _ => ⟨_, hget, rfl, rfl⟩,
      fun hn => absurd (hk'.symm.trans hn) (Option.some_ne_none _), fun p s hks => ?_⟩
    · show ((d.profiler.observe l.id _ _).get? l.id).getD _ |>.Counts H _
      rw [hget]
      exact h.counted.observe _ _
    · have hks' : (d.adopt l.site).siteOf? l.id = some (p, s) := hks
      rw [hk'] at hks'
      cases hks'
      rw [h.fresh hk]
      exact .inl rfl

/-- Meeting another identity leaves the loop's site and profile as they
were. -/
theorem Gating.meet_other (h : d.Gating o l H) (hmap : d.Mapped) {l' : Loop} (hid : l'.id ≠ l.id) :
    ((Dispatch.meet l').run d).2.Gating o l H := by
  have hk := (met_meet hmap l').others l.id (Ne.symm hid)
  have hget := Dispatch.get?_meet_ne (d := d) (Ne.symm hid)
  refine ⟨(Dispatch.grows_meet d l').1.trans h.plan, ?_, fun p s hs => ?_, fun hs => h.fresh (hk ▸ hs),
    fun p s hs => h.site p s (hk ▸ hs)⟩
  · rw [hget]
    exact h.counted.mono (Dispatch.grows_meet d l').spent_le
  · rw [Profiler.Observes, hget]
    exact h.observed p s (hk ▸ hs)

/-- Acquiring the loop's site, compiled, keeps the invariant: its plan
builds, so the site stays as it is. -/
theorem Gating.acquire_self (h : d.Gating o l H) (hk : d.siteOf? l.id = some (p, s)) (hc : s.state = .compiled)
    (hb : o.hot H = true → ∃ a, (l.hotSite o.plan).build = .ok a) :
    ((Dispatch.acquire p).run d).2.Gating o l H := by
  have hg := h.site p s hk
  have hhot : o.hot H = true := hg.compiled_iff.1 hc
  have hs : s = { l.hotSite o.plan with state := .compiled } := by
    rw [hhot] at hg
    exact hg
  obtain ⟨a, hb⟩ := hb hhot
  obtain ⟨-, ht, hs'⟩ :=
    Dispatch.acquire_built (siteOf?_eq_some.1 hk).2 hg.open (by rw [hs, Site.build_state]; exact hb)
  refine h.retouch ht hk (Dispatch.grows_closed.acquire d p) hs' ?_ h.counted
  rw [hhot, hs]
  rfl

/-- Settling the loop's site after an execution that ended well keeps the
invariant for the executions with the newest settled: an interpreted site
starts profiling, and the site is promoted, to compiled, exactly when the
executions so far reach both gates. -/
theorem Gating.afterRun_self (h : d.Gating o l H) (hk : d.siteOf? l.id = some (p, s))
    (hgate : d.profiler.gate = (Profiler.new o.gate).gate)
    (hA : ((Dispatch.afterRun p).run d).2.GateAssumptions o l (Execution.settle H)) :
    ((Dispatch.afterRun p).run d).2.Gating o l (Execution.settle H) := by
  obtain ⟨-, hs⟩ := siteOf?_eq_some.1 hk
  have hg := h.site p s hk
  have hobs := h.observed p s hk
  have hgrows := Dispatch.grows_closed.afterRun d p
  have hfail := hgrows.unfailed hA.unfailed
  have hel : (d.spent : Int) < o.gate.minElapsed.toInt :=
    lt_of_le_of_lt (by exact_mod_cast hgrows.spent_le) hA.elapsed
  -- the gate on the identity, read off the profile that counts the executions
  have hsc : d.profiler.shouldCompile l.id =
      (decide ((Profiler.new o.gate).gate.threshold.toNat ≤ H.length) &&
        decide (o.gate.minIterations.toNatClampNeg ≤ Execution.total H)) := by
    obtain ⟨q, hq, -, -⟩ := hobs
    have hc := h.counted
    rw [hq, Option.getD_some] at hc
    have htot : Execution.total H < 2 ^ 64 := by
      have := hA.iterations
      rw [Execution.total_settle] at this
      omega
    have hlen : H.length < 2 ^ 64 := by
      have := hA.executions
      rwa [Execution.length_settle] at this
    rw [Profiler.shouldCompile_of_counts hq hc hlen htot (hgate ▸ hA.minIterations) (hgate ▸ hel), hgate]
    rfl
  have hsettle : o.hot (Execution.settle H) = (o.hot H || d.profiler.shouldCompile l.id) := by
    rw [hsc]
    exact Execution.hot_settle o.threshold_pos H
  have ht := (Dispatch.afterRun_touches hs hg.open.1).1
  suffices hafter : ∃ s', ((Dispatch.afterRun p).run d).2.heap[p]? = some s' ∧
      s'.Gates l o.plan (o.hot (Execution.settle H)) by
    obtain ⟨s', hs', hg'⟩ := hafter
    exact h.retouch ht hk hgrows hs' hg' h.counted.settle
  -- first an interpreted site starts profiling
  obtain ⟨d₁, s₁, hd₁, hs₁, hg₁, hprof₁, hplan₁, hfail₁⟩ : ∃ d₁ s₁,
      (if s.state = .interpreted then d.move p .profiling else d) = d₁ ∧ d₁.heap[p]? = some s₁ ∧
        s₁.Gates l o.plan (o.hot H) ∧ d₁.profiler = d.profiler ∧ d₁.plan = d.plan ∧ d₁.failed = d.failed := by
    by_cases hi : s.state = .interpreted
    · have hcold : o.hot H = false := by
        cases hh : o.hot H with
        | false => rfl
        | true =>
          have hcomp := hg.compiled_iff.2 hh
          rw [hi] at hcomp
          cases hcomp
      rw [hcold] at hg ⊢
      refine ⟨_, _, if_pos hi, Dispatch.heap_move_self hs .profiling, ?_, move_profiler, move_plan, move_failed⟩
      rcases hg with rfl | rfl
      · exact .inr rfl
      · cases hi
    · exact ⟨d, s, if_neg hi, hs, hg, rfl, rfl, rfl⟩
  -- then the site is promoted when the identity is hot
  rw [Dispatch.afterRun_run hs hg.open.2]
  simp only [hd₁, hg.form.2.2, hsettle]
  split
  · rename_i hsc'
    rw [hsc', Bool.or_true]
    have hb := hA.builds (by rw [hsettle, hsc', Bool.or_true])
    exact ⟨_, Dispatch.promote_hotSite hs₁ hg₁.form.1 hg₁.open (hprof₁ ▸ hobs) (hplan₁.trans h.plan)
      (hfail₁ ▸ hfail) hb, rfl⟩
  · rename_i hsc'
    rw [Bool.eq_false_iff.2 hsc', Bool.or_false]
    exact ⟨s₁, hs₁, hg₁⟩

/-- Every step the interpreter may take keeps the invariant, meeting the
identity of the loop only with the loop, in a dispatcher that fits the
loop's slots, under what exact gating assumes after it. -/
theorem Gating.step (h : d.Gating o l H) (hl : d.Lifecycle o runs) (hf : d.Fits l) {st : Dispatch.Step}
    (ha : st.Allowed d) (hm : st.MeetsOnly l) (hA : (st.apply d).GateAssumptions o l (st.executions l d H)) :
    (st.apply d).Gating o l (st.executions l d H) := by
  cases st with
  | meet l' =>
    by_cases hid : l'.id = l.id
    · have hl' : l' = l := hm hid
      subst hl'
      exact h.meet_self
    · exact h.meet_other hl.mapped hid
  | record id c n =>
    have := hA.elapsed
    have := o.gate.minElapsed.toInt_lt
    exact h.record id c n hA.iterations (by omega)
  | acquire q =>
    obtain ⟨t, ht, hcomp⟩ := ha
    by_cases hq : d.siteAt? l.id = some q
    · exact h.acquire_self (siteOf?_eq_some.2 ⟨hq, ht⟩) hcomp hA.builds
    · have ho : t.state.Open := by
        rw [hcomp]
        exact ⟨nofun, nofun⟩
      exact h.frame (Dispatch.acquire_touches ht ho).1 hq (Dispatch.grows_closed.acquire d q)
  | fail q e =>
    by_cases hq : d.siteAt? l.id = some q
    · -- the loop's own site is never given up: its artifacts fit its slots
      obtain ⟨t, ht, -⟩ := hl.mapped l.id q hq
      have hg := h.site q t (siteOf?_eq_some.2 ⟨hq, ht⟩)
      exact absurd ha (hf.not_fail ht (by rw [hg.shape]) e)
    · obtain ⟨t, a, ht, hcomp, -⟩ := ha
      exact h.frame (Dispatch.fail_touches ht hcomp e).1 hq (Dispatch.grows_fail d q e)
  | afterRun q =>
    change ((Dispatch.afterRun q).run d).2.GateAssumptions o l
      (if d.siteAt? l.id = some q then Execution.settle H else H) at hA
    show Gating o l ((Dispatch.afterRun q).run d).2 (if d.siteAt? l.id = some q then Execution.settle H else H)
    by_cases hq : d.siteAt? l.id = some q
    · rw [if_pos hq] at hA ⊢
      obtain ⟨t, ht, -⟩ := hl.mapped l.id q hq
      exact h.afterRun_self (siteOf?_eq_some.2 ⟨hq, ht⟩) hl.gate hA
    · rw [if_neg hq]
      cases ht : d.heap[q]? with
      | none =>
        rw [Dispatch.afterRun_none ht]
        exact h
      | some t =>
        have hc : t.state ≠ .compiling := stateAt_of_some ht ▸ hl.notCompiling q
        exact h.frame (Dispatch.afterRun_touches ht hc).1 hq (Dispatch.grows_closed.afterRun d q)

/-- What exact gating assumes after a step, it assumes before it. -/
theorem GateAssumptions.before {st : Dispatch.Step} (hA : (st.apply d).GateAssumptions o l (st.executions l d H)) :
    d.GateAssumptions o l H := by
  obtain ⟨hhot, htot, hlen⟩ := st.executions_grow (o := o) (l := l) d H
  exact ⟨hA.minIterations, lt_of_le_of_lt (by exact_mod_cast (st.grows d).spent_le) hA.elapsed,
    fun hh => hA.builds (hhot hh), (st.grows d).unfailed hA.unfailed, lt_of_le_of_lt htot hA.iterations,
    lt_of_le_of_lt hlen hA.executions⟩

theorem Gated.reach (h : d.Gated o l H) : ∃ runs, d.Reach o runs := by
  induction h with
  | start => exact ⟨_, .start⟩
  | step _ ha _ _ ih =>
    obtain ⟨runs, hr⟩ := ih
    exact ⟨_, hr.step ha⟩
  | clear _ ih =>
    obtain ⟨runs, hr⟩ := ih
    exact ⟨runs, hr.clear⟩

/-- Every dispatcher the interpreter reaches meeting only loops that agree
with `l` on the slots of its shape hash fits `l`. -/
theorem Gated.fits (h : d.Gated o l H) : d.Fits l := by
  induction h with
  | start => exact fits_new o l
  | step _ ha _ hs ih => exact ih.step ha hs
  | clear _ ih => exact ⟨ih.sites, ih.cached⟩

/-- Every dispatcher the interpreter reaches meeting the identity of the
loop only with the loop keeps the invariant, under what exact gating
assumes. -/
theorem Gated.gating (h : d.Gated o l H) (hA : d.GateAssumptions o l H) : d.Gating o l H := by
  induction h with
  | start => exact gating_new o l
  | step hd ha hm _ ih =>
    obtain ⟨runs, hr⟩ := hd.reach
    exact (ih hA.before).step hr.lifecycle hd.fits ha hm hA
  | clear _ ih => exact (ih ⟨hA.1, hA.2, hA.3, hA.4, hA.5, hA.6⟩).clear

/-! ## Exact gating -/

/-- Hotness gating is exact. Follow loop `l` through any sequence of steps
the interpreter may take from a fresh dispatcher made with `o`, meeting the
identity of `l` only with `l`, and meeting only loops that have `l`'s number
of slots when they have its shape hash, with `H` its executions so far,
newest first. Suppose the iteration floor is not negative, the time the
clock has measured in all is below its floor, the plan the dispatcher makes
for `l` builds once the executions are hot, its fingerprint is not
remembered as failed, and no counter wraps. Then the executions are hot
exactly when one of them ended well, was at least the threshold-th, and
brought the iterations, with those before it, to at least the floor; and
the site of `l`
* is missing or cold, interpreted or profiling, until the executions are
  hot, so every execution until then runs interpreted;
* is compiled once they are hot, and acquiring it then always gives an
  artifact, cached or built again, laid out for `l`'s number of slots: every
  later execution runs it, in a frame it fits, so it reports no defect and
  the site is never given up. -/
theorem Gated.compiled_iff_hot (h : d.Gated o l H) (hmin : 0 ≤ o.gate.minIterations)
    (hel : (d.spent : Int) < o.gate.minElapsed.toInt)
    (hbuild : o.hot H = true → ∃ a, (l.hotSite o.plan).build = .ok a)
    (hfail : (l.hotSite o.plan).fingerprint ∉ d.failed.map (·.1)) (hit : Execution.total H < 2 ^ 63)
    (hlen : H.length < 2 ^ 64) :
    (o.hot H = true ↔ ∃ e P, e :: P <:+ H ∧ e.ok = true ∧
        (Profiler.new o.gate).gate.threshold.toNat ≤ P.length + 1 ∧
        o.gate.minIterations.toNatClampNeg ≤ Execution.total (e :: P)) ∧
      (d.siteOf? l.id = none → o.hot H = false) ∧
      ∀ p s, d.siteOf? l.id = some (p, s) →
        (s.state = .compiled ↔ o.hot H = true) ∧
        (o.hot H = false → s.state = .interpreted ∨ s.state = .profiling) ∧
        (o.hot H = true → ∃ a, ((Dispatch.acquire p).run d).1 = some a ∧ a.layout.length = l.shape.numSlots) := by
  have hg := h.gating ⟨hmin, hel, hbuild, hfail, hit, hlen⟩
  refine ⟨Execution.hot_iff, hg.fresh, fun p s hk => ?_⟩
  have hs := hg.site p s hk
  have hheap := (siteOf?_eq_some.1 hk).2
  refine ⟨hs.compiled_iff, fun hc => ?_, fun hh => ?_⟩
  · rw [hc] at hs
    exact hs.cold
  · -- compiled with the plan that builds: acquiring it gives the artifact,
    -- laid out for the loop as every artifact of its shape hash is
    obtain ⟨a, hb⟩ := hbuild hh
    have hc := hs.compiled_iff.2 hh
    have hs' : s = { l.hotSite o.plan with state := .compiled } := by
      rw [hh] at hs
      exact hs
    obtain ⟨a', ha'⟩ := (Dispatch.acquire_built hheap hs.open (by rw [hs', Site.build_state]; exact hb)).1
    refine ⟨a', ha', h.fits.acquired hheap ?_ (by rw [hs.shape]) ha'⟩
    rw [hs.fingerprint hc, hs.shape]

open Dispatch in
/-- Exact gating along the evicting run, following its first loop: the one
execution of the loop ended well, so its executions are hot; its site is
compiled, and acquiring its artifact, evicted by the second loop's, builds
it again, laid out for the loop's slots. -/
theorem Gated.compiled_iff_hot_evicted :
    ∃ H, evicted.Gated eagerOptions sumLoop H ∧ H = [⟨2, true⟩] ∧ eagerOptions.hot H = true ∧
      evicted.cache.evictions = 1 ∧ 0 ≤ eagerOptions.gate.minIterations ∧
      (evicted.spent : Int) < eagerOptions.gate.minElapsed.toInt ∧
      (eagerOptions.hot H = true → ∃ a, (sumLoop.hotSite eagerOptions.plan).build = .ok a) ∧
      (sumLoop.hotSite eagerOptions.plan).fingerprint ∉ evicted.failed.map (·.1) ∧
      Execution.total H < 2 ^ 63 ∧ H.length < 2 ^ 64 ∧
      (eagerOptions.hot H = true ↔ ∃ e P, e :: P <:+ H ∧ e.ok = true ∧
        (Profiler.new eagerOptions.gate).gate.threshold.toNat ≤ P.length + 1 ∧
        eagerOptions.gate.minIterations.toNatClampNeg ≤ Execution.total (e :: P)) ∧
      (evicted.siteOf? sumLoop.id = none → eagerOptions.hot H = false) ∧
      ∀ p s, evicted.siteOf? sumLoop.id = some (p, s) →
        (s.state = .compiled ↔ eagerOptions.hot H = true) ∧
        (eagerOptions.hot H = false → s.state = .interpreted ∨ s.state = .profiling) ∧
        (eagerOptions.hot H = true →
          ∃ a, ((Dispatch.acquire p).run evicted).1 = some a ∧ a.layout.length = sumLoop.shape.numSlots) := by
  -- the steps one by one; the second loop has another identity and as many slots
  have h₀ : (Dispatcher.new eagerOptions).Gated eagerOptions sumLoop [] := .start
  have h₁ := @Gated.step _ _ _ _ (.meet sumLoop) h₀ trivial (fun _ => rfl) (fun _ => rfl)
  have h₂ := @Gated.step _ _ _ _ (.record sumLoop.id false 2) h₁ trivial trivial trivial
  have h₃ := @Gated.step _ _ _ _ (.afterRun 0) h₂ trivial trivial trivial
  have h₄ := @Gated.step _ _ _ _ (.meet doubleLoop) h₃ trivial (fun h => absurd h (by decide +kernel))
    (fun _ => by decide +kernel)
  have h₅ := @Gated.step _ _ _ _ (.record doubleLoop.id false 2) h₄ trivial trivial trivial
  have h₆ := @Gated.step _ _ _ _ (.afterRun 1) h₅ trivial trivial trivial
  have h₇ : evicted.Gated eagerOptions sumLoop _ := @Gated.step _ _ _ _ (.meet sumLoop) h₆ trivial
    (fun _ => rfl) (fun _ => rfl)
  -- the loop's plan builds
  have hok : (sumLoop.hotSite eagerOptions.plan).build.toBool = true := by decide +kernel
  obtain ⟨a, ha⟩ : ∃ a, (sumLoop.hotSite eagerOptions.plan).build = .ok a := by
    cases hb : (sumLoop.hotSite eagerOptions.plan).build with
    | ok a => exact ⟨a, rfl⟩
    | error e =>
      rw [hb] at hok
      cases hok
  -- the executions of the loop: one, of two iterations, settled as ended well
  obtain ⟨H, hg, hH⟩ : ∃ H, evicted.Gated eagerOptions sumLoop H ∧ H = [⟨2, true⟩] :=
    ⟨_, h₇, by decide +kernel⟩
  subst hH
  have hmin : 0 ≤ eagerOptions.gate.minIterations := by decide
  have hel : (evicted.spent : Int) < eagerOptions.gate.minElapsed.toInt := by decide +kernel
  have hfail : (sumLoop.hotSite eagerOptions.plan).fingerprint ∉ evicted.failed.map (·.1) := by decide +kernel
  have hit : Execution.total [⟨2, true⟩] < 2 ^ 63 := by decide
  have hlen : [(⟨2, true⟩ : Execution)].length < 2 ^ 64 := by decide
  exact ⟨_, hg, rfl, by decide, by decide +kernel, hmin, hel, fun _ => ⟨a, ha⟩, hfail, hit, hlen,
    Gated.compiled_iff_hot hg hmin hel (fun _ => ⟨a, ha⟩) hfail hit hlen⟩

end Dispatcher

/-! ## Where two shapes share a hash

Artifacts are shared by fingerprint, and a fingerprint names a shape only
by its hash. A loop whose shape hash is that of a compiled loop with fewer
slots takes that loop's artifact from the cache; the layout check refuses
it at the next execution, and the site is given up for good although it is
hot and compiles. This is why `Gated` asks every loop met at `l`'s shape
hash to have `l`'s slots. -/

namespace Dispatch

/-- `for i in 0..1 { s = a + -8394261375051574434 }` at 1:1, two slots. -/
def narrowLoop : Loop :=
  ⟨0, ⟨1, 1⟩, .range "i" (.int .none 0) (.int .none 1) none,
    [.assign ⟨2, 3⟩ "s" (.binary .none .add (.ident .none "a") (.int .none (-8394261375051574434)))]⟩

/-- `for i in 0..1 { s = a + 6513023898211425431; t = 0 }` at 5:1, three
slots, with the shape hash of `narrowLoop`. -/
def wideLoop : Loop :=
  ⟨1, ⟨5, 1⟩, .range "i" (.int .none 0) (.int .none 1) none,
    [.assign ⟨6, 3⟩ "s" (.binary .none .add (.ident .none "a") (.int .none 6513023898211425431)),
      .assign ⟨7, 3⟩ "t" (.int .none 0)]⟩

/-- Options under which a loop is compiled after its first execution. -/
def hotOptions : DispatchOptions := { gate := { threshold := 1, minIterations := 0 } }

end Dispatch

open Dispatch in
/-- The narrow loop run once, then the wide loop three times: the wide
loop, hot after its first execution and accepted by the compiler, is
compiled with the narrow loop's artifact and then given up for good. -/
theorem Machine.shape_collision_gives_up_hot_loop :
    let g : Bindings := [("a", .int 1), ("s", .int 0), ("t", .int 0)]
    narrowLoop.shape.hash = wideLoop.shape.hash ∧ narrowLoop.shape.numSlots = 2 ∧
      wideLoop.shape.numSlots = 3 ∧ (wideLoop.hotSite hotOptions.plan).build.toBool = true ∧
      ((Machine.dispatching hotOptions).execAll
          [([narrowLoop.toStmt], g), ([wideLoop.toStmt], g), ([wideLoop.toStmt], g), ([wideLoop.toStmt], g)]).map
        (fun r => r.2.dispatcher.map (·.stateOf wideLoop.id)) =
        [some .interpreted, some .compiled, some .permanentlyInterpreted, some .permanentlyInterpreted] := by
  intro g
  unfold g
  decide +kernel

end HotLoop
