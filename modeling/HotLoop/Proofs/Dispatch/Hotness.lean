import Mathlib
import HotLoop.Proofs.Dispatch.Gating
/-!
# HotLoop.Proofs.Dispatch.Hotness

What the compilation gate says of one site along a whole run of profiler
commands that never resets it.

* `Profile.Adds p q rs`: `q` holds the counters of `p` with the records `rs`
  added, each 64-bit counter wrapping: one execution per record, its
  iterations (none when negative) and its time.
* `Profiler.adds_run`: along every run that does not reset the site, its
  profile is its profile before with exactly the records made for it added;
  classifications, queries and other sites' commands leave its counters
  alone.
* `Profiler.cold_below_threshold`: a site for which fewer executions than
  the threshold have been counted is not hot, whatever the other counters
  hold.
* `Profiler.hot_persists`: a hot site stays hot while no counter wraps and
  no time recorded for it is negative. The premise on wrapping cannot be
  dropped (`Profiler.hot_lost_on_wrap`): the iteration counter of a site
  wraps to zero after records of `2 ^ 64` iterations in all, and the site is
  then cold again.
-/

namespace HotLoop

/-! ## Counters that add records -/

/-- `q` holds the counters of `p` with the records `rs` added, each counter
wrapping on its word. -/
structure Profile.Adds (p q : Profile) (rs : List (Int64 × Int64)) : Prop where
  executions : q.executions.toNat = (p.executions.toNat + rs.length) % 2 ^ 64
  iterations : q.iterations.toNat =
    (p.iterations.toNat + (rs.map fun r => r.1.toNatClampNeg).sum) % 2 ^ 64
  elapsed : q.elapsed.toInt = (p.elapsed.toInt + (rs.map fun r => r.2.toInt).sum).bmod (2 ^ 64)

namespace Profile

variable {p q r : Profile} {rs rs' : List (Int64 × Int64)}

/-- A negative iteration count is recorded as none. -/
theorem toNat_clamped (n : Int64) : (if n < 0 then 0 else n).toUInt64.toNat = n.toNatClampNeg := by
  split
  · rename_i hneg
    have : n.toInt < 0 := by simpa [Int64.lt_iff_toInt_lt] using hneg
    rw [← Int64.toNat_toInt, Int.toNat_eq_zero.2 this.le]
    rfl
  · exact Int64.toNat_toUInt64_of_le (Int64.not_lt.1 ‹_›)

/-- Recording one execution adds it. -/
theorem adds_record (p : Profile) (n e : Int64) : p.Adds (p.record n e) [(n, e)] where
  executions := by
    show (p.executions + 1).toNat = _
    simp [UInt64.toNat_add]
  iterations := by
    show (p.iterations + (if n < 0 then 0 else n).toUInt64).toNat = _
    simp [UInt64.toNat_add, toNat_clamped]
  elapsed := by
    show (p.elapsed + e).toInt = _
    simp [Int64.toInt_add]

/-- A change that keeps the counters adds nothing. -/
theorem Adds.of_counters (he : q.executions = p.executions) (hi : q.iterations = p.iterations)
    (hel : q.elapsed = p.elapsed) : p.Adds q [] where
  executions := by rw [he, List.length_nil, Nat.add_zero, Nat.mod_eq_of_lt p.executions.toNat_lt]
  iterations := by
    rw [hi, List.map_nil, List.sum_nil, Nat.add_zero, Nat.mod_eq_of_lt p.iterations.toNat_lt]
  elapsed := by
    have := p.elapsed.le_toInt
    have := p.elapsed.toInt_lt
    rw [hel, List.map_nil, List.sum_nil, Int.add_zero, Int.bmod_eq_of_le (by omega) (by omega)]

theorem Adds.refl (p : Profile) : p.Adds p [] := .of_counters rfl rfl rfl

/-- Records added one after the other add up. -/
theorem Adds.trans (h₁ : p.Adds q rs) (h₂ : q.Adds r rs') : p.Adds r (rs ++ rs') where
  executions := by
    rw [h₂.executions, h₁.executions, Nat.mod_add_mod, List.length_append, Nat.add_assoc]
  iterations := by
    rw [h₂.iterations, h₁.iterations, Nat.mod_add_mod, List.map_append, List.sum_append,
      Nat.add_assoc]
  elapsed := by
    rw [h₂.elapsed, h₁.elapsed, Int.bmod_add_bmod, List.map_append, List.sum_append, Int.add_assoc]

end Profile

/-! ## The profile of one site along a run -/

namespace Profiler

/-- The profile of `id`, a fresh one when the site has none. -/
def profileOf (a : Profiler) (id : String) : Profile := (a.get? id).getD { id := id }

/-- The iterations and time a command records for site `id`. -/
def Command.recordFor (id : String) : Command → Option (Int64 × Int64)
  | .record id' n e => if id' = id then some (n, e) else none
  | _ => none

/-- The records made for site `id` by a list of commands, in order. -/
def recordsFor (id : String) (cs : List Command) : List (Int64 × Int64) :=
  cs.filterMap (Command.recordFor id)

variable {a : Profiler} {id : String}

theorem run_nil (a : Profiler) : (a.run []).2 = a := rfl

theorem run_cons (a : Profiler) (c : Command) (cs : List Command) :
    (a.run (c :: cs)).2 = ((a.step c).2.run cs).2 := rfl

theorem recordsFor_cons (c : Command) (cs : List Command) :
    recordsFor id (c :: cs) = (c.recordFor id).toList ++ recordsFor id cs := by
  unfold recordsFor
  rw [List.filterMap_cons]
  cases c.recordFor id <;> rfl

theorem profileOf_of_get? {q : Profile} (h : a.get? id = some q) : a.profileOf id = q := by
  rw [profileOf, h, Option.getD_some]

theorem gate_step (a : Profiler) (c : Command) : (a.step c).2.gate = a.gate := by
  cases c <;> first | rfl | exact gate_update _

theorem gate_run (a : Profiler) : ∀ cs : List Command, (a.run cs).2.gate = a.gate
  | [] => rfl
  | c :: cs => by rw [run_cons, gate_run _ cs, gate_step]

/-- One command that does not reset site `id` adds to its profile exactly
the record it makes for it, if any. -/
theorem adds_step (a : Profiler) (id : String) (c : Command) (hc : c ≠ .reset id) :
    (a.profileOf id).Adds ((a.step c).2.profileOf id) (c.recordFor id).toList := by
  cases c with
  | record id' n e =>
    show (a.profileOf id).Adds ((a.record id' n e).profileOf id) _
    unfold profileOf
    rw [record, get?_update (f := (·.record n e)) (fun _ => rfl)]
    by_cases hid : id = id'
    · subst hid
      simpa [Command.recordFor, profileOf] using Profile.adds_record (a.profileOf id) n e
    · simpa [Command.recordFor, hid, Ne.symm hid, profileOf] using Profile.Adds.refl (a.profileOf id)
  | observe id' t acc =>
    show (a.profileOf id).Adds ((a.observe id' t acc).profileOf id) []
    unfold profileOf
    rw [observe, get?_update (f := fun q => { q with tier := t, access := acc, observed := true })
      (fun _ => rfl)]
    split
    · rename_i hid
      subst hid
      exact Profile.Adds.of_counters rfl rfl rfl
    · exact Profile.Adds.refl _
  | reset id' =>
    have hne : id ≠ id' := fun h => hc (h ▸ rfl)
    show (a.profileOf id).Adds ((a.reset id').profileOf id) []
    unfold profileOf
    rw [get?_reset_ne hne]
    exact Profile.Adds.refl _
  | shouldCompile _ => exact Profile.Adds.refl _
  | profile _ => exact Profile.Adds.refl _
  | profiles => exact Profile.Adds.refl _

/-- Along a run that never resets site `id`, its profile is its profile
before with the records made for it added. -/
theorem adds_run (a : Profiler) (id : String) : ∀ cs : List Command, (∀ c ∈ cs, c ≠ .reset id) →
    (a.profileOf id).Adds ((a.run cs).2.profileOf id) (recordsFor id cs)
  | [], _ => Profile.Adds.refl _
  | c :: cs, hreset => by
    rw [run_cons, recordsFor_cons]
    exact (adds_step a id c (hreset c List.mem_cons_self)).trans
      (adds_run _ id cs fun c' h => hreset c' (List.mem_cons_of_mem c h))

/-- A site keeps its profile along a run that never resets it. -/
theorem isSome_run (a : Profiler) (id : String) (ha : (a.get? id).isSome) :
    ∀ cs : List Command, (∀ c ∈ cs, c ≠ .reset id) → ((a.run cs).2.get? id).isSome
  | [], _ => ha
  | c :: cs, hreset => by
    rw [run_cons]
    refine isSome_run _ id ?_ cs fun c' h => hreset c' (List.mem_cons_of_mem c h)
    have hc := hreset c List.mem_cons_self
    cases c with
    | record id' n e =>
      show ((a.record id' n e).get? id).isSome
      rw [record, get?_update (f := (·.record n e)) (fun _ => rfl)]
      split <;> simp [ha]
    | observe id' t acc =>
      show ((a.observe id' t acc).get? id).isSome
      rw [observe, get?_update (f := fun q => { q with tier := t, access := acc, observed := true })
        (fun _ => rfl)]
      split <;> simp [ha]
    | reset id' =>
      have hne : id ≠ id' := fun h => hc (h ▸ rfl)
      show ((a.reset id').get? id).isSome
      rw [get?_reset_ne hne]
      exact ha
    | shouldCompile _ => exact ha
    | profile _ => exact ha
    | profiles => exact ha

/-- The gate on a site with a profile. -/
theorem shouldCompile_some {q : Profile} (h : a.get? id = some q) :
    a.shouldCompile id = decide (a.gate.threshold.toNat ≤ q.executions.toNat ∧
      (a.gate.minIterations.toUInt64 ≤ q.iterations ∨ a.gate.minElapsed ≤ q.elapsed)) := by
  simp only [shouldCompile, h, ge_iff_le]

/-! ## The gate along a run -/

/-- **A site is cold below the threshold.** Along a run that never resets
site `id`, while fewer executions than the threshold have been counted for
it, before the run and by the run's records together, it is not hot. -/
theorem cold_below_threshold (a : Profiler) (id : String) (cs : List Command)
    (hreset : ∀ c ∈ cs, c ≠ .reset id)
    (hfew : (a.profileOf id).executions.toNat + (recordsFor id cs).length < a.gate.threshold.toNat) :
    (a.run cs).2.shouldCompile id = false := by
  cases hq : (a.run cs).2.get? id with
  | none => simp [shouldCompile, hq]
  | some q =>
    have hexec := (adds_run a id cs hreset).executions
    rw [profileOf_of_get? hq] at hexec
    have hle := Nat.mod_le ((a.profileOf id).executions.toNat + (recordsFor id cs).length) (2 ^ 64)
    rw [shouldCompile_some hq, gate_run]
    simp only [decide_eq_false_iff_not, not_and]
    intro hth
    omega

/-- **A hot site stays hot.** Along a run that never resets site `id`,
records no negative time for it and wraps none of its counters, a hot site
is hot after every command. -/
theorem hot_persists (a : Profiler) (id : String) (cs : List Command)
    (hreset : ∀ c ∈ cs, c ≠ .reset id) (htime : ∀ r ∈ recordsFor id cs, 0 ≤ r.2)
    (hexec : (a.profileOf id).executions.toNat + (recordsFor id cs).length < 2 ^ 64)
    (hiter : (a.profileOf id).iterations.toNat +
      ((recordsFor id cs).map fun r => r.1.toNatClampNeg).sum < 2 ^ 64)
    (hel : (a.profileOf id).elapsed.toInt + ((recordsFor id cs).map fun r => r.2.toInt).sum < 2 ^ 63)
    (hhot : a.shouldCompile id = true) : (a.run cs).2.shouldCompile id = true := by
  obtain ⟨p, hp⟩ : ∃ p, a.get? id = some p := by
    cases h : a.get? id with
    | none => simp [shouldCompile, h] at hhot
    | some p => exact ⟨p, rfl⟩
  obtain ⟨q, hq⟩ := Option.isSome_iff_exists.1
    (isSome_run a id (by simp [hp]) cs hreset)
  have hadds := adds_run a id cs hreset
  rw [profileOf_of_get? hp, profileOf_of_get? hq] at hadds
  rw [profileOf_of_get? hp] at hexec hiter hel
  -- no counter wraps, and the time recorded is not negative: each grows
  have htimes : 0 ≤ ((recordsFor id cs).map fun r => r.2.toInt).sum :=
    List.sum_nonneg fun x hx => by
      obtain ⟨r, hr, rfl⟩ := List.mem_map.1 hx
      exact Int64.le_iff_toInt_le.1 (htime r hr)
  have he : p.executions.toNat ≤ q.executions.toNat := by
    rw [hadds.executions, Nat.mod_eq_of_lt hexec]
    omega
  have hi : p.iterations.toNat ≤ q.iterations.toNat := by
    rw [hadds.iterations, Nat.mod_eq_of_lt hiter]
    omega
  have hl : p.elapsed.toInt ≤ q.elapsed.toInt := by
    have := p.elapsed.le_toInt
    rw [hadds.elapsed, Int.bmod_eq_of_le (by omega) (by omega)]
    omega
  rw [shouldCompile_some hp] at hhot
  rw [shouldCompile_some hq, gate_run]
  simp only [decide_eq_true_eq, UInt64.le_iff_toNat_le, Int64.le_iff_toInt_le] at hhot ⊢
  omega

/-- A site that ran twice with `2 ^ 63 - 1` iterations and no time, under a
gate with a threshold of one execution and a floor of one iteration, is hot;
a record for another site, a classification and one more iteration of its
own bring its iteration counter to `2 ^ 64 - 1`, the last value before it
wraps, and it is still hot. -/
theorem hot_persists_to_last_word :
    let a := ((Profiler.new { threshold := 1, minIterations := 1, minElapsed := Int64.maxValue }).run
      [.record "L" Int64.maxValue 0, .record "L" Int64.maxValue 0]).2
    let cs : List Command := [.record "M" 5 0, .observe "L" .simple .scalar, .record "L" 1 7]
    (∀ c ∈ cs, c ≠ .reset "L") ∧ (∀ r ∈ recordsFor "L" cs, 0 ≤ r.2) ∧
      (a.profileOf "L").executions.toNat + (recordsFor "L" cs).length < 2 ^ 64 ∧
      (a.profileOf "L").iterations.toNat + ((recordsFor "L" cs).map fun r => r.1.toNatClampNeg).sum =
        2 ^ 64 - 1 ∧
      (a.profileOf "L").elapsed.toInt + ((recordsFor "L" cs).map fun r => r.2.toInt).sum < 2 ^ 63 ∧
      a.shouldCompile "L" = true ∧ (a.run cs).2.shouldCompile "L" = true := by
  intro a cs
  have hreset : ∀ c ∈ cs, c ≠ .reset "L" := by simp [cs]
  have htime : ∀ r ∈ recordsFor "L" cs, 0 ≤ r.2 := by simp [cs, recordsFor, Command.recordFor]
  have hexec : (a.profileOf "L").executions.toNat + (recordsFor "L" cs).length < 2 ^ 64 := by decide
  have hiter : (a.profileOf "L").iterations.toNat +
      ((recordsFor "L" cs).map fun r => r.1.toNatClampNeg).sum = 2 ^ 64 - 1 := by decide
  have hel : (a.profileOf "L").elapsed.toInt + ((recordsFor "L" cs).map fun r => r.2.toInt).sum <
      2 ^ 63 := by decide
  have hhot : a.shouldCompile "L" = true := by decide
  exact ⟨hreset, htime, hexec, hiter, hel, hhot,
    hot_persists a "L" cs hreset htime hexec (by omega) hel hhot⟩

/-- Without the premise on wrapping a hot site does not stay hot: two more
iterations wrap the iteration counter of the site above to zero. -/
theorem hot_lost_on_wrap :
    let a := (Profiler.new { threshold := 1, minIterations := 1, minElapsed := Int64.maxValue }).run
      [.record "L" Int64.maxValue 0, .record "L" Int64.maxValue 0]
    a.2.shouldCompile "L" = true ∧ (a.2.run [.record "L" 2 0]).2.shouldCompile "L" = false := by
  decide

end Profiler

end HotLoop
