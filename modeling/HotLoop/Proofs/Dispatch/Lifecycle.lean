import HotLoop.Proofs.Dispatch.Steps
/-!
# HotLoop.Proofs.Dispatch.Lifecycle

The life of the dispatcher's sites, over every sequence of bookkeeping
steps the interpreter can take from a fresh dispatcher.

* Each step changes one site only, and every transition it logs is a legal
  move of that site from the state the site then held (`SiteState.Walk`,
  `Dispatcher.Moved`).
* No site is ever compiling between steps, so none is compiling while a
  loop body runs or when a run ends.
* A permanently interpreted site keeps its state, and its identity, for as
  long as every loop met at that identity has the site's shape hash.
* A site that its identity points to is compiled or permanently
  interpreted only once the profile of that identity has recorded at least
  the threshold of executions.

The counts of executions are kept as a ghost beside the dispatcher, so the
statement is about executions, not about the 64-bit counter that the
profile keeps of them (the counter is their residue, `Lifecycle.counted`).
-/

namespace HotLoop

/-! ## Walks -/

namespace SiteState

/-- `Walk id a es b`: read in order, the log entries `es` take a site of
identity `id` from state `a` to state `b`, each a legal move logged with
the state the site then held. -/
inductive Walk (id : String) : SiteState → List (String × SiteState × SiteState) → SiteState → Prop
  | nil (a : SiteState) : Walk id a [] a
  | cons {a b c : SiteState} {es : List (String × SiteState × SiteState)} :
      a.canMove b = true → Walk id b es c → Walk id a ((id, a, b) :: es) c

variable {id : String} {a b c : SiteState} {es es' : List (String × SiteState × SiteState)}

theorem Walk.append (h : Walk id a es b) (h' : Walk id b es' c) : Walk id a (es ++ es') c := by
  induction h with
  | nil => exact h'
  | cons hab _ ih => exact .cons hab (ih h')

/-- Every move of a walk is legal. -/
theorem Walk.legal (h : Walk id a es b) : ∀ e ∈ es, e.2.1.canMove e.2.2 = true := by
  induction h with
  | nil => simp
  | cons hab _ ih =>
    intro e he
    rcases List.mem_cons.1 he with rfl | he
    · exact hab
    · exact ih e he

/-- The states a site in the middle of its life can move on from: neither
compiling nor permanently interpreted. -/
def Open (a : SiteState) : Prop := a ≠ .compiling ∧ a ≠ .permanentlyInterpreted

theorem Open.toCompiling (h : a.Open) : a.canMove .compiling = true := by
  cases a <;> simp_all [Open, canMove, successors]

theorem Open.toCompiled (h : a.Open) : a = .compiled ∨ a.canMove .compiled = true := by
  cases a <;> simp_all [Open, canMove, successors]

theorem Open.toPermanentlyInterpreted (h : a.Open) : a.canMove .permanentlyInterpreted = true := by
  cases a <;> simp_all [Open, canMove, successors]

end SiteState

/-! ## Executions recorded -/

namespace Profiler

variable {a : Profiler} {id : String}

/-- The executions the profile of `id` counts, none without a profile. -/
def executions (a : Profiler) (id : String) : UInt64 := ((a.get? id).map (·.executions)).getD 0

/-- Changing the profile of `id` by a change that keeps identities: the
profile of `id` is changed, created first when missing, and no other. -/
theorem get?_update {f : Profile → Profile} (hf : ∀ q, (f q).id = q.id) (id' : String) :
    (a.update id f).get? id' = if id' = id then some (f ((a.get? id).getD { id := id })) else a.get? id' := by
  unfold update get?
  split
  · rename_i hany
    have hcomp : ((fun q : Profile => decide (q.id = id')) ∘ fun q => if q.id = id then f q else q) =
        fun q => decide (q.id = id') := by
      funext q
      simp only [Function.comp]
      split <;> simp [hf]
    rw [List.find?_map, hcomp]
    split
    · subst id'
      obtain ⟨q, hq⟩ := Option.isSome_iff_exists.1 (List.find?_isSome.2 (List.any_eq_true.1 hany))
      have hqid : q.id = id := by simpa using List.find?_some hq
      simp [hq, hqid]
    · rename_i hne
      cases hq : a.profiles.find? (·.id = id') with
      | none => rfl
      | some q =>
        have hqid : q.id = id' := by simpa using List.find?_some hq
        simp [hqid, hne]
  · rename_i hany
    have hnone : a.profiles.find? (·.id = id) = none :=
      List.find?_eq_none.2 fun q hq h => hany (List.any_eq_true.2 ⟨q, hq, h⟩)
    rw [List.find?_append]
    split
    · subst id'
      simp [hnone, hf]
    · rename_i hne
      cases a.profiles.find? (·.id = id') <;> simp [hf, Ne.symm hne]

theorem executions_update {f : Profile → Profile} (hf : ∀ q, (f q).id = q.id) (id' : String) :
    (a.update id f).executions id' =
      if id' = id then (f ((a.get? id).getD { id := id })).executions else a.executions id' := by
  rw [executions, get?_update hf]
  split <;> rfl

/-- Recording an execution of `id` counts one more for `id` and none for
any other identity. -/
theorem executions_record (n e : Int64) (id' : String) :
    (a.record id n e).executions id' = if id' = id then a.executions id + 1 else a.executions id' := by
  rw [record, executions_update (f := (·.record n e)) (fun _ => rfl)]
  split
  · simp only [executions]
    cases a.get? id <;> rfl
  · rfl

theorem executions_observe (t : Tier) (acc : Access) (id' : String) :
    (a.observe id t acc).executions id' = a.executions id' := by
  rw [observe, executions_update (f := fun q => { q with tier := t, access := acc, observed := true })
    (fun _ => rfl)]
  split
  · subst id'
    simp only [executions]
    cases a.get? id <;> rfl
  · rfl

theorem executions_reset (id' : String) :
    (a.reset id).executions id' = if id' = id then 0 else a.executions id' := by
  simp only [executions, get?, reset, List.find?_filter]
  split
  · subst id'
    have hnone : a.profiles.find? (fun _ => false) = none := List.find?_eq_none.2 fun _ _ => Bool.false_ne_true
    simp only [decide_not, decide_eq_true_eq] at *
    simp [hnone]
  · rename_i hne
    congr 2
    apply congrArg (List.find? · a.profiles)
    funext q
    by_cases hq : q.id = id' <;> simp [hq, hne]

theorem gate_update (f : Profile → Profile) : (a.update id f).gate = a.gate := by
  unfold update
  split <;> rfl

/-- A hot identity has recorded the threshold of executions, as the
profile counts them. -/
theorem threshold_le_of_shouldCompile (h : a.shouldCompile id = true) :
    a.gate.threshold.toNat ≤ (a.executions id).toNat := by
  unfold shouldCompile at h
  unfold executions
  cases hp : a.get? id with
  | none => simp [hp] at h
  | some q =>
    simp only [hp, decide_eq_true_eq] at h
    exact h.1

end Profiler

/-! ## What a step may change -/

/-- What a site keeps through every step but a meeting: its identity and
the hash of its shape. -/
def Site.tag (s : Site) : String × UInt64 := (s.id, s.shape.hash)

namespace Dispatcher

/-- The state of site `p`; a number with no site reads as interpreted, the
state every site is made in. -/
def stateAt (d : Dispatcher) (p : Nat) : SiteState := (d.heap[p]?.map (·.state)).getD .interpreted

/-- The identity of site `p`, empty for a number with no site. -/
def idAt (d : Dispatcher) (p : Nat) : String := (d.heap[p]?.map (·.id)).getD ""

variable {d d' d₁ d₂ : Dispatcher} {p q : Nat} {s t : Site} {b : SiteState} {id : String}

theorem stateAt_of_some (hs : d.heap[p]? = some s) : d.stateAt p = s.state := by
  simp [stateAt, hs]

theorem idAt_of_some (hs : d.heap[p]? = some s) : d.idAt p = s.id := by
  simp [idAt, hs]

theorem stateAt_move_self (hs : d.heap[p]? = some s) : (d.move p b).stateAt p = b := by
  rw [stateAt_of_some (Dispatch.heap_move_self hs b)]

theorem heap_move_ne (hq : q ≠ p) : (d.move p b).heap[q]? = d.heap[q]? := by
  rw [heap_move, if_neg hq]

theorem log_move (hs : d.heap[p]? = some s) :
    (d.move p b).log.toList = d.log.toList ++ if s.state = b then [] else [(s.id, s.state, b)] := by
  by_cases hb : s.state = b
  · rw [move_of_eq hs hb, if_pos hb, List.append_nil]
  · rw [move_of_ne hs hb, if_neg hb, Array.toList_push]

/-- `d'` differs from `d`, as far as states and the log go, by moves of
site `p` alone: logged under identity `id`, in order, they walk from its
state in `d` to its state in `d'`. -/
structure Moved (p : Nat) (id : String) (d d' : Dispatcher) : Prop where
  walk : ∃ es, d'.log.toList = d.log.toList ++ es ∧ SiteState.Walk id (d.stateAt p) es (d'.stateAt p)
  others : ∀ q, q ≠ p → d'.stateAt q = d.stateAt q

theorem Moved.refl (d : Dispatcher) : Moved p id d d :=
  ⟨⟨[], (List.append_nil _).symm, .nil _⟩, fun _ _ => rfl⟩

theorem Moved.trans (h₁ : Moved p id d d₁) (h₂ : Moved p id d₁ d₂) : Moved p id d d₂ := by
  obtain ⟨es₁, hl₁, hw₁⟩ := h₁.walk
  obtain ⟨es₂, hl₂, hw₂⟩ := h₂.walk
  refine ⟨⟨es₁ ++ es₂, by rw [hl₂, hl₁, List.append_assoc], hw₁.append hw₂⟩, fun q hq => ?_⟩
  rw [h₂.others q hq, h₁.others q hq]

/-- Changing neither the log nor any state moves nothing. -/
theorem Moved.still (hl : d'.log = d.log) (hs : ∀ q, d'.stateAt q = d.stateAt q) : Moved p id d d' :=
  ⟨⟨[], by rw [hl, List.append_nil], hs p ▸ .nil _⟩, fun q _ => hs q⟩

/-- A move of a site to a state it may take, or already holds. -/
theorem Moved.move (hs : d.heap[p]? = some s) (hb : s.state = b ∨ s.state.canMove b = true) :
    Moved p s.id d (d.move p b) := by
  refine ⟨⟨_, log_move hs, ?_⟩, fun q hq => ?_⟩
  · rw [stateAt_of_some hs, stateAt_move_self hs]
    by_cases h : s.state = b
    · rw [if_pos h, h]
      exact .nil b
    · rw [if_neg h]
      exact .cons (hb.resolve_left h) (.nil b)
  · simp only [stateAt, heap_move_ne hq]

/-- The changes a step makes of its one site `p`: moves to states the site
may take, new plans for it, and changes beside the sites, the log and the
profiler. -/
inductive Touches (p : Nat) (d : Dispatcher) : Dispatcher → Prop
  | refl : Touches p d d
  | move {d₁ : Dispatcher} {s : Site} {b : SiteState} : Touches p d d₁ → d₁.heap[p]? = some s →
      s.state = b ∨ s.state.canMove b = true → Touches p d (d₁.move p b)
  | aside {d₁ d₂ : Dispatcher} : Touches p d d₁ → d₂.heap = d₁.heap → d₂.sites = d₁.sites →
      d₂.log = d₁.log → d₂.profiler = d₁.profiler → Touches p d d₂
  | plan {d₁ : Dispatcher} {s : Site} : Touches p d d₁ → d₁.heap[p]? = some s →
      Touches p d { d₁ with heap := d₁.heap.set p (s.planned d₁) }

theorem Touches.trans (h₁ : Touches p d d₁) (h₂ : Touches p d₁ d₂) : Touches p d d₂ := by
  induction h₂ with
  | refl => exact h₁
  | move _ hs hb ih => exact .move ih hs hb
  | aside _ hh hs hl hp ih => exact .aside ih hh hs hl hp
  | plan _ hs ih => exact .plan ih hs

/-- A step on one site keeps every site's tag, the site table and the
profiler. -/
theorem Touches.keeps (h : Touches p d d') :
    (∀ q : Nat, d'.heap[q]?.map Site.tag = d.heap[q]?.map Site.tag) ∧ d'.sites = d.sites ∧
      d'.profiler = d.profiler := by
  induction h with
  | refl => exact ⟨fun _ => rfl, rfl, rfl⟩
  | @move d₁ s b _ hs _ ih =>
    refine ⟨fun q => ?_, by rw [move_sites, ih.2.1], by rw [move_profiler, ih.2.2]⟩
    rw [← ih.1 q, heap_move]
    split
    · subst q
      rw [hs]
      rfl
    · rfl
  | aside _ hh hs _ hp ih => exact ⟨fun q => by rw [hh, ih.1 q], hs.trans ih.2.1, hp.trans ih.2.2⟩
  | @plan d₁ s _ hs ih =>
    refine ⟨fun q => ?_, ih.2.1, ih.2.2⟩
    rw [← ih.1 q]
    by_cases hq : q = p
    · subst q
      obtain ⟨hp, he⟩ := List.getElem?_eq_some_iff.1 hs
      simp [hp, he]
      rfl
    · simp only [List.getElem?_set_ne (Ne.symm hq)]

theorem Touches.idAt (h : Touches p d d') : d'.idAt p = d.idAt p := by
  -- the identity is the first half of the tag, which a touch keeps
  have hid : ∀ e : Dispatcher, e.heap[p]?.map (·.id) = (e.heap[p]?.map Site.tag).map Prod.fst :=
    fun e => by rw [Option.map_map]; rfl
  simp only [Dispatcher.idAt, hid, h.keeps.1 p]

/-- The changes a step makes of its site are moves of that site alone. -/
theorem Touches.moved (h : Touches p d d') : Moved p (d.idAt p) d d' := by
  induction h with
  | refl => exact Moved.refl _
  | @move d₁ s b h₁ hs hb ih =>
    have hid : s.id = d.idAt p := by rw [← idAt_of_some hs, h₁.idAt]
    exact ih.trans (hid ▸ Moved.move hs hb)
  | aside _ hh _ hl _ ih => exact ih.trans (Moved.still hl fun q => by simp only [stateAt, hh])
  | @plan d₁ s _ hs ih =>
    refine ih.trans (Moved.still rfl fun q => ?_)
    by_cases hq : q = p
    · subst q
      obtain ⟨hp, he⟩ := List.getElem?_eq_some_iff.1 hs
      simp [stateAt, hp, he, Site.planned]
    · simp only [stateAt, List.getElem?_set_ne (Ne.symm hq)]

theorem heap_set_self (hs : d.heap[p]? = some s) (t : Site) : (d.heap.set p t)[p]? = some t := by
  have hp : p < d.heap.length := (List.getElem?_eq_some_iff.1 hs).1
  simp [hp]

end Dispatcher

/-! ## The steps on one site -/

namespace Dispatch

open Dispatcher

variable {d : Dispatcher} {p : Nat} {s : Site}

/-- Acquiring the artifact of a site in the middle of its life touches that
site alone and leaves it compiled or permanently interpreted, whether the
artifact is cached, built or fails to build. -/
theorem acquire_touches (hs : d.heap[p]? = some s) (ho : s.state.Open) :
    Touches p d ((acquire p).run d).2 ∧
      (((acquire p).run d).2.stateAt p = .compiled ∨
        ((acquire p).run d).2.stateAt p = .permanentlyInterpreted) := by
  have hs₁ := heap_move_self hs .compiling
  cases hl : d.cache.lookup s.fingerprint with
  | mk r c =>
    cases r with
    | some a =>
      rw [acquire_hit hs hl]
      exact ⟨.move (.aside .refl rfl rfl rfl rfl) hs ho.toCompiled, .inl (stateAt_move_self hs)⟩
    | none =>
      have hcompiling : Touches p d (d.move p .compiling) := .move .refl hs (.inr ho.toCompiling)
      cases hb : s.build with
      | ok a =>
        rw [acquire_ok hs hl hb]
        exact ⟨.move (.aside hcompiling rfl rfl rfl rfl) hs₁ (.inr rfl), .inl (stateAt_move_self hs₁)⟩
      | error e =>
        rw [acquire_fail hs hl hb]
        exact ⟨.move (.aside hcompiling rfl rfl rfl rfl) hs₁ (.inr rfl), .inr (stateAt_move_self hs₁)⟩

/-- Giving up a compiled site touches that site alone and leaves it
permanently interpreted. -/
theorem fail_touches (hs : d.heap[p]? = some s) (hc : s.state = .compiled) (e : Error) :
    Touches p d ((fail p e).run d).2 ∧ ((fail p e).run d).2.stateAt p = .permanentlyInterpreted := by
  rw [fail_run hs]
  have hs' : ({ d with failed := d.failed ++ [(s.fingerprint, e)] } : Dispatcher).heap[p]? = some s := hs
  exact ⟨.move (.aside .refl rfl rfl rfl rfl) hs' (.inr (by rw [hc]; rfl)), stateAt_move_self hs'⟩

/-- Promoting a site in the middle of its life touches that site alone and
leaves it compiled or permanently interpreted. -/
theorem promote_touches (hs : d.heap[p]? = some s) (ho : s.state.Open) :
    Touches p d ((promote p).run d).2 ∧
      (((promote p).run d).2.stateAt p = .compiled ∨
        ((promote p).run d).2.stateAt p = .permanentlyInterpreted) := by
  have hplan : Touches p d { d with heap := d.heap.set p (s.planned d) } := .plan .refl hs
  have hs₁ : ({ d with heap := d.heap.set p (s.planned d) } : Dispatcher).heap[p]? = some (s.planned d) :=
    heap_set_self hs _
  have ho₁ : (s.planned d).state.Open := ho
  rw [promote_run hs]
  split
  · exact ⟨.move hplan hs₁ (.inr ho.toPermanentlyInterpreted), .inr (stateAt_move_self hs₁)⟩
  · obtain ⟨ht, hst⟩ := acquire_touches hs₁ ho₁
    exact ⟨hplan.trans ht, hst⟩

/-- After a good interpreted execution, settling a site that is not
compiling touches that site alone and leaves it not compiling; it ends
compiled or permanently interpreted only if it was so already or its
identity is hot. -/
theorem afterRun_touches (hs : d.heap[p]? = some s) (hc : s.state ≠ .compiling) :
    Touches p d ((afterRun p).run d).2 ∧ ((afterRun p).run d).2.stateAt p ≠ .compiling ∧
      (((afterRun p).run d).2.stateAt p = .compiled ∨
          ((afterRun p).run d).2.stateAt p = .permanentlyInterpreted →
        s.state = .compiled ∨ s.state = .permanentlyInterpreted ∨ d.profiler.shouldCompile s.id = true) := by
  by_cases hperm : s.state = .permanentlyInterpreted
  · rw [afterRun_perm hs hperm, stateAt_of_some hs, hperm]
    exact ⟨.refl, nofun, fun _ => .inr (.inl rfl)⟩
  -- first the move to profiling, then perhaps the promotion
  have hfirst : ∃ d₁ s₁, (if s.state = .interpreted then d.move p .profiling else d) = d₁ ∧
      Touches p d d₁ ∧ d₁.heap[p]? = some s₁ ∧ s₁.state.Open ∧
      (s₁.state = .compiled ∨ s₁.state = .permanentlyInterpreted →
        s.state = .compiled ∨ s.state = .permanentlyInterpreted) := by
    by_cases hi : s.state = .interpreted
    · refine ⟨_, _, if_pos hi, .move .refl hs (.inr ?_), heap_move_self hs .profiling, ⟨nofun, nofun⟩, ?_⟩
      · rw [hi]
        rfl
      · rintro (h | h) <;> cases h
    · exact ⟨d, s, if_neg hi, .refl, hs, ⟨hc, hperm⟩, id⟩
  obtain ⟨d₁, s₁, hd₁, ht₁, hs₁, ho₁, hsettled⟩ := hfirst
  rw [afterRun_run hs hperm]
  simp only [hd₁]
  split
  · rename_i hhot
    obtain ⟨ht, hst⟩ := promote_touches hs₁ ho₁
    refine ⟨ht₁.trans ht, ?_, fun _ => .inr (.inr hhot)⟩
    rcases hst with h | h <;> rw [h] <;> decide
  · rw [stateAt_of_some hs₁]
    exact ⟨ht₁, ho₁.1, fun h => (hsettled h).elim .inl (.inr ∘ .inl)⟩

end Dispatch

/-! ## Meeting a loop -/

namespace Dispatcher

variable {d : Dispatcher} {l : Loop} {t : Site} {id : String} {p q : Nat} {s : Site}

/-- Every identity points to a site of that identity. -/
def Mapped (d : Dispatcher) : Prop := ∀ id p, d.siteAt? id = some p → ∃ s, d.heap[p]? = some s ∧ s.id = id

/-- Whether meeting `l` drops the profile of its identity: a site of another
loop and another shape holds the identity. -/
def drops (d : Dispatcher) (l : Loop) : Bool :=
  (d.siteOf? l.id).any fun ps => ps.2.loop.key != l.key && ps.2.shape.hash != l.shape.hash

theorem find?_point (sites : List (String × Nat)) (id id' : String) (p : Nat) :
    ((point sites id p).find? (·.1 = id')).map (·.2) =
      if id' = id then some p else (sites.find? (·.1 = id')).map (·.2) := by
  unfold point
  split
  · rename_i hany
    rw [List.find?_map]
    have hcomp : ((fun e : String × Nat => decide (e.1 = id')) ∘ fun e => if e.1 = id then (e.1, p) else e) =
        fun e => decide (e.1 = id') := by
      funext e
      simp only [Function.comp]
      split <;> rfl
    rw [hcomp]
    split
    · subst id'
      obtain ⟨e, he⟩ := Option.isSome_iff_exists.1 (List.find?_isSome.2 (List.any_eq_true.1 hany))
      have heid : e.1 = id := by simpa using List.find?_some he
      simp [he, heid]
    · rename_i hne
      cases he : sites.find? (·.1 = id') with
      | none => rfl
      | some e =>
        have heid : e.1 = id' := by simpa using List.find?_some he
        simp [heid, hne]
  · rename_i hany
    have hnone : sites.find? (·.1 = id) = none :=
      List.find?_eq_none.2 fun e he h => hany (List.any_eq_true.2 ⟨e, he, h⟩)
    rw [List.find?_append]
    split
    · subst id'
      simp [hnone]
    · rename_i hne
      cases sites.find? (·.1 = id') <;> simp [Ne.symm hne]

theorem siteAt?_adopt (t : Site) (id : String) :
    (d.adopt t).siteAt? id = if id = t.id then some d.heap.length else d.siteAt? id :=
  find?_point _ _ _ _

theorem heap_adopt_lt (h : q < d.heap.length) : (d.adopt t).heap[q]? = d.heap[q]? :=
  List.getElem?_append_left h

theorem heap_adopt_self : (d.adopt t).heap[d.heap.length]? = some t := by
  simp [adopt]

/-- A new interpreted site changes the state of none. -/
theorem stateAt_adopt (ht : t.state = .interpreted) (q : Nat) : (d.adopt t).stateAt q = d.stateAt q := by
  rcases Nat.lt_trichotomy q d.heap.length with hq | rfl | hq
  · simp only [stateAt, heap_adopt_lt hq]
  · rw [stateAt_of_some heap_adopt_self, ht]
    simp [stateAt]
  · have h₁ : d.heap[q]? = none := List.getElem?_eq_none (by omega)
    have h₂ : (d.adopt t).heap[q]? = none := List.getElem?_eq_none (by simp [adopt]; omega)
    simp only [stateAt, h₁, h₂]

/-- A new site leaves the sites of the other identities where they were. -/
theorem siteOf?_adopt_ne (hmap : d.Mapped) (hne : id ≠ t.id) : (d.adopt t).siteOf? id = d.siteOf? id := by
  unfold siteOf?
  rw [siteAt?_adopt, if_neg hne]
  cases hp : d.siteAt? id with
  | none => rfl
  | some p =>
    obtain ⟨s, hs, -⟩ := hmap id p hp
    simp only [Option.bind_some, heap_adopt_lt (List.getElem?_eq_some_iff.1 hs).1]

theorem siteOf?_adopt_self : (d.adopt t).siteOf? t.id = some (d.heap.length, t) := by
  unfold siteOf?
  rw [siteAt?_adopt, if_pos rfl]
  simp only [Option.bind_some, heap_adopt_self, Option.map_some]

/-- A site overwritten with one in the same state changes the state of none. -/
theorem stateAt_set (hs : d.heap[p]? = some s) (ht : t.state = s.state) (q : Nat) :
    ({ d with heap := d.heap.set p t } : Dispatcher).stateAt q = d.stateAt q := by
  by_cases hq : q = p
  · subst q
    rw [stateAt_of_some (heap_set_self hs t), stateAt_of_some hs, ht]
  · simp only [stateAt, List.getElem?_set_ne (Ne.symm hq)]

/-- What meeting `l` makes of `d`, as far as the life of sites goes. -/
structure Met (d : Dispatcher) (l : Loop) (d' : Dispatcher) : Prop where
  log : d'.log = d.log
  states : ∀ q, d'.stateAt q = d.stateAt q
  aside : d'.cache = d.cache ∧ d'.monitor = d.monitor ∧ d'.failed = d.failed
  gate : d'.profiler.gate = d.profiler.gate
  /-- The executions of the identity are forgotten exactly when its profile
  is dropped. -/
  executions : ∀ id, d'.profiler.executions id =
    if d.drops l = true ∧ id = l.id then 0 else d.profiler.executions id
  pointers : ∀ id, id ≠ l.id → d'.siteAt? id = d.siteAt? id
  others : ∀ id, id ≠ l.id → d'.siteOf? id = d.siteOf? id
  /-- A site of the identity that is not dropped keeps its number, identity,
  shape hash and state. -/
  kept : ∀ p s, d.siteOf? l.id = some (p, s) → d.drops l = false →
    ∃ s', d'.siteOf? l.id = some (p, s') ∧ s'.tag = s.tag ∧ s'.state = s.state
  /-- Otherwise the identity gets a fresh site. -/
  fresh : d.siteOf? l.id = none ∨ d.drops l = true → d'.siteOf? l.id = some (d.heap.length, l.site)

/-- Observing a loop keeps the gate and every count of executions, and
dropping the profile of the identity first forgets its count. -/
theorem observe_after (d : Dispatcher) (l : Loop) :
    ((if d.drops l then d.profiler.reset l.id else d.profiler).observe l.id (tierOf l.body) l.access).gate =
        d.profiler.gate ∧
      ∀ id, ((if d.drops l then d.profiler.reset l.id else d.profiler).observe l.id (tierOf l.body)
        l.access).executions id = if d.drops l = true ∧ id = l.id then 0 else d.profiler.executions id := by
  refine ⟨?_, fun id => ?_⟩
  · rw [Profiler.observe, Profiler.gate_update]
    split <;> rfl
  · rw [Profiler.executions_observe]
    split
    · rw [Profiler.executions_reset]
      by_cases hid : id = l.id <;> simp_all
    · simp_all

/-- Meeting a new identity, or one whose profile is dropped. -/
theorem met_adopt (hmap : d.Mapped) (hfresh : d.siteOf? l.id = none ∨ d.drops l = true) :
    d.Met l { d.adopt l.site with
      profiler := (if d.drops l then d.profiler.reset l.id else d.profiler).observe l.id (tierOf l.body)
        l.access } where
  log := rfl
  states := stateAt_adopt rfl
  aside := ⟨rfl, rfl, rfl⟩
  gate := (observe_after d l).1
  executions := (observe_after d l).2
  pointers _ hne := by
    show (d.adopt l.site).siteAt? _ = _
    rw [siteAt?_adopt, if_neg (show _ ≠ l.site.id from hne)]
  others _ hne := siteOf?_adopt_ne hmap hne
  kept _ _ hk hd := by
    rcases hfresh with h | h
    · rw [hk] at h
      cases h
    · rw [hd] at h
      cases h
  fresh _ := siteOf?_adopt_self (d := d) (t := l.site)

/-- Meeting a loop: its site is kept, renewed, or a fresh one takes its
identity. -/
theorem met_meet (hmap : d.Mapped) (l : Loop) : d.Met l ((Dispatch.meet l).run d).2 := by
  cases hk : d.siteOf? l.id with
  | none =>
    have hd : d.drops l = false := by simp [drops, hk]
    have h := met_adopt hmap (.inl hk)
    rw [hd] at h
    rw [Dispatch.meet_fresh hk]
    exact h
  | some ps =>
    obtain ⟨p, s⟩ := ps
    obtain ⟨hp, hs⟩ := siteOf?_eq_some.1 hk
    by_cases hkey : s.loop.key = l.key
    · have hd : d.drops l = false := by simp [drops, hk, hkey]
      rw [Dispatch.meet_same hk hkey]
      refine ⟨rfl, fun _ => rfl, ⟨rfl, rfl, rfl⟩, rfl, fun id => ?_, fun _ _ => rfl, fun _ _ => rfl,
        fun p' s' hk' _ => ?_, ?_⟩
      · simp [hd]
      · rw [hk] at hk'
        cases hk'
        exact ⟨s, hk, rfl, rfl⟩
      · rintro (h | h)
        · rw [hk] at h
          cases h
        · rw [hd] at h
          cases h
    by_cases hh : s.shape.hash = l.shape.hash
    · have hd : d.drops l = false := by simp [drops, hk, hh]
      obtain ⟨s₀, hs₀, hid⟩ := hmap l.id p hp
      rw [hs] at hs₀
      cases hs₀
      rw [Dispatch.meet_renew hk hkey hh]
      refine ⟨rfl, stateAt_set hs rfl, ⟨rfl, rfl, rfl⟩, Profiler.gate_update _, fun id => ?_,
        fun _ _ => rfl, fun id hne => ?_, fun p' s' hk' _ => ?_, ?_⟩
      · simp [Profiler.executions_observe, hd]
      · -- the site renewed is that of the identity met, not of another
        show ((d.siteAt? id).bind fun q => (d.heap.set p (s.renew l))[q]?.map (q, ·)) = d.siteOf? id
        unfold siteOf?
        cases hq : d.siteAt? id with
        | none => rfl
        | some q =>
          obtain ⟨t, ht, htid⟩ := hmap id q hq
          have hqp : p ≠ q := by
            rintro rfl
            rw [hs] at ht
            cases ht
            exact hne (htid.symm.trans hid)
          simp only [Option.bind_some, List.getElem?_set_ne hqp]
      · rw [hk] at hk'
        cases hk'
        refine ⟨s.renew l, ?_, ?_, rfl⟩
        · exact siteOf?_eq_some.2 ⟨hp, heap_set_self hs _⟩
        · simp only [Site.tag, Site.renew, hh]
      · rintro (h | h)
        · rw [hk] at h
          cases h
        · rw [hd] at h
          cases h
    · have hd : d.drops l = true := by simp [drops, hk, hkey, hh]
      have h := met_adopt hmap (.inr hd)
      rw [hd] at h
      rw [Dispatch.meet_reshape hk hkey hh]
      exact h

/-- After a meeting, the identity met points to a site of that identity:
a fresh one, interpreted, or the one it pointed to, in the same state. -/
theorem Met.self {d' : Dispatcher} (hm : d.Met l d') (hmap : d.Mapped) :
    ∃ p s', d'.siteOf? l.id = some (p, s') ∧ s'.id = l.id ∧
      (s'.state = .interpreted ∨ ∃ s, d.siteOf? l.id = some (p, s) ∧ d.drops l = false ∧ s'.state = s.state) := by
  cases hk : d.siteOf? l.id with
  | none => exact ⟨_, _, hm.fresh (.inl hk), rfl, .inl rfl⟩
  | some ps =>
    obtain ⟨p, s⟩ := ps
    cases hd : d.drops l with
    | true => exact ⟨_, _, hm.fresh (.inr hd), rfl, .inl rfl⟩
    | false =>
      obtain ⟨s', hk', htag, hst⟩ := hm.kept p s hk hd
      obtain ⟨hp, hs⟩ := siteOf?_eq_some.1 hk
      obtain ⟨s₀, hs₀, hid⟩ := hmap l.id p hp
      rw [hs] at hs₀
      cases hs₀
      have hid' : s'.id = s.id := congrArg Prod.fst htag
      exact ⟨p, s', hk', hid'.trans hid, .inr ⟨s, rfl, rfl, hst⟩⟩

/-- Identities point to the same sites, of the same tags. -/
theorem siteOf?_tag {d d' : Dispatcher} (hk : ∀ q : Nat, d'.heap[q]?.map Site.tag = d.heap[q]?.map Site.tag)
    (hsites : d'.sites = d.sites) (id : String) :
    (d'.siteOf? id).map (fun ps => (ps.1, ps.2.tag)) = (d.siteOf? id).map (fun ps => (ps.1, ps.2.tag)) := by
  unfold siteOf? siteAt?
  rw [hsites]
  cases (d.sites.find? (·.1 = id)).map (·.2) with
  | none => rfl
  | some q =>
    have h := hk q
    simp only [Option.bind_some, Option.map_map]
    revert h
    cases d'.heap[q]? <;> cases d.heap[q]? <;> simp

end Dispatcher

/-! ## Reachable dispatchers -/

/-- The executions recorded for each identity since its profile was last
dropped, after a step: a recorded execution counts one more, and a meeting
that drops the profile of its identity forgets them. -/
def Dispatch.Step.tally : Dispatch.Step → Dispatcher → (String → Nat) → String → Nat
  | .meet l, d, runs => fun id => if d.drops l = true ∧ id = l.id then 0 else runs id
  | .record id' _ _, _, runs => fun id => if id = id' then runs id + 1 else runs id
  | _, _, runs => runs

/-- The dispatchers the interpreter reaches from a fresh one made with `o`,
with the executions recorded for each identity since its profile was last
dropped: by the steps the interpreter takes, and by clearing the log, as
each run of a program does at its start. -/
inductive Dispatcher.Reach (o : DispatchOptions) : Dispatcher → (String → Nat) → Prop
  | start : Reach o (Dispatcher.new o) fun _ => 0
  | step {d : Dispatcher} {runs : String → Nat} {st : Dispatch.Step} :
      Reach o d runs → st.Allowed d → Reach o (st.apply d) (st.tally d runs)
  | clear {d : Dispatcher} {runs : String → Nat} : Reach o d runs → Reach o { d with log := #[] } runs

namespace Dispatcher

variable {o : DispatchOptions} {d d' : Dispatcher} {runs : String → Nat} {p : Nat} {s : Site}

/-- What holds of every dispatcher the interpreter reaches. -/
structure Lifecycle (o : DispatchOptions) (d : Dispatcher) (runs : String → Nat) : Prop where
  gate : d.profiler.gate = (Profiler.new o.gate).gate
  mapped : d.Mapped
  notCompiling : ∀ p, d.stateAt p ≠ .compiling
  /-- The profile's counter is the count of executions, modulo 2⁶⁴. -/
  counted : ∀ id, d.profiler.executions id = (runs id).toUInt64
  hot : ∀ id p s, d.siteOf? id = some (p, s) → s.state = .compiled ∨ s.state = .permanentlyInterpreted →
    d.profiler.gate.threshold.toNat ≤ runs id
  legal : ∀ e ∈ d.log.toList, e.2.1.canMove e.2.2 = true

theorem lifecycle_new (o : DispatchOptions) : (Dispatcher.new o).Lifecycle o fun _ => 0 where
  gate := rfl
  mapped id p h := by simp [siteAt?, Dispatcher.new] at h
  notCompiling p := by simp [stateAt, Dispatcher.new]
  counted id := rfl
  hot id p s h := by simp [siteOf?, siteAt?, Dispatcher.new] at h
  legal e h := by simp [Dispatcher.new] at h

theorem Lifecycle.clear (h : d.Lifecycle o runs) : ({ d with log := #[] } : Dispatcher).Lifecycle o runs where
  gate := h.gate
  mapped := h.mapped
  notCompiling := h.notCompiling
  counted := h.counted
  hot := h.hot
  legal e he := by simp at he

theorem Lifecycle.record (h : d.Lifecycle o runs) (id : String) (c : Bool) (n : Nat) :
    ((Dispatch.Step.record id c n).apply d).Lifecycle o ((Dispatch.Step.record id c n).tally d runs) where
  gate := by
    show (d.profiler.record id n.toInt64 d.now).gate = _
    rw [Profiler.record, Profiler.gate_update, h.gate]
  mapped := h.mapped
  notCompiling := h.notCompiling
  counted id' := by
    show (d.profiler.record id n.toInt64 d.now).executions id' = _
    rw [Profiler.executions_record]
    simp only [Dispatch.Step.tally]
    split
    · subst id'
      rw [h.counted]
      simp
    · exact h.counted id'
  hot id' p s hk hs := by
    have hle := h.hot id' p s hk hs
    show (d.profiler.record id n.toInt64 d.now).gate.threshold.toNat ≤ _
    rw [Profiler.record, Profiler.gate_update]
    simp only [Dispatch.Step.tally]
    split <;> omega
  legal := h.legal

/-- A step on one site keeps the life of sites, when it leaves its site not
compiling, and compiled or permanently interpreted only if it was so or
its identity is hot. -/
theorem Lifecycle.touch (h : d.Lifecycle o runs) (ht : Touches p d d') (hs : d.heap[p]? = some s)
    (hc : d'.stateAt p ≠ .compiling)
    (hhot : d'.stateAt p = .compiled ∨ d'.stateAt p = .permanentlyInterpreted →
      s.state = .compiled ∨ s.state = .permanentlyInterpreted ∨ d.profiler.shouldCompile s.id = true) :
    d'.Lifecycle o runs := by
  obtain ⟨htags, hsites, hprof⟩ := ht.keeps
  have hmoved := ht.moved
  have htag := siteOf?_tag htags hsites
  refine ⟨hprof ▸ h.gate, fun id q hq => ?_, fun q => ?_, hprof ▸ h.counted, fun id q s₁ hk₁ hs₁ => ?_, ?_⟩
  · -- identities point where they did, to sites of the same tags
    have hq' : d.siteAt? id = some q := by simpa only [siteAt?, hsites] using hq
    obtain ⟨s₀, hs₀, hid⟩ := h.mapped id q hq'
    have h₁ := htags q
    rw [hs₀] at h₁
    cases hq₁ : d'.heap[q]? with
    | none => rw [hq₁] at h₁; cases h₁
    | some s₁ =>
      rw [hq₁] at h₁
      simp only [Option.map_some, Option.some.injEq, Site.tag, Prod.mk.injEq] at h₁
      exact ⟨s₁, rfl, h₁.1.trans hid⟩
  · by_cases hq : q = p
    · subst q
      exact hc
    · rw [hmoved.others q hq]
      exact h.notCompiling q
  · have h₁ := htag id
    rw [hk₁] at h₁
    cases hk₀ : d.siteOf? id with
    | none => rw [hk₀] at h₁; cases h₁
    | some ps =>
      obtain ⟨q', s₀⟩ := ps
      rw [hk₀] at h₁
      simp only [Option.map_some, Option.some.injEq, Prod.mk.injEq] at h₁
      obtain ⟨rfl, -⟩ := h₁
      obtain ⟨hq₀, hs₀⟩ := siteOf?_eq_some.1 hk₀
      have hst₁ : d'.stateAt q = s₁.state := stateAt_of_some (siteOf?_eq_some.1 hk₁).2
      rw [hprof]
      by_cases hq : q = p
      · subst q
        rw [hs] at hs₀
        cases hs₀
        rcases hhot (hst₁ ▸ hs₁) with h' | h' | h'
        · exact h.hot id _ _ hk₀ (.inl h')
        · exact h.hot id _ _ hk₀ (.inr h')
        · -- promoted: the profile of the identity had counted the threshold
          obtain ⟨s₂, hs₂, hid⟩ := h.mapped id _ hq₀
          rw [hs] at hs₂
          cases hs₂
          have hle := Profiler.threshold_le_of_shouldCompile h'
          rw [hid, h.counted] at hle
          have hmod : (runs id).toUInt64.toNat ≤ runs id := by simp [Nat.toUInt64]; exact Nat.mod_le _ _
          omega
      · have hst : d.stateAt q = s₀.state := stateAt_of_some hs₀
        rw [← hmoved.others q hq, hst₁] at hst
        exact h.hot id q s₀ hk₀ (hst ▸ hs₁)
  · obtain ⟨es, hlog, hwalk⟩ := hmoved.walk
    intro e he
    rw [hlog, List.mem_append] at he
    exact he.elim (h.legal e) (hwalk.legal e)

/-- A meeting keeps the life of sites. -/
theorem Lifecycle.meet (h : d.Lifecycle o runs) (l : Loop) :
    ((Dispatch.Step.meet l).apply d).Lifecycle o ((Dispatch.Step.meet l).tally d runs) := by
  have hm := met_meet h.mapped l
  obtain ⟨p, s', hk', hid', hst'⟩ := hm.self h.mapped
  show Lifecycle o ((Dispatch.meet l).run d).2 fun id => if d.drops l = true ∧ id = l.id then 0 else runs id
  generalize ((Dispatch.meet l).run d).2 = d' at hm hk'
  refine ⟨hm.gate ▸ h.gate, fun id q hq => ?_, fun q => (hm.states q).symm ▸ h.notCompiling q,
    fun id => ?_, fun id q s₁ hk₁ hs₁ => ?_, fun e he => h.legal e (hm.log ▸ he)⟩
  · by_cases hid : id = l.id
    · subst id
      obtain ⟨hp', hs'⟩ := siteOf?_eq_some.1 hk'
      rw [hp'] at hq
      cases hq
      exact ⟨s', hs', hid'⟩
    · rw [hm.pointers id hid] at hq
      obtain ⟨s, hs, hsid⟩ := h.mapped id q hq
      have hk : d'.siteOf? id = some (q, s) := (hm.others id hid).trans (siteOf?_eq_some.2 ⟨hq, hs⟩)
      exact ⟨s, (siteOf?_eq_some.1 hk).2, hsid⟩
  · rw [hm.executions, h.counted]
    split <;> rfl
  · rw [hm.gate]
    by_cases hid : id = l.id
    · subst id
      rw [hk'] at hk₁
      cases hk₁
      rcases hst' with hi | ⟨s, hk, hd, hst⟩
      · rw [hi] at hs₁
        rcases hs₁ with h' | h' <;> cases h'
      · rw [hd]
        simpa using h.hot l.id p s hk (hst ▸ hs₁)
    · rw [hm.others id hid] at hk₁
      simpa [hid] using h.hot id q s₁ hk₁ hs₁

/-- Every step the interpreter may take keeps the life of sites. -/
theorem Lifecycle.step (h : d.Lifecycle o runs) {st : Dispatch.Step} (ha : st.Allowed d) :
    (st.apply d).Lifecycle o (st.tally d runs) := by
  cases st with
  | meet l => exact h.meet l
  | acquire p =>
    obtain ⟨s, hs, hcomp⟩ := ha
    have ho : s.state.Open := by rw [hcomp]; exact ⟨nofun, nofun⟩
    obtain ⟨ht, hst⟩ := Dispatch.acquire_touches hs ho
    show Lifecycle o ((Dispatch.acquire p).run d).2 runs
    refine h.touch ht hs ?_ fun _ => .inl hcomp
    rcases hst with e | e <;> rw [e] <;> exact nofun
  | fail p e =>
    obtain ⟨s, a, hs, hcomp, -⟩ := ha
    obtain ⟨ht, hst⟩ := Dispatch.fail_touches hs hcomp e
    show Lifecycle o ((Dispatch.fail p e).run d).2 runs
    exact h.touch ht hs (by rw [hst]; exact nofun) fun _ => .inl hcomp
  | afterRun p =>
    cases hs : d.heap[p]? with
    | none =>
      show Lifecycle o ((Dispatch.afterRun p).run d).2 runs
      rw [Dispatch.afterRun_none hs]
      exact h
    | some s =>
      have hc : s.state ≠ .compiling := stateAt_of_some hs ▸ h.notCompiling p
      obtain ⟨ht, hc', hhot⟩ := Dispatch.afterRun_touches hs hc
      exact h.touch ht hs hc' hhot
  | record id c n => exact h.record id c n

/-- Every dispatcher the interpreter reaches keeps the life of sites. -/
theorem Reach.lifecycle (h : d.Reach o runs) : d.Lifecycle o runs := by
  induction h with
  | start => exact lifecycle_new o
  | step _ ha ih => exact ih.step ha
  | clear _ ih => exact ih.clear

/-- Every step the interpreter may take moves one site, legally, from the
state it held. -/
theorem Lifecycle.moved (h : d.Lifecycle o runs) {st : Dispatch.Step} (ha : st.Allowed d) :
    ∃ p, Moved p (d.idAt p) d (st.apply d) := by
  cases st with
  | meet l =>
    have hm := met_meet h.mapped l
    exact ⟨0, Moved.still hm.log hm.states⟩
  | acquire p =>
    obtain ⟨s, hs, hcomp⟩ := ha
    have ho : s.state.Open := by rw [hcomp]; exact ⟨nofun, nofun⟩
    exact ⟨p, (Dispatch.acquire_touches hs ho).1.moved⟩
  | fail p e =>
    obtain ⟨s, a, hs, hcomp, -⟩ := ha
    exact ⟨p, (Dispatch.fail_touches hs hcomp e).1.moved⟩
  | afterRun p =>
    cases hs : d.heap[p]? with
    | none =>
      refine ⟨p, ?_⟩
      show Moved p _ d ((Dispatch.afterRun p).run d).2
      rw [Dispatch.afterRun_none hs]
      exact Moved.refl d
    | some s =>
      have hc : s.state ≠ .compiling := stateAt_of_some hs ▸ h.notCompiling p
      exact ⟨p, (Dispatch.afterRun_touches hs hc).1.moved⟩
  | record id c n => exact ⟨0, Moved.still rfl fun _ => rfl⟩

end Dispatcher

/-! ## Permanent interpretation -/

/-- Whether a step meets identity `id` only with a loop of shape hash `h`. -/
def Dispatch.Step.Keeps (id : String) (h : UInt64) : Dispatch.Step → Prop
  | .meet l => l.id = id → l.shape.hash = h
  | _ => True

namespace Dispatcher

variable {o : DispatchOptions} {d d' : Dispatcher} {runs : String → Nat} {p : Nat} {s : Site} {id : String}

/-- `d'` is what the interpreter makes of `d` while it meets identity `id`
only with loops of shape hash `h`: by steps that keep to that, and by
clearing the log between runs. -/
def ReachesKeeping (id : String) (h : UInt64) : Dispatcher → Dispatcher → Prop :=
  Relation.ReflTransGen fun d d' =>
    (∃ st : Dispatch.Step, st.Allowed d ∧ st.Keeps id h ∧ st.apply d = d') ∨ d' = { d with log := #[] }

/-- A step on another site leaves a site as it was, but for its plan. -/
theorem Touches.other {q : Nat} (ht : Touches q d d') (hne : p ≠ q) (hs : d.siteOf? id = some (p, s)) :
    ∃ s', d'.siteOf? id = some (p, s') ∧ s'.tag = s.tag ∧ s'.state = s.state := by
  obtain ⟨htags, hsites, -⟩ := ht.keeps
  have h₁ := siteOf?_tag htags hsites id
  rw [hs] at h₁
  cases hk : d'.siteOf? id with
  | none => rw [hk] at h₁; cases h₁
  | some ps =>
    obtain ⟨p', s'⟩ := ps
    rw [hk] at h₁
    simp only [Option.map_some, Option.some.injEq, Prod.mk.injEq] at h₁
    obtain ⟨hpp, htag⟩ := h₁
    refine ⟨s', by rw [hpp], htag, ?_⟩
    rw [hpp] at hk
    rw [← stateAt_of_some (siteOf?_eq_some.1 hk).2, ← stateAt_of_some (siteOf?_eq_some.1 hs).2]
    exact ht.moved.others p hne

/-- A compiled site is not a permanently interpreted one. -/
theorem ne_of_compiled {q : Nat} {t : Site} (hsp : d.heap[p]? = some s)
    (hperm : s.state = .permanentlyInterpreted) (ht : d.heap[q]? = some t) (hcomp : t.state = .compiled) :
    p ≠ q := by
  rintro rfl
  rw [hsp] at ht
  cases ht
  rw [hperm] at hcomp
  cases hcomp

/-- A step that meets the identity of a permanently interpreted site only
with loops of its shape hash leaves that site where it is, permanently
interpreted. -/
theorem Lifecycle.perm_step (h : d.Lifecycle o runs) {st : Dispatch.Step} (ha : st.Allowed d)
    (hk : st.Keeps id s.shape.hash) (hs : d.siteOf? id = some (p, s)) (hperm : s.state = .permanentlyInterpreted) :
    ∃ s', (st.apply d).siteOf? id = some (p, s') ∧ s'.tag = s.tag ∧ s'.state = .permanentlyInterpreted := by
  obtain ⟨hp, hsp⟩ := siteOf?_eq_some.1 hs
  cases st with
  | meet l =>
    have hm := met_meet h.mapped l
    by_cases hid : l.id = id
    · subst id
      -- a loop of the same shape hash never drops the site
      have hd : d.drops l = false := by simp [drops, hs, hk rfl]
      obtain ⟨s', hk', htag, hst⟩ := hm.kept p s hs hd
      exact ⟨s', hk', htag, hst.trans hperm⟩
    · exact ⟨s, (hm.others id (Ne.symm hid)).trans hs, rfl, hperm⟩
  | acquire q =>
    obtain ⟨t, ht, hcomp⟩ := ha
    have ho : t.state.Open := by rw [hcomp]; exact ⟨nofun, nofun⟩
    obtain ⟨s', hk', htag, hst⟩ :=
      (Dispatch.acquire_touches ht ho).1.other (ne_of_compiled hsp hperm ht hcomp) hs
    exact ⟨s', hk', htag, hst.trans hperm⟩
  | fail q e =>
    obtain ⟨t, a, ht, hcomp, -⟩ := ha
    obtain ⟨s', hk', htag, hst⟩ :=
      (Dispatch.fail_touches ht hcomp e).1.other (ne_of_compiled hsp hperm ht hcomp) hs
    exact ⟨s', hk', htag, hst.trans hperm⟩
  | afterRun q =>
    cases ht : d.heap[q]? with
    | none =>
      show ∃ s', ((Dispatch.afterRun q).run d).2.siteOf? id = _ ∧ _
      rw [Dispatch.afterRun_none ht]
      exact ⟨s, hs, rfl, hperm⟩
    | some t =>
      by_cases hne : p = q
      · subst q
        rw [hsp] at ht
        cases ht
        show ∃ s', ((Dispatch.afterRun p).run d).2.siteOf? id = _ ∧ _
        rw [Dispatch.afterRun_perm hsp hperm]
        exact ⟨s, hs, rfl, hperm⟩
      · have hc : t.state ≠ .compiling := stateAt_of_some ht ▸ h.notCompiling q
        obtain ⟨s', hk', htag, hst⟩ := (Dispatch.afterRun_touches ht hc).1.other hne hs
        exact ⟨s', hk', htag, hst.trans hperm⟩
  | record id' c n => exact ⟨s, hs, rfl, hperm⟩

/-- A permanently interpreted site stays so, where its identity points, for
as long as every loop met at its identity has its shape hash. -/
theorem Lifecycle.perm_stays (h : d.Lifecycle o runs) (hs : d.siteOf? id = some (p, s))
    (hperm : s.state = .permanentlyInterpreted) (hr : d.ReachesKeeping id s.shape.hash d') :
    ∃ s', d'.siteOf? id = some (p, s') ∧ s'.state = .permanentlyInterpreted := by
  -- the induction carries the invariant and the site's tag along the steps
  have key : ∃ runs', d'.Lifecycle o runs' ∧
      ∃ s', d'.siteOf? id = some (p, s') ∧ s'.tag = s.tag ∧ s'.state = .permanentlyInterpreted := by
    induction hr with
    | refl => exact ⟨runs, h, s, hs, rfl, hperm⟩
    | tail _ hstep ih =>
      obtain ⟨runs₁, h₁, s₁, hs₁, htag₁, hperm₁⟩ := ih
      rcases hstep with ⟨st, ha, hk, rfl⟩ | rfl
      · have hhash : s₁.shape.hash = s.shape.hash := congrArg Prod.snd htag₁
        obtain ⟨s₂, hs₂, htag₂, hperm₂⟩ := h₁.perm_step ha (hhash ▸ hk) hs₁ hperm₁
        exact ⟨_, h₁.step ha, s₂, hs₂, htag₂.trans htag₁, hperm₂⟩
      · exact ⟨runs₁, h₁.clear, s₁, hs₁, htag₁, hperm₁⟩
  obtain ⟨-, -, s', hs', -, hperm'⟩ := key
  exact ⟨s', hs', hperm'⟩

/-- The life of the dispatcher's sites. In every dispatcher the interpreter
reaches from a fresh one, with `runs` the executions recorded for each
identity since its profile was last dropped:
* every further step moves one site only, each transition it logs a legal
  move from the state that site then held;
* no site is compiling;
* a permanently interpreted site stays so, where its identity points, for as
  long as every loop met at its identity has its shape hash;
* a site its identity points to is compiled or permanently interpreted only
  once that identity has recorded the threshold of executions, whose count
  the profile keeps modulo 2⁶⁴. -/
theorem Reach.site_lifecycle (h : d.Reach o runs) :
    (∀ st : Dispatch.Step, st.Allowed d → ∃ p, Moved p (d.idAt p) d (st.apply d)) ∧
    (∀ (p : Nat) (s : Site), d.heap[p]? = some s → s.state ≠ .compiling) ∧
    (∀ id p s d', d.siteOf? id = some (p, s) → s.state = .permanentlyInterpreted →
      d.ReachesKeeping id s.shape.hash d' →
      ∃ s', d'.siteOf? id = some (p, s') ∧ s'.state = .permanentlyInterpreted) ∧
    (∀ id p s, d.siteOf? id = some (p, s) → s.state = .compiled ∨ s.state = .permanentlyInterpreted →
      (Profiler.new o.gate).gate.threshold.toNat ≤ runs id) ∧
    ∀ id, d.profiler.executions id = (runs id).toUInt64 := by
  have hl := h.lifecycle
  refine ⟨fun st ha => hl.moved ha, fun p s hs => stateAt_of_some hs ▸ hl.notCompiling p,
    fun id p s d' hs hperm hr => hl.perm_stays hs hperm hr, fun id p s hs hst => ?_, hl.counted⟩
  rw [← hl.gate]
  exact hl.hot id p s hs hst

end Dispatcher

/-! ## A run that compiles and evicts -/

namespace Dispatch

/-- `for i in 0..2 { s += i }` at 2:3. -/
def sumLoop : Loop :=
  ⟨0, ⟨2, 3⟩, .range "i" (.int ⟨2, 15⟩ 0) (.int ⟨2, 18⟩ 2) none, [.compound ⟨3, 5⟩ "s" .add (.ident ⟨3, 10⟩ "i")]⟩

/-- `for j in 0..2 { t += j * 2 }` at 5:3. -/
def doubleLoop : Loop :=
  ⟨1, ⟨5, 3⟩, .range "j" (.int ⟨5, 15⟩ 0) (.int ⟨5, 18⟩ 2) none,
    [.compound ⟨6, 5⟩ "t" .add (.binary ⟨6, 12⟩ .mul (.ident ⟨6, 10⟩ "j") (.int ⟨6, 14⟩ 2))]⟩

/-- Options under which a loop is compiled after its first execution, into
a cache of one entry. -/
def eagerOptions : DispatchOptions := { gate := { threshold := 1, minIterations := 0 }, cacheCapacity := 1 }

/-- Each loop runs once, with two iterations, and is compiled, the second
evicting the first from the cache; then the first is met again. -/
def evictingRun : List Step :=
  [.meet sumLoop, .record sumLoop.id false 2, .afterRun 0, .meet doubleLoop, .record doubleLoop.id false 2,
    .afterRun 1, .meet sumLoop]

end Dispatch

namespace Dispatcher

open Dispatch

/-- The dispatcher the evicting run leaves. -/
def evicted : Dispatcher := evictingRun.foldl (fun d st => st.apply d) (Dispatcher.new eagerOptions)

/-- The life of the sites along the evicting run: both loops were compiled,
through compiling, the second evicting the first from the cache, and the
dispatcher they leave is reached, so the lifecycle holds of it. -/
theorem Reach.site_lifecycle_evicted :
    evicted.cache.evictions = 1 ∧ evicted.heap.map (·.state) = [.compiled, .compiled] ∧
    evicted.log.toList.map (·.2) = [(.interpreted, .profiling), (.profiling, .compiling), (.compiling, .compiled),
      (.interpreted, .profiling), (.profiling, .compiling), (.compiling, .compiled)] ∧
    ∃ runs, evicted.Reach eagerOptions runs ∧
      (∀ st : Dispatch.Step, st.Allowed evicted → ∃ p, Moved p (evicted.idAt p) evicted (st.apply evicted)) ∧
      (∀ (p : Nat) (s : Site), evicted.heap[p]? = some s → s.state ≠ .compiling) ∧
      (∀ id p s d', evicted.siteOf? id = some (p, s) → s.state = .permanentlyInterpreted →
        evicted.ReachesKeeping id s.shape.hash d' →
        ∃ s', d'.siteOf? id = some (p, s') ∧ s'.state = .permanentlyInterpreted) ∧
      (∀ id p s, evicted.siteOf? id = some (p, s) → s.state = .compiled ∨ s.state = .permanentlyInterpreted →
        (Profiler.new eagerOptions.gate).gate.threshold.toNat ≤ runs id) ∧
      ∀ id, evicted.profiler.executions id = (runs id).toUInt64 := by
  -- the steps one by one: meeting, recording and settling are always allowed
  have h₀ : (Dispatcher.new eagerOptions).Reach eagerOptions fun _ => 0 := .start
  have h₁ := @Reach.step _ _ _ (.meet sumLoop) h₀ trivial
  have h₂ := @Reach.step _ _ _ (.record sumLoop.id false 2) h₁ trivial
  have h₃ := @Reach.step _ _ _ (.afterRun 0) h₂ trivial
  have h₄ := @Reach.step _ _ _ (.meet doubleLoop) h₃ trivial
  have h₅ := @Reach.step _ _ _ (.record doubleLoop.id false 2) h₄ trivial
  have h₆ := @Reach.step _ _ _ (.afterRun 1) h₅ trivial
  have h₇ : evicted.Reach eagerOptions _ := @Reach.step _ _ _ (.meet sumLoop) h₆ trivial
  exact ⟨by decide +kernel, by decide +kernel, by decide +kernel, _, h₇, Reach.site_lifecycle h₇⟩

end Dispatcher

/-! ## Runs of programs -/

namespace Dispatcher

variable {o : DispatchOptions} {d d' : Dispatcher} {runs : String → Nat}

/-- What steps make of a reached dispatcher is reached. -/
theorem Reach.of_reaches (h : d.Reach o runs) (hr : d.Reaches d') : ∃ runs', d'.Reach o runs' := by
  induction hr with
  | refl => exact ⟨runs, h⟩
  | tail _ hnext ih =>
    obtain ⟨runs₁, h₁⟩ := ih
    obtain ⟨st, ha, rfl⟩ := hnext
    exact ⟨_, h₁.step ha⟩

end Dispatcher

/-- A run of a program on a machine whose dispatcher is reached leaves a
dispatcher that is reached. -/
theorem Machine.exec_reach {m : Machine} {o : DispatchOptions} {d : Dispatcher} {runs : String → Nat}
    (hm : m.dispatcher = some d) (h : d.Reach o runs) (prog : List Stmt) (globals : Bindings) :
    ∃ d' runs', (m.exec prog globals).2.dispatcher = some d' ∧ d'.Reach o runs' := by
  rcases m.exec_reaches prog globals with ⟨h₀, -⟩ | ⟨d₀, d', h₀, h', hr⟩
  · simp [hm] at h₀
  · simp only [hm, Option.map_some, Option.some.injEq] at h₀
    subst h₀
    obtain ⟨runs', h''⟩ := h.clear.of_reaches hr
    exact ⟨d', runs', h', h''⟩

/-- Every dispatcher that a sequence of runs of programs leaves, from a
fresh one, is reached. -/
theorem Machine.execAll_reach (o : DispatchOptions) (progs : List (List Stmt × Bindings)) :
    ∀ r ∈ (Machine.dispatching o).execAll progs, ∃ d runs, r.2.dispatcher = some d ∧ d.Reach o runs := by
  -- the machine each run starts on has a reached dispatcher
  suffices key : ∀ (m : Machine) (d : Dispatcher) (runs : String → Nat), m.dispatcher = some d →
      d.Reach o runs → ∀ r ∈ m.execAll progs, ∃ d runs, r.2.dispatcher = some d ∧ d.Reach o runs from
    key _ _ _ rfl .start
  induction progs with
  | nil => simp [Machine.execAll]
  | cons pg rest ih =>
    intro m d runs hm h r hr
    obtain ⟨prog, globals⟩ := pg
    obtain ⟨d', runs', h', hreach⟩ := Machine.exec_reach hm h prog globals
    simp only [Machine.execAll, List.mem_cons] at hr
    rcases hr with rfl | hr
    · exact ⟨d', runs', h', hreach⟩
    · exact ih _ d' runs' h' hreach r hr

end HotLoop
