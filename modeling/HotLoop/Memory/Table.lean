import HotLoop.Memory.Manager
/-!
# HotLoop.Memory.Table

Frames opened in any order. Each frame is numbered in order of creation
and has a parent fixed when it is opened: an earlier frame or the global
scope. The manager keeps the open frames as a stack.

Closing a frame first closes every frame opened after it that is still
open, innermost first; each writes its copied-in variables back through its
own parent, the first failure is reported, and the arena is released to the
mark of the frame asked for. Closing a frame that is no longer open only
marks it dead. A reset marks every open frame dead without writing back and
empties the arena.
-/

namespace HotLoop

/-- Frames with explicit parents, and the manager that opened them. -/
structure FrameTable where
  manager : Manager
  globals : Bindings
  frames : Array Frame := #[]
  /-- The parent of every frame: an earlier frame, or `none` for the
  global scope. -/
  parents : Array (Option Nat) := #[]
  /-- The open frames, innermost first. -/
  opened : List Nat := []

namespace FrameTable

/-- The environment seen from parent `p`: frames up the parent chain, then
the global scope. Parents are earlier frames, so `fuel = p + 1` suffices. -/
def chain (t : FrameTable) : Nat → Option Nat → Env
  | _, none => [.scope t.globals]
  | 0, some _ => [.scope t.globals]
  | f + 1, some k =>
    match t.frames[k]? with
    | some fr => .frame fr :: t.chain f (t.parents[k]?.getD none)
    | none => [.scope t.globals]

/-- The environment seen from parent `p`. -/
def env (t : FrameTable) (p : Option Nat) : Env := t.chain (t.frames.size + 1) p

/-- Store an environment obtained from `env t p` back into the table:
each frame layer into its frame, the last scope into the globals. -/
def absorb (t : FrameTable) : Nat → Option Nat → Env → FrameTable
  | _, _, [.scope b] => { t with globals := b }
  | f + 1, some k, .frame fr :: rest =>
    let t := { t with frames := t.frames.set! k fr }
    t.absorb f (t.parents[k]?.getD none) rest
  | _, _, _ => t

/-- Run an environment operation from parent `p` and store its result. -/
def within {α : Type} (t : FrameTable) (p : Option Nat) (act : Env → Arena → α × Env × Arena) :
    α × FrameTable :=
  let (a, env, arena) := act (t.env p) t.manager.arena
  let t := { t with manager := { t.manager with arena := arena } }
  (a, t.absorb (t.frames.size + 1) p env)

/-- Open a frame for loop `l` below `parent`; its number. -/
def enter (t : FrameTable) (l : Loop) (parent : Option Nat) : Except Error (Nat × FrameTable) := do
  let (fr, m) ← t.manager.enter l l.shape (t.env parent)
  let n := t.frames.size
  return (n, { t with manager := m, frames := t.frames.push fr, parents := t.parents.push parent,
                      opened := n :: t.opened })

/-- Close one open frame: write back through its parent and mark it dead. -/
def close (t : FrameTable) (k : Nat) : FrameTable × Option Error :=
  match t.frames[k]? with
  | none => (t, none)
  | some fr =>
    let p := t.parents[k]?.getD none
    let (err, t) := t.within p fun env a =>
      let (env, a, err) := Manager.writeBack a env fr
      (err, env, a)
    let t := { t with frames := t.frames.modify k fun f => { f with live := false } }
    let m := t.manager
    ({ t with manager := { m with stats := { m.stats with loopsExited := m.stats.loopsExited + 1 } } }, err)

/-- Close frame `n` and every frame opened after it; the first write-back
failure. -/
def exit (t : FrameTable) (n : Nat) : FrameTable × Option Error :=
  match t.frames[n]? with
  | none => (t, none)
  | some fr =>
    if !fr.live then (t, none)
    else if !t.opened.contains n then
      ({ t with frames := t.frames.modify n fun f => { f with live := false } }, none)
    else
      let above := t.opened.takeWhile (· ≠ n) ++ [n]
      let (t, err) := above.foldl (fun (t, err) k =>
        let (t, e) := t.close k
        (t, err <|> e)) (t, none)
      let rest := t.opened.drop above.length
      let m := t.manager
      ({ t with opened := rest,
                manager := { m with arena := m.arena.release fr.mark, depth := rest.length } }, err)

/-- Drop every open frame without writing back, and empty the arena. -/
def reset (t : FrameTable) : FrameTable :=
  let frames := t.opened.foldl (fun fs k => fs.modify k fun f => { f with live := false }) t.frames
  let m := t.manager
  { t with frames := frames, opened := [], manager := { m with arena := m.arena.release 0, depth := 0 } }

end FrameTable

end HotLoop
