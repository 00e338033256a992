import HotLoop.Eval.Exec
/-!
# HotLoop.Eval.Program

Whole programs. A program is a block of statements run in one global scope;
the machine that runs it keeps its loop memory and, when dispatching, its
dispatcher from one run to the next, so that a program run many times grows
hot exactly as it would inside one long session.

What a run shows afterwards is its outcome, the globals it left and the
machine, ready for the next run.
-/

namespace HotLoop

/-- The globals of an environment: the bindings of its outermost layer. -/
def Env.globals (env : Env) : Bindings :=
  match env.getLast? with
  | some (.scope b) => b
  | _ => []

namespace Machine

/-- A machine that interprets every loop, with loop memory set up by `o`. -/
def plain (o : MemoryOptions) : Machine := { env := [], mem := Manager.new o }

/-- A machine whose loops go through a fresh dispatcher configured by `o`. -/
def dispatching (o : DispatchOptions) : Machine :=
  { env := [], mem := Manager.new o.memory, dispatcher := some (Dispatcher.new o) }

/-- Run a program from the given globals. The dispatcher's transition log
starts empty, so afterwards it holds the moves of this run only. -/
def exec (m : Machine) (prog : List Stmt) (globals : Bindings) :
    Except Error Signal × Machine :=
  let m := { m with env := [.scope globals], out := "",
                    dispatcher := m.dispatcher.map fun d => { d with log := #[] } }
  match (execBlock Machine.fuel prog).run m with
  | .ok s m => (.ok s, m)
  | .error e m => (.error e, m)

/-- The globals the last run left. -/
def globals (m : Machine) : Bindings := m.env.globals

/-- Run programs one after another, each from its own globals: every run's
outcome with the machine it left, which the next run starts on. -/
def execAll (m : Machine) : List (List Stmt × Bindings) → List (Except Error Signal × Machine)
  | [] => []
  | (prog, globals) :: rest =>
    let (r, m') := m.exec prog globals
    (r, m') :: m'.execAll rest

end Machine

end HotLoop
