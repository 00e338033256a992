import HotLoop.Cli.Flags
import HotLoop.Config.Decode
import HotLoop.Eval.Program
import HotLoop.Workload.Catalog
import HotLoop.Report
/-!
# HotLoop.Cli.Command

The command line of the loop core: `run` executes catalog workloads, `list`
names them, `version` and `help` print fixed texts.

A run reads its flags, then its configuration (the defaults, or a YAML file
laid over them, with the flags applied on top), checks the log level, builds
every named workload (all of them when none is named; the `i`-th in column
`i + 1`) and runs each one the given number of times on one dispatcher, so
loops grow hot across runs and workloads. Every workload gets one line with
its answer and whether that answer is the expected one; afterwards the
compiled loops' listings and the statistics report follow when asked for.

Run times are not measured here: every span of time reads `0s`. A failure
ends the run; what was printed before it stays printed.
-/

/-! ## Trials of catalog programs

Every run of a program starts from an empty global scope on a machine that
the runs share, so profiles, compiled loops and loop memory carry over from
one run to the next. After a run, the value of the program's result global is
what it computed; the program is right when that value is the expected one.
-/

namespace HotLoop

/-- One run of a catalog program: how it ended and what it left in its
result global (nil when it left nothing there). -/
structure Trial where
  outcome : Except Error Signal
  got : Value

namespace Program

/-- Run the program once on `m`. -/
def trial (p : Program) (m : Machine) : Trial × Machine :=
  let (r, m) := m.exec p.stmts []
  (⟨r, (m.globals.get? p.result).getD .nil⟩, m)

/-- Run the program `runs` times on `m`, every run to its end. -/
def trials (p : Program) (m : Machine) : Nat → List Trial × Machine
  | 0 => ([], m)
  | n + 1 =>
    let (t, m) := p.trial m
    let (ts, m) := p.trials m n
    (t :: ts, m)

/-- Whether a run left the expected value. -/
def agrees (p : Program) (t : Trial) : Bool := Value.same t.got p.want

end Program

end HotLoop

namespace HotLoop.Cli

/-- What a command sees of its surroundings. -/
structure Host where
  /-- The contents of a file, or why it cannot be read (`open path: reason`). -/
  read : String → Except String String
  /-- The date the program was built on. -/
  buildDate : String

/-- What a command printed and how it ended: the failure of a run, or whether
every answer was the expected one. -/
structure Outcome where
  stdout : String := ""
  stderr : String := ""
  result : Except Error Bool := .ok true

/-! ## Fixed texts -/

/-- The release. -/
def release : String := "0.5.11"

/-- The help text. -/
def usage : String :=
  "cnloop - loop acceleration core driver\n\n" ++
  "Usage:\n" ++
  "  cnloop run [flags] [workload...]   Run workloads (all when none are named)\n" ++
  "  cnloop list                        List the available workloads\n" ++
  "  cnloop version                     Show version information\n" ++
  "  cnloop help                        Show this help\n\n" ++
  "Run flags:\n" ++
  "  -config <file>      YAML configuration\n" ++
  "  -runs <n>           Executions of each workload (default 200)\n" ++
  "  -size <n>           Problem size, 0 keeps each workload's default\n" ++
  "  -stats              Print execution statistics at exit\n" ++
  "  -dump-ir            Print the IR of every compiled loop at exit\n" ++
  "  -interpret          Never compile; interpret every loop\n" ++
  "  -log-level <level>  debug, info, warn or error\n" ++
  "  -debug-jit          Trace compiler and dispatcher decisions\n" ++
  "  -debug-memory       Trace loop frame allocation\n"

/-- The version text. -/
def versionText (buildDate : String) : String :=
  "cnloop version " ++ release ++ "\nBuild date: " ++ buildDate ++ "\nGit commit: unknown\n"

/-- The workloads with their descriptions, one per line. -/
def listing : String :=
  String.join (Workload.catalog.map fun w => "  " ++ Text.padRight w.name 18 ++ " " ++ w.description ++ "\n")

/-! ## Log levels -/

/-- A letter in capitals, as the level names are compared: ASCII letters,
and the dotless `ı` and long `ſ`, whose capitals are `I` and `S`. -/
def upper (c : Char) : Char :=
  if c = 'ı' then 'I' else if c = 'ſ' then 'S' else c.toUpper

/-- Whether `name` names a log level: `debug`, `info`, `warn` or `error` in
any capitalisation, optionally followed by a signed decimal offset within
the 64-bit range (`info+2`, `error-1`). -/
def isLogLevel (name : String) : Bool :=
  let cs := name.toList.map upper
  let (base, offset) := cs.span fun c => c ≠ '+' ∧ c ≠ '-'
  let offsetFits := match offset with
    | [] => true
    | s :: ds =>
      !ds.isEmpty && ds.all Char.isDigit &&
        (let n := ds.foldl (fun n c => n * 10 + (c.toNat - 48)) 0
         if s = '-' then n ≤ Nat.pow 2 63 else n < Nat.pow 2 63)
  ["DEBUG", "INFO", "WARN", "ERROR"].contains (String.ofList base) && offsetFits

/-! ## Running -/

/-- The settings of a run, from its flags. -/
structure RunFlags where
  config : String := ""
  runs : Int := 200
  size : Int := 0
  stats : Bool := false
  dumpIr : Bool := false
  interpret : Bool := false
  logLevel : String := ""
  debugJit : Bool := false
  debugMemory : Bool := false
  deriving Repr

namespace RunFlags

/-- The flags of `run`. -/
def specs : List (String × FlagKind) :=
  [("config", .text), ("runs", .int), ("size", .int), ("stats", .switch), ("dump-ir", .switch),
   ("interpret", .switch), ("log-level", .text), ("debug-jit", .switch), ("debug-memory", .switch)]

/-- Apply one flag. -/
def apply (f : RunFlags) : String × FlagValue → RunFlags
  | ("config", .text s) => { f with config := s }
  | ("runs", .int n) => { f with runs := n }
  | ("size", .int n) => { f with size := n }
  | ("stats", .switch b) => { f with stats := b }
  | ("dump-ir", .switch b) => { f with dumpIr := b }
  | ("interpret", .switch b) => { f with interpret := b }
  | ("log-level", .text s) => { f with logLevel := s }
  | ("debug-jit", .switch b) => { f with debugJit := b }
  | ("debug-memory", .switch b) => { f with debugMemory := b }
  | _ => f

/-- The flags of a run and the workload names after them. -/
def parse (args : List String) : Except FlagError (RunFlags × List String) :=
  (parseFlags specs args).map fun p => (p.set.foldl apply {}, p.rest)

/-- The configuration of a run: the file's, or the defaults, with the flags
applied. Never compiling means a threshold no loop reaches. -/
def loadConfig (f : RunFlags) (host : Host) : Except Error Config := do
  let c ← if f.config = "" then pure {} else
    match host.read f.config with
    | .error m => throw (.context "read config" (.note m))
    | .ok text => match Config.parse text with
      | .ok c => pure c
      | .error e => throw (.context ("config " ++ f.config) e)
  let c := if f.stats then { c with showStats := true } else c
  let c := if f.interpret then { c with hotspot := { c.hotspot with threshold := 9223372036854775807 } }
    else c
  let c := if f.logLevel = "" then c else { c with logLevel := RawText.ofString f.logLevel }
  return { c with debug := { jit := c.debug.jit || f.debugJit, memory := c.debug.memory || f.debugMemory } }

end RunFlags

/-- A run in progress: what it has printed so far, kept when it fails. -/
abbrev Session := EStateM Error String

/-- Print text. -/
def say (s : String) : Session Unit := modify (· ++ s)

/-- Give up with an error. -/
def fromExcept {α : Type} : Except Error α → Session α
  | .ok a => pure a
  | .error e => throw e

/-- The vector width a width of 0 stands for. -/
def hostVectorWidth : Nat := 4

/-- Build the named workloads, the `i`-th in column `i + 1`, at `size` when
positive and at their default sizes otherwise; every loop gets its own key. -/
def programs (names : List String) (size : Int) : Except Error (List Program) :=
  let n := if size > 0 then size.toNat else 0
  let step (acc : Except Error (List Program × Nat)) (e : Nat × String) :=
    acc.bind fun (ps, key) =>
      match Workload.find? e.2 with
      | some w =>
        let (p, key) := w.program (e.1 + 1) n key
        .ok (ps ++ [p], key)
      | none => .error (.note ("unknown workload " ++ Text.quote e.2 ++ " (try: " ++
          ", ".intercalate Workload.names ++ ")"))
  (names.zipIdx.map (fun (s, i) => (i, s))).foldl step (.ok ([], 0)) |>.map (·.1)

/-- Run a program `runs` times, stopping at the first failure; what the last
run left in the program's result global. -/
def Program.rounds (p : Program) (m : Machine) : Nat → Except Error Value × Machine
  | 0 => (.ok .nil, m)
  | n + 1 =>
    let (t, m) := p.trial m
    match t.outcome, n with
    | .error e, _ => (.error e, m)
    | .ok _, 0 => (.ok t.got, m)
    | .ok _, n => Program.rounds p m n

/-- The line reporting a workload's runs. -/
def resultLine (p : Program) (got : Value) (runs : Nat) : String :=
  let status := if Value.same got p.want then "ok" else "MISMATCH (want " ++ p.want.text ++ ")"
  Text.padRight p.name 18 ++ " " ++ p.result ++ " = " ++ Text.padRight got.text 14 ++ " " ++
    Text.count runs ++ " runs in " ++ Text.padRight (Duration.text 0) 12 ++ " " ++ status ++ "\n"

/-- Run one workload and print its line; whether its answer was right. -/
def runProgram (m : Machine) (p : Program) (runs : Nat) : Session (Bool × Machine) := do
  match Program.rounds p m runs with
  | (.error e, _) => throw (.context p.name e)
  | (.ok got, m) =>
    say (resultLine p got runs)
    return (Value.same got p.want, m)

/-- The listings of the compiled loops, ordered by fingerprint. -/
def irDump (c : Cache Artifact) : String :=
  String.join (c.items.map fun (_, a) =>
    "\n; fingerprint " ++ a.fingerprint.text ++ ", strategies " ++ a.strategies.text ++ ", " ++
      Text.bytes a.size ++ "\n" ++ a.listing)

/-- The body of `run` after its flags. -/
def session (host : Host) (f : RunFlags) (names : List String) : Session Bool := do
  if f.runs < 1 then throw (.note ("-runs must be at least 1, got " ++ toString f.runs))
  let cfg ← fromExcept (f.loadConfig host)
  if !cfg.logLevel.isEmpty ∧ !isLogLevel cfg.logLevel.lossy then
    throw (.note ("unknown log level " ++ cfg.logLevel.quote))
  let ps ← fromExcept (programs (if names.isEmpty then Workload.names else names) f.size)
  let opts ← fromExcept (cfg.options hostVectorWidth)
  let (ok, m) ← ps.foldlM (fun (ok, m) p => do
    let (same, m) ← runProgram m p f.runs.toNat
    return (ok && same, m)) (true, Machine.dispatching opts)
  if let some d := m.dispatcher then
    if f.dumpIr then say (irDump d.cache)
    if cfg.showStats then say (Report.ofDispatcher d m.mem).text
  return ok

/-- `run` with its arguments. A flag problem prints the help text, and its
message on the error stream unless help was asked for. -/
def runCommand (host : Host) (args : List String) : Outcome :=
  match RunFlags.parse args with
  | .error e =>
    { stdout := usage, stderr := if e = .help then "" else e.message ++ "\n", result := .error (.note e.message) }
  | .ok (f, names) =>
    match (session host f names).run "" with
    | .ok ok out => { stdout := out, result := .ok ok }
    | .error e out => { stdout := out, result := .error e }

/-! ## Commands -/

/-- The commands, by their first argument. -/
inductive Command where
  | help
  | version
  | list
  | run (args : List String)
  | unknown (name : String)
  deriving Repr

namespace Command

/-- The command the arguments ask for; none at all asks for help. -/
def of : List String → Command
  | [] => .help
  | a :: rest =>
    if ["--help", "-h", "help", "-help"].contains a then .help
    else if ["--version", "-v", "version", "-version"].contains a then .version
    else if a = "list" then .list
    else if a = "run" then .run rest
    else .unknown a

/-- The configuration file a command reads, if any. -/
def configFile : Command → Option String
  | .run args => match RunFlags.parse args with
    | .ok (f, _) => if f.config = "" then none else some f.config
    | .error _ => none
  | _ => none

/-- Carry out a command. An unknown command prints the help text after
naming itself on the error stream. -/
def perform (host : Host) : Command → Outcome
  | .help => { stdout := usage }
  | .version => { stdout := versionText host.buildDate }
  | .list => { stdout := listing }
  | .run args => runCommand host args
  | .unknown a => { stdout := usage, stderr := "Unknown command: " ++ a ++ "\n\n" }

/-- The exit status: 2 for an unknown command, 1 for a failed run or a wrong
answer, 0 otherwise. -/
def status (c : Command) (o : Outcome) : UInt32 :=
  match c, o.result with
  | .unknown _, _ => 2
  | _, .error _ | _, .ok false => 1
  | _, .ok true => 0

end Command

end HotLoop.Cli
